import LineBasic.Proofs.Tree.Expression

/-! A row of tokens is read as a statement just if the tokens before its end marker are a sentence
of the grammar. -/

namespace LineBasic.Grammar

open Parse

lemma bind_ok {ε α β : Type} {x : Except ε α} {f : α → Except ε β} {b : β} (h : x >>= f = .ok b) :
    ∃ a, x = .ok a ∧ f a = .ok b := by
  cases x with
  | error r => cases h
  | ok a => exact ⟨a, rfl, h⟩

lemma bind_error {ε α β : Type} {x : Except ε α} {f : α → Except ε β} {r : ε}
    (h : x >>= f = .error r) : x = .error r ∨ ∃ a, x = .ok a ∧ f a = .error r := by
  cases x with
  | error r' =>
    cases h
    exact .inl rfl
  | ok a => exact .inr ⟨a, rfl, h⟩

@[simp] lemma current_cons {line : Int} {t : Token} {ts : List Token} : current line (t :: ts) = t := rfl

def Ends : List Token → Prop
  | [] => True
  | t :: _ => t.kind = .eof

lemma ends_iff {line : Int} {ts : List Token} : Ends ts ↔ (current line ts).kind = .eof := by
  cases ts <;> simp [Ends, current, Token.endMarker]

lemma Ends.stops {ts : List Token} (h : Ends ts) : Stops ts := by
  cases ts with
  | nil => trivial
  | cons t ts =>
    have ht : t.kind = .eof := h
    simp [Stops, ht, productOperator?, sumOperator?]

lemma expect_ok {line : Int} {kinds : List Token.Kind} {ts rest : List Token} {t : Token}
    (hk : .eof ∉ kinds) (h : expect line kinds ts = .ok (t, rest)) :
    t.kind ∈ kinds ∧ ts = t :: rest := by
  rw [expect] at h
  split at h
  · rename_i hm
    cases h
    cases ts with
    | nil => exact (hk hm).elim
    | cons => exact ⟨hm, rfl⟩
  · cases h

lemma expect_cons {line : Int} {kinds : List Token.Kind} {ts : List Token} {t : Token}
    (h : t.kind ∈ kinds) : expect line kinds (t :: ts) = .ok (t, ts) := by
  simp [expect, current, h]

lemma target?_eq_some {v : Value} {n : Int} :
    target? v = some n ↔ ∃ x, v = .number x ∧ (Number.shape x).integer? = some n ∧ 0 < n := by
  cases v <;> simp [target?]

lemma jump_sound {line : Int} {k : Token} {ts rest : List Token} {s : Stmt} (hk : k.kind = .goto)
    (h : jump line ts = .ok (s, rest)) : ∃ us, k :: ts = us ++ rest ∧ Sentence us s := by
  obtain ⟨⟨t, us⟩, ht, h₁⟩ := bind_ok h
  obtain ⟨hn, rfl⟩ := expect_ok (by simp) ht
  cases hv : target? t.literal with
  | none =>
    simp only [hv] at h₁
    cases h₁
  | some n =>
    simp only [hv] at h₁
    cases h₁
    obtain ⟨x, hx, hi, hp⟩ := target?_eq_some.mp hv
    exact ⟨[k, t], rfl, .goto hk (by simpa using hn) hx hi hp⟩

lemma assignment_sound {line : Int} {ts rest : List Token} {s : Stmt}
    (h : assignment line ts = .ok (s, rest)) :
    ∃ v q us e, ts = v :: q :: us ++ rest ∧ v.kind = .identifier ∧ q.kind = .equal ∧
      Derives .sum us e ∧ s = .assign (.var v.lexeme) e := by
  obtain ⟨⟨v, us⟩, hv, h₁⟩ := bind_ok h
  obtain ⟨⟨q, vs⟩, hq, h₂⟩ := bind_ok h₁
  obtain ⟨⟨e, ws⟩, he, h₃⟩ := bind_ok h₂
  cases h₃
  obtain ⟨hvk, rfl⟩ := expect_ok (by simp) hv
  obtain ⟨hqk, rfl⟩ := expect_ok (by simp) hq
  obtain ⟨as, rfl, hd⟩ := expression_sound he
  exact ⟨v, q, as, e, rfl, by simpa using hvk, by simpa using hqk, hd, rfl⟩

lemma remark_sound {k : Token} {ts rest : List Token} {s : Stmt} (hk : k.kind = .rem)
    (h : remark ts = (s, rest)) : ∃ us, k :: ts = us ++ rest ∧ Sentence us s := by
  cases ts with
  | nil =>
    cases h
    exact ⟨[k], rfl, .rem hk⟩
  | cons t ts =>
    simp only [remark] at h
    split at h
    · rename_i ht
      cases h
      exact ⟨[k, t], rfl, .remark hk ht⟩
    · cases h
      exact ⟨[k], rfl, .rem hk⟩

lemma prompt_sound {line : Int} {ts rest : List Token} {p : Option Expr}
    (h : prompt line ts = .ok (p, rest)) : (p = none ∧ rest = ts) ∨
      ∃ us m e, ts = us ++ m :: rest ∧ Derives .sum us e ∧ (m.kind = .comma ∨ m.kind = .semicolon) ∧
        p = some e := by
  rw [prompt] at h
  split at h
  · cases h
    exact .inl ⟨rfl, rfl⟩
  · obtain ⟨⟨e, us⟩, he, h₁⟩ := bind_ok h
    obtain ⟨⟨m, vs⟩, hm, h₂⟩ := bind_ok h₁
    cases h₂
    obtain ⟨as, rfl, hd⟩ := expression_sound he
    obtain ⟨hmk, rfl⟩ := expect_ok (by simp) hm
    exact .inr ⟨as, m, e, rfl, hd, by simpa using hmk, rfl⟩

lemma request_sound {line : Int} {k : Token} {ts rest : List Token} {s : Stmt} (hk : k.kind = .input)
    (h : request line ts = .ok (s, rest)) : ∃ us, k :: ts = us ++ rest ∧ Sentence us s := by
  obtain ⟨⟨p, us⟩, hp, h₁⟩ := bind_ok h
  obtain ⟨⟨v, vs⟩, hv, h₂⟩ := bind_ok h₁
  cases h₂
  obtain ⟨hvk, rfl⟩ := expect_ok (by simp) hv
  have hi : v.kind = .identifier := by simpa using hvk
  rcases prompt_sound hp with ⟨rfl, rfl⟩ | ⟨ws, m, e, rfl, he, hm, rfl⟩
  · exact ⟨[k, v], rfl, .input hk hi⟩
  · exact ⟨k :: ws ++ [m, v], by simp, .prompt hk he hm hi⟩

lemma statement_sound {line : Int} {ts rest : List Token} {s : Stmt}
    (h : statement line ts = .ok (s, rest)) : ∃ us, ts = us ++ rest ∧ Sentence us s := by
  cases ts with
  | nil => cases h
  | cons k ts =>
    simp only [statement, current, List.tail_cons] at h
    split at h
    · rename_i hk
      obtain ⟨⟨e, us⟩, he, h₁⟩ := bind_ok h
      cases h₁
      obtain ⟨vs, rfl, hd⟩ := expression_sound he
      exact ⟨k :: vs, rfl, .print hk hd⟩
    · rename_i hk
      exact jump_sound hk h
    · rename_i hk
      obtain ⟨v, q, us, e, rfl, hv, hq, he, rfl⟩ := assignment_sound h
      exact ⟨k :: v :: q :: us, rfl, .letAssign hk hv hq he⟩
    · obtain ⟨v, q, us, e, hts, hv, hq, he, rfl⟩ := assignment_sound h
      exact ⟨v :: q :: us, hts, .assign hv hq he⟩
    · rename_i hk
      exact remark_sound hk (Except.ok.inj h)
    · rename_i hk
      cases h
      exact ⟨[k], rfl, .cls hk⟩
    · rename_i hk
      exact request_sound hk h
    · cases h

lemma assignment_complete {line : Int} {v q : Token} {ts rest : List Token} {e : Expr}
    (hv : v.kind = .identifier) (hq : q.kind = .equal) (he : Derives .sum ts e) (hr : Ends rest) :
    assignment line (v :: q :: ts ++ rest) = .ok (.assign (.var v.lexeme) e, rest) := by
  simp only [assignment, List.cons_append]
  rw [expect_cons (by simp [hv])]
  change (expect line [.equal] (q :: (ts ++ rest)) >>= _) = _
  rw [expect_cons (by simp [hq])]
  change (expression line (ts ++ rest) >>= _) = _
  rw [expression_complete he hr.stops]
  rfl

lemma not_isBareTarget {line : Int} {ts rest : List Token} {m : Token} {e : Expr}
    (he : Derives .sum ts e) (hm : m.kind = .comma ∨ m.kind = .semicolon) :
    isBareTarget line (ts ++ m :: rest) = false := by
  cases ts with
  | nil => exact (he.ne_nil rfl).elim
  | cons t ts =>
    have hn : (current line (ts ++ m :: rest)).kind ≠ .eof := by
      cases ts with
      | nil => rcases hm with hm | hm <;> simp [current, hm]
      | cons u us => exact he.no_end u (by simp)
    simp [isBareTarget, hn]

lemma request_bare {line : Int} {v : Token} {rest : List Token} (hv : v.kind = .identifier)
    (hr : Ends rest) : request line (v :: rest) = .ok (.input none (.var v.lexeme), rest) := by
  have hp : prompt line (v :: rest) = .ok (none, v :: rest) := by
    rw [prompt, if_pos (by simp [isBareTarget, hv, ends_iff.mp hr])]
    rfl
  rw [request, hp]
  change (expect line [.identifier] (v :: rest) >>= _) = _
  rw [expect_cons (by simp [hv])]
  rfl

lemma request_complete {line : Int} {m v : Token} {ts rest : List Token} {e : Expr}
    (he : Derives .sum ts e) (hm : m.kind = .comma ∨ m.kind = .semicolon) (hv : v.kind = .identifier) :
    request line (ts ++ m :: v :: rest) = .ok (.input (some e) (.var v.lexeme), rest) := by
  have hs : Stops (m :: v :: rest) := by
    rcases hm with hm | hm <;> simp [Stops, hm, productOperator?, sumOperator?]
  have hp : prompt line (ts ++ m :: v :: rest) = .ok (some e, v :: rest) := by
    rw [prompt, not_isBareTarget he hm, if_neg (by simp), expression_complete he hs]
    change (expect line [.comma, .semicolon] (m :: v :: rest) >>= _) = _
    rw [expect_cons (by simpa using hm)]
    rfl
  rw [request, hp]
  change (expect line [.identifier] (v :: rest) >>= _) = _
  rw [expect_cons (by simp [hv])]
  rfl

lemma statement_complete {line : Int} {ts rest : List Token} {s : Stmt} (h : Sentence ts s)
    (hr : Ends rest) : statement line (ts ++ rest) = .ok (s, rest) := by
  cases h with
  | @print k ts e hk he =>
    simp only [List.cons_append, statement, current, hk, List.tail_cons]
    rw [expression_complete he hr.stops]
    rfl
  | @goto k t x n hk ht hx hi hp =>
    simp only [List.cons_append, List.nil_append, statement, current, hk, List.tail_cons, jump]
    rw [expect_cons (by simp [ht])]
    have hg := target?_eq_some.mpr ⟨x, hx, hi, hp⟩
    simp only [Bind.bind, Except.bind, hg]
    rfl
  | assign hv hq he =>
    simp only [List.cons_append, statement, current, hv]
    exact assignment_complete hv hq he hr
  | letAssign hk hv hq he =>
    simp only [List.cons_append, statement, current, hk, List.tail_cons]
    exact assignment_complete hv hq he hr
  | rem hk =>
    simp only [List.cons_append, List.nil_append, statement, current, hk, List.tail_cons]
    cases rest with
    | nil => rfl
    | cons t rest =>
      have ht : t.kind = .eof := hr
      simp [remark, ht]
  | remark hk ht => simp [statement, current, hk, remark, ht]
  | cls hk => simp [statement, current, hk]
  | @input k v hk hv =>
    simp only [List.cons_append, List.nil_append, statement, current, hk, List.tail_cons]
    exact request_bare hv hr
  | prompt hk he hm hv =>
    simp only [List.cons_append, statement, current, hk, List.tail_cons, List.append_assoc,
      List.nil_append]
    exact request_complete he hm hv

def body (ts : List Token) : List Token := ts.takeWhile (·.kind ≠ .eof)

lemma body_append {ts rest : List Token} (h : ∀ t ∈ ts, t.kind ≠ .eof) (hr : Ends rest) :
    body (ts ++ rest) = ts := by
  have hrest : body rest = [] := by
    cases rest with
    | nil => rfl
    | cons t rest =>
      have ht : t.kind = .eof := hr
      simp [body, ht]
  rw [body, List.takeWhile_append_of_pos (by simpa using h)]
  change ts ++ body rest = ts
  rw [hrest, List.append_nil]

lemma body_of_no_end {ts : List Token} (h : ∀ t ∈ ts, t.kind ≠ .eof) : body ts = ts := by
  have hb := @body_append ts [] h trivial
  simpa using hb

lemma body_no_end {ts : List Token} : ∀ t ∈ body ts, t.kind ≠ .eof := by
  intro t ht
  simpa using List.all_eq_true.mp List.all_takeWhile t ht

lemma exists_body_append (ts : List Token) : ∃ rest, ts = body ts ++ rest ∧ Ends rest := by
  induction ts with
  | nil => exact ⟨[], rfl, trivial⟩
  | cons t ts ih =>
    by_cases ht : t.kind = .eof
    · exact ⟨t :: ts, by simp [body, ht], ht⟩
    · obtain ⟨rest, hts, hr⟩ := ih
      have hb : body (t :: ts) = t :: body ts := by simp [body, ht]
      exact ⟨rest, by rw [hb, List.cons_append, ← hts], hr⟩

lemma whole_ok_iff {line : Int} {ts rest : List Token} {s : Stmt} :
    whole line ts = .ok (s, rest) ↔ statement line ts = .ok (s, rest) ∧ Ends rest := by
  constructor
  · intro h
    obtain ⟨⟨s', us⟩, hs, h₁⟩ := bind_ok h
    dsimp only at h₁
    split at h₁
    · rename_i he
      cases h₁
      exact ⟨hs, ends_iff.mpr he⟩
    · cases h₁
  · rintro ⟨hs, he⟩
    rw [whole, hs]
    change (if (current line rest).kind = .eof then _ else _) = _
    rw [if_pos (ends_iff.mp he)]
    rfl

lemma parse_ok_iff {ts : List Token} {s : Stmt} : parse ts = .ok s ↔ Sentence (body ts) s := by
  constructor
  · intro h
    rw [parse] at h
    split at h
    · rename_i s' rest hw
      cases h
      obtain ⟨hs, he⟩ := whole_ok_iff.mp hw
      obtain ⟨us, rfl, hu⟩ := statement_sound hs
      rwa [body_append hu.no_end he]
    · cases h
  · intro h
    obtain ⟨rest, hts, hr⟩ := exists_body_append ts
    have hs : statement (lineOf ts) ts = .ok (s, rest) := by
      rw [hts]
      exact statement_complete h hr
    rw [parse, whole_ok_iff.mpr ⟨hs, hr⟩]

end LineBasic.Grammar
