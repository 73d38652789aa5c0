import LineBasic.Proofs.Tree.Sentence

/-! Parsing decides the grammar: its refusals are syntax faults, and it reads no further than the
first end marker. -/

namespace LineBasic.Grammar

open Parse

def IsSyntax (c : Cause) : Prop := c.category = .grammar ∧ c.wording = "SYNTAX ERROR"

lemma readExpr_refusal {line : Int} {level : Level} {mode : Mode} {here : Pending}
    {outer : List Pending} {ts : List Token} {r : Refusal}
    (h : readExpr line level mode here outer ts = .error r) : IsSyntax r.cause := by
  fun_induction readExpr line level mode here outer ts with
  | case1 | case3 | case8 | case13 =>
    cases h
    exact ⟨rfl, rfl⟩
  | case2 | case11 => cases h
  | case4 _ _ _ _ _ ih | case5 _ _ _ _ _ ih | case6 _ _ _ _ _ ih | case7 _ _ _ _ _ ih => exact ih h
  | case9 _ _ _ _ _ _ _ _ ih | case10 _ _ _ _ _ _ _ _ _ ih => exact ih h
  | case12 _ _ _ _ _ _ _ _ _ ih => exact ih h

lemma expect_refusal {line : Int} {kinds : List Token.Kind} {ts : List Token} {r : Refusal}
    (h : expect line kinds ts = .error r) : IsSyntax r.cause := by
  rw [expect] at h
  split at h
  · cases h
  · cases h
    exact ⟨rfl, rfl⟩

lemma jump_refusal {line : Int} {ts : List Token} {r : Refusal} (h : jump line ts = .error r) :
    IsSyntax r.cause := by
  obtain h₁ | ⟨⟨t, us⟩, _, h₁⟩ := bind_error h
  · exact expect_refusal h₁
  · dsimp only at h₁
    split at h₁
    · cases h₁
    · cases h₁
      exact ⟨rfl, rfl⟩

lemma assignment_refusal {line : Int} {ts : List Token} {r : Refusal}
    (h : assignment line ts = .error r) : IsSyntax r.cause := by
  obtain h₁ | ⟨_, _, h₁⟩ := bind_error h
  · exact expect_refusal h₁
  obtain h₂ | ⟨_, _, h₂⟩ := bind_error h₁
  · exact expect_refusal h₂
  obtain h₃ | ⟨_, _, h₃⟩ := bind_error h₂
  · exact readExpr_refusal h₃
  · cases h₃

lemma prompt_refusal {line : Int} {ts : List Token} {r : Refusal} (h : prompt line ts = .error r) :
    IsSyntax r.cause := by
  rw [prompt] at h
  split at h
  · cases h
  obtain h₁ | ⟨_, _, h₁⟩ := bind_error h
  · exact readExpr_refusal h₁
  obtain h₂ | ⟨_, _, h₂⟩ := bind_error h₁
  · exact expect_refusal h₂
  · cases h₂

lemma request_refusal {line : Int} {ts : List Token} {r : Refusal} (h : request line ts = .error r) :
    IsSyntax r.cause := by
  obtain h₁ | ⟨_, _, h₁⟩ := bind_error h
  · exact prompt_refusal h₁
  obtain h₂ | ⟨_, _, h₂⟩ := bind_error h₁
  · exact expect_refusal h₂
  · cases h₂

lemma statement_refusal {line : Int} {ts : List Token} {r : Refusal}
    (h : statement line ts = .error r) : IsSyntax r.cause := by
  rw [statement] at h
  dsimp only at h
  split at h
  · obtain h₁ | ⟨_, _, h₁⟩ := bind_error h
    · exact readExpr_refusal h₁
    · cases h₁
  · exact jump_refusal h
  · exact assignment_refusal h
  · exact assignment_refusal h
  · cases h
  · cases h
  · exact request_refusal h
  · cases h
    exact ⟨rfl, rfl⟩

lemma whole_refusal {line : Int} {ts : List Token} {r : Refusal} (h : whole line ts = .error r) :
    IsSyntax r.cause := by
  obtain h₁ | ⟨_, _, h₁⟩ := bind_error h
  · exact statement_refusal h₁
  · dsimp only at h₁
    split at h₁
    · cases h₁
    · cases h₁
      exact ⟨rfl, rfl⟩

def IsSyntaxFault (d : Diagnostic) (line : Int) : Prop :=
  d.category = .grammar ∧ d.message = "SYNTAX ERROR" ∧ d.line = some line

lemma parse_fault {ts : List Token} {d : Diagnostic} (h : parse ts = .error d) :
    IsSyntaxFault d (lineOf ts) := by
  rw [parse] at h
  split at h
  · cases h
  · rename_i r hw
    cases h
    obtain ⟨hc, hm⟩ := whole_refusal hw
    refine ⟨hc, ?_, rfl⟩
    change Text.upper r.cause.wording = _
    rw [hm]
    decide

def lengthen {α : Type} (more : List Token) : Parsed (α × List Token) → Parsed (α × List Token)
  | .ok (a, ts) => .ok (a, ts ++ more)
  | .error r => .error ⟨r.cause, r.rest ++ more⟩

def HasEnd (ts : List Token) : Prop := ∃ t ∈ ts, t.kind = .eof

lemma HasEnd.tail {t : Token} {ts : List Token} (h : HasEnd (t :: ts)) (ht : t.kind ≠ .eof) :
    HasEnd ts := by
  obtain ⟨u, hu, hk⟩ := h
  rcases List.mem_cons.mp hu with rfl | hu
  · exact (ht hk).elim
  · exact ⟨u, hu, hk⟩

/-- Reading stays before an end marker, and what stands behind one does not matter. -/
def Local {α : Type} (f : List Token → Parsed (α × List Token)) : Prop :=
  ∀ ts more, HasEnd ts →
    f (ts ++ more) = lengthen more (f ts) ∧ ∀ a us, f ts = .ok (a, us) → HasEnd us

lemma Local.bind {α β : Type} {f : List Token → Parsed (α × List Token)}
    {g : α → List Token → Parsed (β × List Token)} (hf : Local f) (hg : ∀ a, Local (g a)) :
    Local (fun ts => f ts >>= fun p => g p.1 p.2) := by
  intro ts more he
  obtain ⟨h₁, h₂⟩ := hf ts more he
  dsimp only
  rw [h₁]
  cases hts : f ts with
  | error r =>
    refine ⟨rfl, ?_⟩
    intro b us h
    cases h
  | ok p =>
    obtain ⟨a, us⟩ := p
    exact hg a us more (h₂ a us hts)

lemma Local.pure {α : Type} (a : α) : Local (fun ts => .ok (a, ts)) := by
  intro ts more he
  refine ⟨rfl, ?_⟩
  intro b us h
  cases h
  exact he

lemma productOperator?_eq_none {outer : List Pending} {k : Token.Kind}
    (h : ∀ op, productOperator? k = some op →
      (outer.isEmpty && Level.sum == Level.primary) = false → False) :
    productOperator? k = none := by
  cases hk : productOperator? k with
  | none => rfl
  | some op => exact (h op hk (by simp [sum_ne_primary])).elim

lemma sumOperator?_eq_none {outer : List Pending} {k : Token.Kind}
    (h : ∀ op, sumOperator? k = some op →
      (outer.isEmpty && Level.sum != Level.sum) = false → False) :
    sumOperator? k = none := by
  cases hk : sumOperator? k with
  | none => rfl
  | some op => exact (h op hk (by simp)).elim

lemma readExpr_stop {line : Int} {here : Pending} {t : Token} {ts : List Token} {e : Expr}
    (hp : productOperator? t.kind = none) (hs : sumOperator? t.kind = none) :
    readExpr line .sum (.operator e) here [] (t :: ts) = .ok (here.total e, t :: ts) := by
  simp [readExpr, hp, hs]

lemma readExpr_unclosed {line : Int} {here before : Pending} {outer : List Pending} {t : Token}
    {ts : List Token} {e : Expr} (hp : productOperator? t.kind = none)
    (hs : sumOperator? t.kind = none) (hk : t.kind ≠ .rightParen) :
    readExpr line .sum (.operator e) here (before :: outer) (t :: ts) =
      .error ⟨.expectedKind [.rightParen] t, t :: ts⟩ := by
  simp [readExpr, hp, hs, hk]

lemma readExpr_local (line : Int) (mode : Mode) (here : Pending) (outer : List Pending) :
    Local (readExpr line .sum mode here outer) := by
  intro ts more he
  fun_induction readExpr line .sum mode here outer ts with
  | case1 | case2 | case3 => simp [HasEnd] at he
  | case4 _ _ _ _ hk ih | case5 _ _ _ _ hk ih | case6 _ _ _ _ hk ih | case7 _ _ _ _ hk ih =>
    rw [List.cons_append, readExpr, hk]
    exact ih (he.tail (by simp [hk]))
  | case8 _ _ t ts h₁ h₂ h₃ h₄ =>
    refine ⟨?_, by simp⟩
    rw [List.cons_append, readExpr]
    split <;> simp_all [lengthen]
  | case9 _ _ t ts e op hl ho ih =>
    have ht := times_of_productOperator ho
    rw [List.cons_append, readExpr_times ht]
    exact ih (he.tail ht.ne_end)
  | case10 _ _ t ts e op hl ho hp ih =>
    have ht := plus_of_sumOperator ho
    rw [List.cons_append, readExpr_plus ht]
    exact ih (he.tail ht.ne_end)
  | case11 here t ts e hp hs =>
    rw [List.cons_append, readExpr_stop (productOperator?_eq_none hp) (sumOperator?_eq_none hs)]
    exact Local.pure (here.total e) (t :: ts) more he
  | case12 _ t _ _ _ _ hk _ _ ih =>
    rw [List.cons_append, readExpr_close hk]
    exact ih (he.tail (by simp [hk]))
  | case13 _ t _ _ _ _ hk hp hs =>
    rw [List.cons_append, readExpr_unclosed (productOperator?_eq_none hp) (sumOperator?_eq_none hs) hk]
    exact ⟨rfl, by simp⟩

lemma expect_local (line : Int) (kinds : List Token.Kind) (hk : .eof ∉ kinds) :
    Local (expect line kinds) := by
  intro ts more he
  cases ts with
  | nil => simp [HasEnd] at he
  | cons t ts =>
    by_cases ht : t.kind ∈ kinds
    · rw [List.cons_append, expect_cons ht, expect_cons ht]
      refine ⟨rfl, ?_⟩
      intro a us h
      cases h
      exact he.tail (fun h => hk (h ▸ ht))
    · simp [expect, ht, lengthen]

lemma Local.map {α β : Type} {f : List Token → Parsed (α × List Token)} (hf : Local f) (h : α → β) :
    Local (fun ts => f ts >>= fun p => .ok (h p.1, p.2)) :=
  hf.bind (g := fun a ts => .ok (h a, ts)) fun a => .pure (h a)

lemma expression_local (line : Int) : Local (expression line) := readExpr_local line .operand {} []

lemma jump_local (line : Int) : Local (jump line) := by
  have ht : ∀ t : Token, Local fun ts => ((target? t.literal).elim
      (.error ⟨.expectedTarget t, ts⟩) fun n => .ok (.goto n, ts) : Parsed (Stmt × List Token)) := by
    intro t ts more he
    cases target? t.literal with
    | some n => exact Local.pure _ ts more he
    | none => exact ⟨rfl, by simp⟩
  have hj : jump line = fun ts => expect line [.number] ts >>= fun p =>
      (target? p.1.literal).elim (.error ⟨.expectedTarget p.1, p.2⟩) fun n => .ok (.goto n, p.2) := by
    funext ts
    simp only [jump]
    congr 1
    funext p
    cases target? p.1.literal <;> rfl
  rw [hj]
  exact (expect_local line [.number] (by simp)).bind ht

lemma assignment_local (line : Int) : Local (assignment line) :=
  (expect_local line [.identifier] (by simp)).bind fun v =>
    (expect_local line [.equal] (by simp)).bind fun _ =>
      (expression_local line).map (Stmt.assign (.var v.lexeme))

lemma isBareTarget_append {line : Int} {ts : List Token} (more : List Token) (he : HasEnd ts) :
    isBareTarget line (ts ++ more) = isBareTarget line ts := by
  cases ts with
  | nil => simp [HasEnd] at he
  | cons t us =>
    by_cases ht : t.kind = .identifier
    · cases us with
      | nil => simp [HasEnd, ht] at he
      | cons => rfl
    · simp [isBareTarget, ht]

lemma prompt_local (line : Int) : Local (prompt line) := by
  intro ts more he
  simp only [prompt]
  rw [isBareTarget_append more he]
  split
  · exact Local.pure none ts more he
  · exact ((expression_local line).bind fun e =>
      (expect_local line [.comma, .semicolon] (by simp)).map fun _ => some e) ts more he

lemma request_local (line : Int) : Local (request line) :=
  (prompt_local line).bind fun p =>
    (expect_local line [.identifier] (by simp)).map fun v => Stmt.input p (.var v.lexeme)

lemma remark_local : Local fun ts => .ok (remark ts) := by
  intro ts more he
  cases ts with
  | nil => simp [HasEnd] at he
  | cons t ts =>
    by_cases ht : t.kind = .string
    · simp only [List.cons_append, remark, if_pos ht]
      exact Local.pure _ ts more (he.tail (by simp [ht]))
    · simp only [List.cons_append, remark, if_neg ht]
      exact Local.pure _ (t :: ts) more he

lemma statement_local (line : Int) : Local (statement line) := by
  intro ts more he
  cases ts with
  | nil => simp [HasEnd] at he
  | cons k ts =>
    simp only [List.cons_append, statement, current_cons, List.tail_cons]
    split
    · rename_i hk
      exact (expression_local line).map Stmt.print ts more (he.tail (by simp [hk]))
    · rename_i hk
      exact jump_local line ts more (he.tail (by simp [hk]))
    · rename_i hk
      exact assignment_local line ts more (he.tail (by simp [hk]))
    · exact assignment_local line (k :: ts) more he
    · rename_i hk
      exact remark_local ts more (he.tail (by simp [hk]))
    · rename_i hk
      exact Local.pure Stmt.cls ts more (he.tail (by simp [hk]))
    · rename_i hk
      exact request_local line ts more (he.tail (by simp [hk]))
    · exact ⟨rfl, by simp⟩

lemma whole_local (line : Int) : Local (whole line) := by
  have ht : ∀ s : Stmt, Local fun ts => if (current line ts).kind = .eof
      then (.ok (s, ts) : Parsed (Stmt × List Token)) else .error ⟨.trailing (current line ts), ts⟩ := by
    intro s ts more he
    cases ts with
    | nil => simp [HasEnd] at he
    | cons t ts =>
      have hc : current line (t :: ts ++ more) = current line (t :: ts) := rfl
      dsimp only
      rw [hc]
      by_cases hk : (current line (t :: ts)).kind = .eof
      · simp only [if_pos hk]
        exact Local.pure s (t :: ts) more he
      · simp only [if_neg hk]
        exact ⟨rfl, by simp⟩
  exact (statement_local line).bind ht

lemma parse_append {ts : List Token} (more : List Token) (h : HasEnd ts) :
    parse (ts ++ more) = parse ts := by
  have hl : lineOf (ts ++ more) = lineOf ts := by
    cases ts with
    | nil => simp [HasEnd] at h
    | cons => rfl
  simp only [parse]
  rw [hl, (whole_local (lineOf ts) ts more h).1]
  cases whole (lineOf ts) ts <;> rfl

lemma parse_eq_or {ts ts' : List Token} (hb : body ts = body ts') (hl : lineOf ts = lineOf ts') :
    (∃ s, parse ts = .ok s ∧ parse ts' = .ok s) ∨
      ∃ d d', parse ts = .error d ∧ parse ts' = .error d' ∧ IsSyntaxFault d (lineOf ts) ∧
        IsSyntaxFault d' (lineOf ts) := by
  cases h : parse ts with
  | ok s => exact .inl ⟨s, rfl, parse_ok_iff.mpr (hb ▸ parse_ok_iff.mp h)⟩
  | error d =>
    cases h' : parse ts' with
    | ok s => cases h.symm.trans (parse_ok_iff.mpr (hb ▸ parse_ok_iff.mp h'))
    | error d' => exact .inr ⟨d, d', rfl, rfl, parse_fault h, hl ▸ parse_fault h'⟩

lemma Sentence.unique {ts : List Token} {s s' : Stmt} (h : Sentence ts s) (h' : Sentence ts s') :
    s = s' := by
  have hb : body ts = ts := body_of_no_end h.no_end
  rw [← hb] at h h'
  exact Except.ok.inj ((parse_ok_iff.mpr h).symm.trans (parse_ok_iff.mpr h'))

/-- A row of tokens is read as the one tree that the grammar derives for what stands before its end
marker, whose operators are layered, and is refused as a whole if there is none. -/
theorem parse_decides_grammar (ts : List Token) :
    (∀ s, parse ts = .ok s ↔ Sentence (body ts) s) ∧
    (∀ s, Sentence (body ts) s → StmtLayered s ∧ ∀ s', Sentence (body ts) s' → s' = s) ∧
    (∀ d, parse ts = .error d → IsSyntaxFault d (lineOf ts)) ∧
    (∀ t more more', t.kind = .eof → parse (body ts ++ t :: more) = parse (body ts ++ t :: more')) ∧
    (body ts ≠ [] → ∀ t more, t.kind = .eof →
      (∃ s, parse (body ts) = .ok s ∧ parse (body ts ++ t :: more) = .ok s) ∨
      ∃ d d', parse (body ts) = .error d ∧ parse (body ts ++ t :: more) = .error d' ∧
        IsSyntaxFault d (lineOf (body ts)) ∧ IsSyntaxFault d' (lineOf (body ts))) := by
  refine ⟨fun s => parse_ok_iff, fun s hs => ⟨hs.layered, fun s' hs' => hs'.unique hs⟩,
    fun d => parse_fault, ?_, ?_⟩
  · intro t more more' ht
    have he : HasEnd (body ts ++ [t]) := ⟨t, by simp, ht⟩
    have hm := parse_append more he
    have hm' := parse_append more' he
    rw [List.append_assoc] at hm hm'
    exact hm.trans hm'.symm
  · intro hn t more ht
    have hb : body (body ts) = body ts := body_of_no_end body_no_end
    have hl : lineOf (body ts) = lineOf (body ts ++ t :: more) := by
      cases hts : body ts with
      | nil => exact (hn hts).elim
      | cons => rfl
    have ht : Ends (t :: more) := ht
    exact parse_eq_or (hb.trans (body_append body_no_end ht).symm) hl

end LineBasic.Grammar
