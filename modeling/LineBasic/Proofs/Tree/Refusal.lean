import LineBasic.Proofs.Tree.Parsing
import Mathlib.Computability.Language

/-! Refusals. A refused row of tokens is a beginning of a line up to the token that the refusal names,
and with that token it is none. -/

namespace LineBasic

def Cause.got? : Cause → Option Token
  | expectedKind _ t | expectedExpression t | expectedTarget t | unknownStatement t | trailing t => some t
  | _ => none

lemma Cause.detail?_of_got? {c : Cause} {t : Token} (h : c.got? = some t) :
    ∃ words, c.detail? = some (words ++ t.listed) := by
  cases c with
  | expectedKind | expectedExpression | expectedTarget | unknownStatement | trailing =>
    cases h
    exact ⟨_, rfl⟩
  | _ => cases h

namespace Grammar

open Parse

variable {α β : Type} {line : Int}

/-- Reading fails behind `front`, on a token that makes it fail whatever comes next. -/
structure StopsAt (line : Int) (f : List Token → Parsed (α × List Token)) (ts : List Token) (r : Refusal)
    (front : List Token) : Prop where
  named : ∃ rest, ts = front ++ rest ∧ r.cause.got? = some (current line rest)
  firm : ∀ t rest, ts = front ++ t :: rest → ∀ more, ∃ r', f (front ++ t :: more) = .error r'

/-- Reading takes `us` off, before any rest that begins like the one that was found. -/
def Takes (f : List Token → Parsed (α × List Token)) (us rest : List Token) (a : α) : Prop :=
  ∀ more, more.head? = rest.head? → f (us ++ more) = .ok (a, more)

/-- What is read is a word of the language, and what is passed before a failure begins one. -/
structure Sharp (line : Int) (f : List Token → Parsed (α × List Token)) (L : Language Token) : Prop where
  takes : ∀ {ts rest a}, f ts = .ok (a, rest) → ∃ us ∈ L, ts = us ++ rest ∧ Takes f us rest a
  stops : ∀ {ts r}, f ts = .error r → ∃ front, StopsAt line f ts r front ∧ ∃ back, front ++ back ∈ L

section Sharp

variable {f : List Token → Parsed (α × List Token)} {g : α → List Token → Parsed (β × List Token)}
  {L M : Language Token} {ts us rest front : List Token} {r : Refusal} {a : α}

lemma StopsAt.cons {f' : List Token → Parsed (α × List Token)} {t : Token} (h : StopsAt line f' ts r front)
    (he : ∀ more, f (t :: more) = f' more) : StopsAt line f (t :: ts) r (t :: front) := by
  obtain ⟨rest, rfl, hn⟩ := h.named
  refine ⟨⟨rest, rfl, hn⟩, fun u rest' hu more => ?_⟩
  rw [List.cons_append, he]
  exact h.firm u rest' (List.cons.inj hu).2 more

lemma StopsAt.bind_left (h : StopsAt line f ts r front) :
    StopsAt line (fun ts => f ts >>= fun p => g p.1 p.2) ts r front := by
  refine ⟨h.named, fun t rest ht more => ?_⟩
  obtain ⟨r', hr⟩ := h.firm t rest ht more
  exact ⟨r', by rw [hr]; rfl⟩

lemma StopsAt.bind_right (hf : Takes f us rest a) (h : StopsAt line (g a) rest r front) :
    StopsAt line (fun ts => f ts >>= fun p => g p.1 p.2) (us ++ rest) r (us ++ front) := by
  obtain ⟨rest', rfl, hn⟩ := h.named
  refine ⟨⟨rest', by simp, hn⟩, fun t back ht more => ?_⟩
  rw [List.append_assoc] at ht
  have hb := List.append_cancel_left ht
  obtain ⟨r', hr⟩ := h.firm t back hb more
  -- The first part reads the same: the rest that it leaves begins with the same token.
  have hh : (front ++ t :: more).head? = (front ++ rest').head? := by
    rw [hb]
    cases front <;> rfl
  rw [List.append_assoc, hf _ hh]
  exact ⟨r', hr⟩

lemma Sharp.pure (a : α) : Sharp line (fun ts => .ok (a, ts)) 1 where
  takes h := by
    cases h
    exact ⟨[], rfl, rfl, fun _ _ => rfl⟩
  stops h := by cases h

lemma Sharp.bind (hf : Sharp line f L) (hg : ∀ a, Sharp line (g a) M) (hm : ∃ ws, ws ∈ M) :
    Sharp line (fun ts => f ts >>= fun p => g p.1 p.2) (L * M) where
  takes h := by
    obtain ⟨⟨a, rest'⟩, ha, h₁⟩ := bind_ok h
    obtain ⟨us, hu, rfl, ht⟩ := hf.takes ha
    obtain ⟨vs, hv, rfl, ht'⟩ := (hg a).takes h₁
    refine ⟨us ++ vs, Language.mem_mul.mpr ⟨us, hu, vs, hv, rfl⟩, by simp, fun more hh => ?_⟩
    dsimp only
    rw [List.append_assoc, ht (vs ++ more) (by rw [List.head?_append, hh, List.head?_append])]
    exact ht' more hh
  stops h := by
    obtain h₁ | ⟨⟨a, rest⟩, ha, h₁⟩ := bind_error h
    · obtain ⟨front, hs, back, hb⟩ := hf.stops h₁
      obtain ⟨ws, hw⟩ := hm
      refine ⟨front, hs.bind_left, back ++ ws, ?_⟩
      rw [← List.append_assoc]
      exact Language.mem_mul.mpr ⟨_, hb, ws, hw, rfl⟩
    · obtain ⟨us, hu, rfl, ht⟩ := hf.takes ha
      obtain ⟨front, hs, back, hb⟩ := (hg a).stops h₁
      refine ⟨us ++ front, hs.bind_right ht, back, ?_⟩
      rw [List.append_assoc]
      exact Language.mem_mul.mpr ⟨us, hu, _, hb, rfl⟩

lemma Sharp.map (hf : Sharp line f L) (h : α → β) :
    Sharp line (fun ts => f ts >>= fun p => .ok (h p.1, p.2)) L := by
  have hb := hf.bind (g := fun a ts => .ok (h a, ts)) (fun a => .pure (h a)) ⟨[], rfl⟩
  rwa [mul_one] at hb

end Sharp

def sample (k : Token.Kind) : Token := ⟨k, "", .number 1.0, 0, 0⟩

def only (kinds : List Token.Kind) : Language Token := {ts | ∃ t : Token, t.kind ∈ kinds ∧ ts = [t]}

def sums : Language Token := {ts | ∃ e, Derives .sum ts e}

lemma sample_mem_only {k : Token.Kind} {kinds : List Token.Kind} (h : k ∈ kinds) :
    [sample k] ∈ only kinds := ⟨sample k, h, rfl⟩

lemma sample_mem_sums : [sample .number] ∈ sums := ⟨_, .term (.factor (.number rfl))⟩

lemma expect_stopsAt {kinds : List Token.Kind} {ts : List Token} {r : Refusal}
    (h : expect line kinds ts = .error r) : StopsAt line (expect line kinds) ts r [] := by
  rw [expect] at h
  split at h
  · cases h
  · rename_i hm
    cases h
    refine ⟨⟨ts, rfl, rfl⟩, ?_⟩
    rintro t rest rfl more
    exact ⟨_, if_neg hm⟩

lemma expect_sharp {kinds : List Token.Kind} (he : .eof ∉ kinds) (hk : kinds ≠ []) :
    Sharp line (expect line kinds) (only kinds) where
  takes h := by
    obtain ⟨hm, rfl⟩ := expect_ok he h
    exact ⟨_, ⟨_, hm, rfl⟩, rfl, fun more _ => expect_cons hm⟩
  stops h := by
    obtain ⟨k, ks, rfl⟩ := List.exists_cons_of_ne_nil hk
    exact ⟨[], expect_stopsAt h, [sample k], sample_mem_only List.mem_cons_self⟩

lemma Read.closes {ts : List Token} {e : Expr} {here : Pending} {outer : List Pending}
    (h : Read ts (.operator e) here outer) : ∃ back, ts ++ back ∈ sums := by
  induction outer generalizing ts e here with
  | nil => exact ⟨[], _, by simpa using h.whole⟩
  | cons before outer ih =>
    obtain ⟨back, hb⟩ := ih (h.close (t := sample .rightParen) rfl)
    exact ⟨sample .rightParen :: back, by simpa using hb⟩

lemma Read.completes {ts : List Token} {mode : Mode} {here : Pending} {outer : List Pending}
    (h : Read ts mode here outer) : ∃ back, ts ++ back ∈ sums := by
  cases mode with
  | operator e => exact h.closes
  | operand =>
    obtain ⟨back, hb⟩ := (h.primary (t := sample .number) (.number rfl)).closes
    exact ⟨sample .number :: back, by simpa using hb⟩

/-- Reading on behind `us` fails, where what was passed can still become an expression. -/
def Falters (line : Int) (us : List Token) (f : List Token → Parsed (Expr × List Token)) (ts : List Token)
    (r : Refusal) : Prop :=
  ∃ front, StopsAt line f ts r front ∧ ∃ back, us ++ front ++ back ∈ sums

section Falters

variable {f f' : List Token → Parsed (Expr × List Token)} {ts us : List Token} {t : Token} {r : Refusal}

lemma Falters.cons (h : Falters line (us ++ [t]) f' ts r) (he : ∀ more, f (t :: more) = f' more) :
    Falters line us f (t :: ts) r := by
  obtain ⟨front, hs, back, hb⟩ := h
  exact ⟨t :: front, hs.cons he, back, by simpa using hb⟩

lemma Read.falters {mode : Mode} {here : Pending} {outer : List Pending} (h : Read us mode here outer)
    (hn : r.cause.got? = some (current line ts))
    (hf : ∀ t rest, ts = t :: rest → ∀ more, ∃ r', f (t :: more) = .error r') :
    Falters line us f ts r := by
  obtain ⟨back, hb⟩ := h.completes
  exact ⟨[], ⟨⟨ts, rfl, hn⟩, hf⟩, back, by simpa using hb⟩

end Falters

lemma readExpr_falters {mode : Mode} {here : Pending} {outer : List Pending} {ts us : List Token}
    {r : Refusal} (hr : Read us mode here outer)
    (h : readExpr line .sum mode here outer ts = .error r) :
    Falters line us (readExpr line .sum mode here outer) ts r := by
  fun_induction readExpr line .sum mode here outer ts generalizing us with
  | case1 | case3 =>
    cases h
    exact hr.falters rfl (by simp)
  | case2 | case11 => cases h
  | case4 here outer t ts hk ih =>
    exact (ih (hr.primary (.string hk)) h).cons fun more => by rw [readExpr, hk]
  | case5 here outer t ts hk ih =>
    exact (ih (hr.primary (.number hk)) h).cons fun more => by rw [readExpr, hk]
  | case6 here outer t ts hk ih =>
    exact (ih (hr.primary (.name hk)) h).cons fun more => by rw [readExpr, hk]
  | case7 here outer t ts hk ih =>
    exact (ih (hr.open hk) h).cons fun more => by rw [readExpr, hk]
  | case8 here outer t ts h₁ h₂ h₃ h₄ =>
    cases h
    refine hr.falters rfl ?_
    rintro t rest ⟨⟩ more
    refine ⟨⟨.expectedExpression t, t :: more⟩, ?_⟩
    rw [readExpr]
    split <;> simp_all
  | case9 here outer t ts e op hl ho ih =>
    have ht := times_of_productOperator ho
    exact (ih (hr.times ht) h).cons fun more => readExpr_times ht
  | case10 here outer t ts e op hl ho hp ih =>
    have ht := plus_of_sumOperator ho
    exact (ih (hr.plus ht) h).cons fun more => readExpr_plus ht
  | case12 here t ts e before outer hk hp hs ih =>
    exact (ih (hr.close hk) h).cons fun more => readExpr_close hk
  | case13 here t ts e before outer hk hp hs =>
    cases h
    refine hr.falters rfl ?_
    rintro t rest ⟨⟩ more
    exact ⟨_, readExpr_unclosed (productOperator?_eq_none hp) (sumOperator?_eq_none hs) hk⟩

lemma readExpr_stops {mode : Mode} {here : Pending} {outer : List Pending} {ts rest : List Token}
    {e : Expr} (h : readExpr line .sum mode here outer ts = .ok (e, rest)) : Stops rest := by
  fun_induction readExpr line .sum mode here outer ts with
  | case1 | case3 | case8 | case13 => cases h
  | case2 =>
    cases h
    trivial
  | case11 here t ts e hp hs =>
    cases h
    exact ⟨productOperator?_eq_none hp, sumOperator?_eq_none hs⟩
  | case4 _ _ _ _ _ ih | case5 _ _ _ _ _ ih | case6 _ _ _ _ _ ih | case7 _ _ _ _ _ ih => exact ih h
  | case9 _ _ _ _ _ _ _ _ ih | case10 _ _ _ _ _ _ _ _ _ ih | case12 _ _ _ _ _ _ _ _ _ ih => exact ih h

lemma Stops.of_head? {ts us : List Token} (h : Stops ts) (he : us.head? = ts.head?) : Stops us := by
  cases us with
  | nil => trivial
  | cons u us =>
    cases ts with
    | nil => cases he
    | cons t ts =>
      cases he
      exact h

lemma expression_sharp (line : Int) : Sharp line (expression line) sums where
  takes h := by
    obtain ⟨us, rfl, hd⟩ := expression_sound h
    refine ⟨us, ⟨_, hd⟩, rfl, fun more hh => ?_⟩
    exact expression_complete hd ((readExpr_stops h).of_head? hh)
  stops h := by
    obtain ⟨front, hs, back, hb⟩ := readExpr_falters read_nil h
    exact ⟨front, hs, back, by simpa using hb⟩

def targets : Language Token :=
  {ts | ∃ t : Token, t.kind = .number ∧ (∃ n, target? t.literal = some n) ∧ ts = [t]}

lemma sample_mem_targets : [sample .number] ∈ targets :=
  ⟨sample .number, rfl, ⟨1, by decide +kernel⟩, rfl⟩

lemma jump_cons {t : Token} (ht : t.kind = .number) (ts : List Token) : jump line (t :: ts) =
    match target? t.literal with
    | some n => .ok (.goto n, ts)
    | none => .error ⟨.expectedTarget t, ts⟩ := by
  rw [jump, expect_cons (by simp [ht])]
  rfl

lemma jump_sharp (line : Int) : Sharp line (jump line) targets where
  takes := by
    intro ts rest s h
    obtain ⟨⟨t, us⟩, ht, -⟩ := bind_ok h
    obtain ⟨hm, rfl⟩ := expect_ok (by simp) ht
    have hk : t.kind = .number := by simpa using hm
    rw [jump_cons hk] at h
    cases hv : target? t.literal with
    | none =>
      rw [hv] at h
      cases h
    | some n =>
      rw [hv] at h
      cases h
      refine ⟨[t], ⟨t, hk, ⟨n, hv⟩, rfl⟩, rfl, fun more _ => ?_⟩
      rw [List.singleton_append, jump_cons hk, hv]
  stops := by
    intro ts r h
    refine ⟨[], ?_, [sample .number], sample_mem_targets⟩
    obtain h₁ | ⟨⟨t, us⟩, ht, -⟩ := bind_error h
    · exact (expect_stopsAt h₁).bind_left (g := fun t ts => match target? t.literal with
        | some n => .ok (Stmt.goto n, ts)
        | none => .error ⟨.expectedTarget t, ts⟩)
    · obtain ⟨hm, rfl⟩ := expect_ok (by simp) ht
      have hk : t.kind = .number := by simpa using hm
      rw [jump_cons hk] at h
      cases hv : target? t.literal with
      | some n =>
        rw [hv] at h
        cases h
      | none =>
        rw [hv] at h
        cases h
        refine ⟨⟨t :: us, rfl, rfl⟩, ?_⟩
        rintro t rest ⟨⟩ more
        exact ⟨⟨.expectedTarget t, more⟩, by rw [List.nil_append, jump_cons hk, hv]⟩

lemma remark_sharp (line : Int) : Sharp line (fun ts => .ok (remark ts)) (1 + only [.string]) where
  takes := by
    intro ts rest s h
    cases ts with
    | nil =>
      cases h
      refine ⟨[], .inl rfl, rfl, fun more hh => ?_⟩
      obtain rfl : more = [] := List.head?_eq_none_iff.mp hh
      rfl
    | cons t ts =>
      by_cases ht : t.kind = .string
      · rw [remark, if_pos ht] at h
        cases h
        refine ⟨[t], .inr ⟨t, by simp [ht], rfl⟩, rfl, fun more _ => ?_⟩
        dsimp only
        rw [List.singleton_append, remark, if_pos ht]
      · rw [remark, if_neg ht] at h
        cases h
        refine ⟨[], .inl rfl, rfl, fun more hh => ?_⟩
        obtain ⟨us, rfl⟩ : ∃ us, more = t :: us := List.head?_eq_some_iff.mp hh
        dsimp only
        rw [List.nil_append, remark, if_neg ht]
  stops h := by cases h

def assigned (line : Int) (v : Token) (ts : List Token) : Parsed (Stmt × List Token) :=
  expect line [.equal] ts >>= fun q => expression line q.2 >>= fun p =>
    .ok (.assign (.var v.lexeme) p.1, p.2)

lemma assigned_sharp (line : Int) (v : Token) : Sharp line (assigned line v) (only [.equal] * sums) :=
  (expect_sharp (by simp) (by simp)).bind (fun _ =>
    (expression_sharp line).map (Stmt.assign (.var v.lexeme))) ⟨_, sample_mem_sums⟩

lemma assignment_sharp (line : Int) :
    Sharp line (assignment line) (only [.identifier] * (only [.equal] * sums)) := by
  have hs : [sample .equal] ++ [sample .number] ∈ only [.equal] * sums :=
    Language.mem_mul.mpr ⟨_, sample_mem_only List.mem_cons_self, _, sample_mem_sums, rfl⟩
  exact (expect_sharp (by simp) (by simp)).bind (fun v => assigned_sharp line v) ⟨_, hs⟩

lemma assignment_cons {v : Token} (hv : v.kind = .identifier) (ts : List Token) :
    assignment line (v :: ts) = assigned line v ts := by
  rw [assignment, expect_cons (by simp [hv])]
  rfl

def prompted (line : Int) (ts : List Token) : Parsed (Stmt × List Token) :=
  expression line ts >>= fun p => expect line [.comma, .semicolon] p.2 >>= fun q =>
    expect line [.identifier] q.2 >>= fun v => .ok (.input (some p.1) (.var v.1.lexeme), v.2)

def prompts : Language Token := sums * (only [.comma, .semicolon] * only [.identifier])

lemma prompted_sharp (line : Int) : Sharp line (prompted line) prompts := by
  have hm : [sample .comma] ++ [sample .identifier] ∈ only [.comma, .semicolon] * only [.identifier] :=
    Language.mem_mul.mpr ⟨_, sample_mem_only (by simp), _, sample_mem_only (by simp), rfl⟩
  exact (expression_sharp line).bind (fun e =>
    (expect_sharp (by simp) (by simp)).bind (fun _ =>
      (expect_sharp (by simp) (by simp)).map fun v => Stmt.input (some e) (.var v.lexeme))
        ⟨_, sample_mem_only List.mem_cons_self⟩) ⟨_, hm⟩

lemma mem_prompts {ts : List Token} : ts ∈ prompts ↔ ∃ us m v e, ts = us ++ [m, v] ∧ Derives .sum us e ∧
    (m.kind = .comma ∨ m.kind = .semicolon) ∧ v.kind = .identifier := by
  constructor
  · intro h
    obtain ⟨us, ⟨e, he⟩, _, hb, rfl⟩ := Language.mem_mul.mp h
    obtain ⟨_, ⟨m, hm, rfl⟩, _, ⟨v, hv, rfl⟩, rfl⟩ := Language.mem_mul.mp hb
    exact ⟨us, m, v, e, rfl, he, by simpa using hm, by simpa using hv⟩
  · rintro ⟨us, m, v, e, rfl, he, hm, hv⟩
    refine Language.mem_mul.mpr ⟨us, ⟨e, he⟩, [m] ++ [v], ?_, rfl⟩
    exact Language.mem_mul.mpr ⟨[m], ⟨m, by simpa using hm, rfl⟩, [v], ⟨v, by simpa using hv, rfl⟩, rfl⟩

lemma request_eq {ts : List Token} (h : isBareTarget line ts = false) :
    request line ts = prompted line ts := by
  rw [request, prompt, h, prompted]
  cases expression line ts with
  | error r => rfl
  | ok p => cases hm : expect line [.comma, .semicolon] p.2 <;> simp [hm, bind, Except.bind, pure, Except.pure]

lemma isBareTarget_iff {ts : List Token} : isBareTarget line ts = true ↔
    ∃ v rest, ts = v :: rest ∧ v.kind = .identifier ∧ Ends rest := by
  constructor
  · intro h
    cases ts with
    | nil => cases h
    | cons v rest =>
      rw [isBareTarget, Bool.and_eq_true, decide_eq_true_eq, decide_eq_true_eq] at h
      exact ⟨v, rest, rfl, h.1, ends_iff.mpr h.2⟩
  · rintro ⟨v, rest, rfl, hv, hr⟩
    simp [isBareTarget, hv, ends_iff.mp hr]

lemma Ends.of_head? {ts us : List Token} (h : Ends ts) (he : us.head? = ts.head?) : Ends us := by
  cases us with
  | nil => trivial
  | cons u us =>
    cases ts with
    | nil => cases he
    | cons t ts =>
      cases he
      exact h

/-- A row of tokens is read as `Sharp` says, unless it ends behind what is read. -/
structure Keen (line : Int) (f : List Token → Parsed (α × List Token)) (L : Language Token)
    (ts : List Token) : Prop where
  takes : ∀ {rest a}, f ts = .ok (a, rest) → ¬ Ends rest → ∃ us ∈ L, ts = us ++ rest ∧ Takes f us rest a
  stops : ∀ {r}, f ts = .error r → ∃ front, StopsAt line f ts r front ∧ ∃ back, front ++ back ∈ L

lemma Sharp.keen {f : List Token → Parsed (α × List Token)} {L : Language Token} (h : Sharp line f L)
    (ts : List Token) : Keen line f L ts := ⟨fun hx _ => h.takes hx, h.stops⟩

lemma Keen.cons {f g : List Token → Parsed (α × List Token)} {L M : Language Token} {k : Token}
    {ts : List Token} (h : Keen line g L ts) (he : ∀ more, f (k :: more) = g more)
    (hl : ∀ us ∈ L, k :: us ∈ M) : Keen line f M (k :: ts) where
  takes hx hr := by
    rw [he] at hx
    obtain ⟨us, hu, rfl, ht⟩ := h.takes hx hr
    refine ⟨k :: us, hl us hu, rfl, fun more hh => ?_⟩
    rw [List.cons_append, he, ht more hh]
  stops hx := by
    rw [he] at hx
    obtain ⟨front, hs, back, hb⟩ := h.stops hx
    exact ⟨k :: front, hs.cons he, back, hl _ hb⟩

lemma request_keen (line : Int) (ts : List Token) : Keen line (request line) prompts ts where
  takes hx hr := by
    have hb : isBareTarget line ts = false := by
      rw [Bool.eq_false_iff]
      intro hb
      obtain ⟨v, us, rfl, hv, he⟩ := isBareTarget_iff.mp hb
      rw [request_bare hv he] at hx
      cases hx
      exact hr he
    rw [request_eq hb] at hx
    obtain ⟨us, hu, rfl, ht⟩ := (prompted_sharp line).takes hx
    refine ⟨us, hu, rfl, fun more hh => ?_⟩
    obtain ⟨as, m, v, e, rfl, he, hm, -⟩ := mem_prompts.mp hu
    have hn : isBareTarget line (as ++ [m, v] ++ more) = false := by
      rw [List.append_assoc]
      exact not_isBareTarget he hm
    rw [request_eq hn, ht more hh]
  stops hx := by
    have hb : isBareTarget line ts = false := by
      rw [Bool.eq_false_iff]
      intro hb
      obtain ⟨v, us, rfl, hv, he⟩ := isBareTarget_iff.mp hb
      rw [request_bare hv he] at hx
      cases hx
    rw [request_eq hb] at hx
    obtain ⟨front, hs, hback⟩ := (prompted_sharp line).stops hx
    refine ⟨front, ⟨hs.named, fun t rest ht more => ?_⟩, hback⟩
    have hn : isBareTarget line (front ++ t :: more) = false := by
      rw [Bool.eq_false_iff]
      intro hn
      obtain ⟨v, us, hu, hv, he⟩ := isBareTarget_iff.mp hn
      -- A single name cannot be refused, and behind one the next token shows whether there is more.
      cases front with
      | nil =>
        obtain ⟨rfl, -⟩ := List.cons.inj hu
        have hd : Derives .sum [t] (.var t.lexeme) := .term (.factor (.name hv))
        obtain ⟨r', hr⟩ := hs.firm t rest ht [sample .comma, sample .identifier]
        have hc : request line ([t] ++ [sample .comma, sample .identifier]) =
            .ok (.input (some (.var t.lexeme)) (.var ""), []) := request_complete hd (.inl rfl) rfl
        rw [request_eq (not_isBareTarget hd (.inl rfl))] at hc
        cases hr.symm.trans hc
      | cons k front =>
        obtain ⟨rfl, rfl⟩ := List.cons.inj hu
        have hbare : isBareTarget line ts = true := by
          refine isBareTarget_iff.mpr ⟨k, front ++ t :: rest, ht, hv, he.of_head? ?_⟩
          cases front <;> rfl
        cases hb.symm.trans hbare
    rw [request_eq hn]
    exact hs.firm t rest ht more

def sentences : Language Token := {ts | ∃ s, Sentence ts s}

lemma exists_of_mem_equal_mul_sums {ts : List Token} (h : ts ∈ only [.equal] * sums) :
    ∃ q us e, ts = q :: us ∧ q.kind = .equal ∧ Derives .sum us e := by
  obtain ⟨_, ⟨q, hq, rfl⟩, us, ⟨e, he⟩, rfl⟩ := Language.mem_mul.mp h
  exact ⟨q, us, e, rfl, by simpa using hq, he⟩

lemma statement_keen (line : Int) (ts : List Token) : Keen line (statement line) sentences ts := by
  cases ts with
  | nil =>
    refine ⟨by simp [statement, current, Token.endMarker], fun hx => ?_⟩
    cases hx
    exact ⟨[], ⟨⟨[], rfl, rfl⟩, by simp⟩, [sample .cls], _, .cls rfl⟩
  | cons k ts =>
    cases hk : k.kind with
    | print =>
      refine (((expression_sharp line).map Stmt.print).keen ts).cons (fun more => ?_) ?_
      · simp only [statement, current_cons, hk, List.tail_cons]
        rfl
      · rintro us ⟨e, he⟩
        exact ⟨_, .print hk he⟩
    | goto =>
      refine ((jump_sharp line).keen ts).cons (fun more => ?_) ?_
      · simp only [statement, current_cons, hk, List.tail_cons]
      · rintro us ⟨t, ht, ⟨n, hn⟩, rfl⟩
        obtain ⟨x, hx, hi, hp⟩ := target?_eq_some.mp hn
        exact ⟨_, .goto hk ht hx hi hp⟩
    | «let» =>
      refine ((assignment_sharp line).keen ts).cons (fun more => ?_) ?_
      · simp only [statement, current_cons, hk, List.tail_cons]
      · intro us hu
        obtain ⟨_, ⟨v, hv, rfl⟩, vs, hvs, rfl⟩ := Language.mem_mul.mp hu
        obtain ⟨q, as, e, rfl, hq, he⟩ := exists_of_mem_equal_mul_sums hvs
        exact ⟨_, .letAssign hk (by simpa using hv) hq he⟩
    | identifier =>
      refine ((assigned_sharp line k).keen ts).cons (fun more => ?_) ?_
      · simp only [statement, current_cons, hk]
        exact assignment_cons hk more
      · intro us hu
        obtain ⟨q, as, e, rfl, hq, he⟩ := exists_of_mem_equal_mul_sums hu
        exact ⟨_, .assign hk hq he⟩
    | rem =>
      refine ((remark_sharp line).keen ts).cons (fun more => ?_) ?_
      · simp only [statement, current_cons, hk, List.tail_cons]
      · rintro us (hu | ⟨t, ht, rfl⟩)
        · obtain rfl := hu
          exact ⟨_, .rem hk⟩
        · exact ⟨_, .remark hk (by simpa using ht)⟩
    | cls =>
      refine ((Sharp.pure Stmt.cls).keen ts).cons (fun more => ?_) ?_
      · simp only [statement, current_cons, hk, List.tail_cons]
      · rintro us rfl
        exact ⟨_, .cls hk⟩
    | input =>
      refine (request_keen line ts).cons (fun more => ?_) ?_
      · simp only [statement, current_cons, hk, List.tail_cons]
      · intro us hu
        obtain ⟨as, m, v, e, rfl, he, hm, hv⟩ := mem_prompts.mp hu
        exact ⟨_, .prompt hk he hm hv⟩
    | _ =>
      have he (more : List Token) : statement line (k :: more) = .error ⟨.unknownStatement k, k :: more⟩ := by
        simp [statement, hk]
      refine ⟨by simp [he], fun hx => ?_⟩
      rw [he] at hx
      cases hx
      refine ⟨[], ⟨⟨k :: ts, rfl, rfl⟩, ?_⟩, [sample .cls], _, .cls rfl⟩
      rintro t rest ⟨⟩ more
      exact ⟨_, he more⟩

def concluded (line : Int) (s : Stmt) (ts : List Token) : Parsed (Stmt × List Token) :=
  if (current line ts).kind = .eof then .ok (s, ts) else .error ⟨.trailing (current line ts), ts⟩

lemma concluded_stopsAt {s : Stmt} {ts : List Token} (h : ¬ Ends ts) :
    StopsAt line (concluded line s) ts ⟨.trailing (current line ts), ts⟩ [] := by
  refine ⟨⟨ts, rfl, rfl⟩, ?_⟩
  rintro t rest rfl more
  exact ⟨_, if_neg h⟩

lemma whole_stops {ts : List Token} {r : Refusal} (h : whole line ts = .error r) :
    ∃ front, StopsAt line (whole line) ts r front ∧ ∃ back, front ++ back ∈ sentences := by
  obtain h₁ | ⟨⟨s, rest⟩, hs, h₁⟩ := bind_error h
  · obtain ⟨front, hf, hb⟩ := (statement_keen line ts).stops h₁
    exact ⟨front, hf.bind_left (g := concluded line), hb⟩
  · dsimp only at h₁
    split at h₁
    · cases h₁
    · rename_i he
      cases h₁
      have hr : ¬ Ends rest := ends_iff.not.mpr he
      obtain ⟨us, hu, rfl, ht⟩ := (statement_keen line ts).takes hs hr
      exact ⟨us ++ [], (concluded_stopsAt hr).bind_right ht, [], by simpa using hu⟩

/-- The tokens of a line with the end marker that is found, or supposed, behind them. -/
def row (ts : List Token) : List Token :=
  body ts ++ [current (lineOf ts) (ts.drop (body ts).length)]

lemma body_append_left {front : List Token} (hf : ∀ t ∈ front, t.kind ≠ .eof) (rest : List Token) :
    body (front ++ rest) = front ++ body rest :=
  List.takeWhile_append_of_pos (by simpa using hf)

lemma body_cons {t : Token} (ht : t.kind ≠ .eof) (ts : List Token) : body (t :: ts) = t :: body ts :=
  List.takeWhile_cons_of_pos (by simpa using ht)

lemma body_of_ends {ts : List Token} (h : Ends ts) : body ts = [] := by
  have hnil : ∀ t ∈ ([] : List Token), t.kind ≠ .eof := by simp
  exact body_append hnil h

lemma row_eq {front : List Token} (hf : ∀ t ∈ front, t.kind ≠ .eof) (rest : List Token) :
    ∃ back, row (front ++ rest) = front ++ current (lineOf (front ++ rest)) rest :: back := by
  have hr : row (front ++ rest) = front ++ (body rest ++
      [current (lineOf (front ++ rest)) (rest.drop (body rest).length)]) := by
    rw [row, body_append_left hf, List.length_append, List.drop_length_add_append, List.append_assoc]
  rw [hr]
  by_cases he : Ends rest
  · exact ⟨[], by simp [body_of_ends he]⟩
  · cases rest with
    | nil => exact absurd trivial he
    | cons t rest => exact ⟨_, by rw [body_cons he, List.cons_append]; rfl⟩

def Begins (ts : List Token) : Prop := ∃ us s, Sentence us s ∧ ts <+: us

def BeginsMarked (ts : List Token) : Prop := ∃ us s t, Sentence us s ∧ t.kind = .eof ∧ ts <+: us ++ [t]

lemma whole_of_sentence {ts : List Token} {s : Stmt} (h : Sentence ts s) : whole line ts = .ok (s, []) := by
  have hs : statement line (ts ++ []) = .ok (s, []) := statement_complete h trivial
  rw [List.append_nil] at hs
  exact whole_ok_iff.mpr ⟨hs, trivial⟩

lemma StopsAt.not_beginsMarked {front rest : List Token} {r : Refusal}
    (h : StopsAt line (whole line) (front ++ rest) r front) (hf : ∀ t ∈ front, t.kind ≠ .eof)
    (hx : ∀ s, ¬ Sentence (body (front ++ rest)) s) : ¬ BeginsMarked (front ++ [current line rest]) := by
  rintro ⟨us, s, e, hs, he, back, hb⟩
  -- Both sides are the same up to their first end marker.
  have hu : us = front ++ body (current line rest :: back) := by
    have hus : body (us ++ [e]) = us := body_append hs.no_end he
    rw [← body_append_left hf, ← hus, ← hb, List.append_assoc]
    rfl
  by_cases hr : Ends rest
  · apply hx s
    rw [body_append hf hr]
    have hc : Ends (current line rest :: back) := ends_iff.mp hr
    rw [body_of_ends hc, List.append_nil] at hu
    exact hu ▸ hs
  · cases rest with
    | nil => exact hr trivial
    | cons t rest =>
      obtain ⟨r', hr'⟩ := h.firm t rest rfl (body back)
      rw [current_cons, body_cons hr] at hu
      rw [← hu, whole_of_sentence hs] at hr'
      cases hr'

theorem refusal_names_first_impossible {ts : List Token} {d : Diagnostic} (h : parse ts = .error d) :
    ∃ i t, (row ts)[i]? = some t ∧ (∃ cause, d = .of cause (some (lineOf ts)) ∧ cause.got? = some t) ∧
      (∃ words, d.detail = some (words ++ t.listed)) ∧
      Begins ((row ts).take i) ∧ ¬ BeginsMarked ((row ts).take (i + 1)) := by
  have hx (s : Stmt) : ¬ Sentence (body ts) s := by
    intro hs
    cases h.symm.trans (parse_ok_iff.mpr hs)
  rw [parse] at h
  split at h
  · cases h
  · rename_i r hw
    cases h
    obtain ⟨front, hstop, back, s, hs⟩ := whole_stops hw
    obtain ⟨rest, rfl, hn⟩ := hstop.named
    have hf : ∀ t ∈ front, t.kind ≠ .eof := fun t ht => hs.no_end t (List.mem_append_left _ ht)
    obtain ⟨more, hrow⟩ := row_eq hf rest
    have hnot := hstop.not_beginsMarked hf hx
    refine ⟨front.length, current (lineOf (front ++ rest)) rest, ?_, ⟨r.cause, rfl, hn⟩,
      Cause.detail?_of_got? hn, ?_, ?_⟩
    · simp [hrow]
    · rw [hrow, List.take_left]
      exact ⟨_, s, hs, List.prefix_append _ _⟩
    · rw [hrow, List.append_cons, List.take_left' (by simp)]
      exact hnot

def gaping : List Token :=
  [⟨.input, "INPUT", .absent, 10, 1⟩, ⟨.leftParen, "(", .absent, 10, 7⟩, ⟨.identifier, "A", .absent, 10, 8⟩,
    ⟨.semicolon, ";", .absent, 10, 9⟩, ⟨.identifier, "B", .absent, 10, 11⟩, ⟨.eof, "", .absent, 10, 12⟩]

theorem gaping_refused : ∃ d, parse gaping = .error d ∧
    d.detail = some "Expected one of ['RIGHT_PAREN'], got Token(SEMICOLON, ';')" ∧
    ∃ i t, (row gaping)[i]? = some t ∧ (∃ cause, d = .of cause (some 10) ∧ cause.got? = some t) ∧
      Begins ((row gaping).take i) ∧ ¬ BeginsMarked ((row gaping).take (i + 1)) := by
  have hd : (match parse gaping with
      | .ok _ => none
      | .error d => d.detail) = some "Expected one of ['RIGHT_PAREN'], got Token(SEMICOLON, ';')" := by
    decide +kernel
  cases hp : parse gaping with
  | ok s =>
    rw [hp] at hd
    cases hd
  | error d =>
    rw [hp] at hd
    obtain ⟨i, t, ht, hc, -, hb, hn⟩ := refusal_names_first_impossible hp
    exact ⟨d, rfl, hd, i, t, ht, hc, hb, hn⟩

end Grammar

end LineBasic
