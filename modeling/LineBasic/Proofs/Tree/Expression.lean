import LineBasic.Proofs.Tree.Grammar

/-! Reading an expression in one pass finds the trees that the grammar derives. What has been read
is kept in a stack of open parentheses, each with the left sides that wait for an operand. -/

namespace LineBasic.Grammar

open Parse

lemma Times.productOperator {k : Token.Kind} {op : Operator} (h : Times k op) :
    productOperator? k = some op := by
  cases h <;> rfl

lemma Plus.productOperator {k : Token.Kind} {op : Operator} (h : Plus k op) :
    productOperator? k = none := by
  cases h <;> rfl

lemma Plus.sumOperator {k : Token.Kind} {op : Operator} (h : Plus k op) :
    sumOperator? k = some op := by
  cases h <;> rfl

lemma times_of_productOperator {k : Token.Kind} {op : Operator} (h : productOperator? k = some op) :
    Times k op := by
  cases k <;> simp only [productOperator?, Option.some.injEq, reduceCtorEq] at h <;> subst h
  · exact .star
  · exact .slash

lemma plus_of_sumOperator {k : Token.Kind} {op : Operator} (h : sumOperator? k = some op) :
    Plus k op := by
  cases k <;> simp only [sumOperator?, Option.some.injEq, reduceCtorEq] at h <;> subst h
  · exact .plus
  · exact .minus

def OpenSum (ts : List Token) : Option (Expr × Operator) → Prop
  | none => ts = []
  | some (l, op) => ∃ us t, ts = us ++ [t] ∧ Derives .sum us l ∧ Plus t.kind op

def OpenProduct (ts : List Token) : Option (Expr × Operator) → Prop
  | none => ts = []
  | some (l, op) => ∃ us t, ts = us ++ [t] ∧ Derives .product us l ∧ Times t.kind op

def Waits (ts : List Token) (p : Pending) : Prop :=
  ∃ us vs, ts = us ++ vs ∧ OpenSum us p.sum ∧ OpenProduct vs p.product

inductive Nested : List Token → List Pending → Prop
  | nil : Nested [] []
  | cons {ts us : List Token} {l : Token} {p : Pending} {outer : List Pending} : Nested ts outer →
      Waits us p → l.kind = .leftParen → Nested (ts ++ us ++ [l]) (p :: outer)

def Reads (ts : List Token) : Mode → Prop
  | .operand => ts = []
  | .operator e => Derives .primary ts e

lemma waits_nil : Waits [] {} := ⟨[], [], rfl, rfl, rfl⟩

lemma OpenProduct.factor {ts us : List Token} {p : Pending} {e : Expr}
    (h : OpenProduct ts p.product) (he : Derives .primary us e) :
    Derives .product (ts ++ us) (p.factor e) := by
  rw [Pending.factor]
  cases hp : p.product with
  | none =>
    rw [hp] at h
    rw [show ts = [] from h]
    exact .factor he
  | some left =>
    rw [hp] at h
    obtain ⟨vs, t, rfl, hl, ht⟩ := h
    simpa using Derives.times hl ht he

lemma Waits.total {ts us : List Token} {p : Pending} {e : Expr} (h : Waits ts p)
    (he : Derives .primary us e) : Derives .sum (ts ++ us) (p.total e) := by
  obtain ⟨as, bs, rfl, ha, hb⟩ := h
  have hf := hb.factor he
  rw [Pending.total]
  cases hs : p.sum with
  | none =>
    rw [hs] at ha
    rw [show as = [] from ha]
    exact .term hf
  | some left =>
    rw [hs] at ha
    obtain ⟨vs, t, rfl, hl, ht⟩ := ha
    simpa using Derives.plus hl ht hf

lemma Waits.times {ts us : List Token} {p : Pending} {e : Expr} {t : Token} {op : Operator}
    (h : Waits ts p) (he : Derives .primary us e) (ht : Times t.kind op) :
    Waits (ts ++ us ++ [t]) { p with product := some (p.factor e, op) } := by
  obtain ⟨as, bs, rfl, ha, hb⟩ := h
  exact ⟨as, bs ++ us ++ [t], by simp, ha, bs ++ us, t, rfl, hb.factor he, ht⟩

lemma Waits.plus {ts us : List Token} {p : Pending} {e : Expr} {t : Token} {op : Operator}
    (h : Waits ts p) (he : Derives .primary us e) (ht : Plus t.kind op) :
    Waits (ts ++ us ++ [t]) { sum := some (p.total e, op) } :=
  ⟨ts ++ us ++ [t], [], by simp, ⟨ts ++ us, t, rfl, h.total he, ht⟩, rfl⟩

def Read (ts : List Token) (mode : Mode) (here : Pending) (outer : List Pending) : Prop :=
  ∃ as bs cs, ts = as ++ bs ++ cs ∧ Nested as outer ∧ Waits bs here ∧ Reads cs mode

lemma read_nil : Read [] .operand {} [] := ⟨[], [], [], rfl, .nil, waits_nil, rfl⟩

lemma Read.primary {ts : List Token} {here : Pending} {outer : List Pending} {t : Token} {e : Expr}
    (h : Read ts .operand here outer) (he : Derives .primary [t] e) :
    Read (ts ++ [t]) (.operator e) here outer := by
  obtain ⟨as, bs, cs, rfl, ha, hb, rfl⟩ := h
  exact ⟨as, bs, [t], by simp, ha, hb, he⟩

lemma Read.open {ts : List Token} {here : Pending} {outer : List Pending} {t : Token}
    (h : Read ts .operand here outer) (ht : t.kind = .leftParen) :
    Read (ts ++ [t]) .operand {} (here :: outer) := by
  obtain ⟨as, bs, cs, rfl, ha, hb, rfl⟩ := h
  exact ⟨as ++ bs ++ [t], [], [], by simp, .cons ha hb ht, waits_nil, rfl⟩

lemma Read.times {ts : List Token} {here : Pending} {outer : List Pending} {t : Token} {e : Expr}
    {op : Operator} (h : Read ts (.operator e) here outer) (ht : Times t.kind op) :
    Read (ts ++ [t]) .operand { here with product := some (here.factor e, op) } outer := by
  obtain ⟨as, bs, cs, rfl, ha, hb, hc⟩ := h
  exact ⟨as, bs ++ cs ++ [t], [], by simp, ha, hb.times hc ht, rfl⟩

lemma Read.plus {ts : List Token} {here : Pending} {outer : List Pending} {t : Token} {e : Expr}
    {op : Operator} (h : Read ts (.operator e) here outer) (ht : Plus t.kind op) :
    Read (ts ++ [t]) .operand { sum := some (here.total e, op) } outer := by
  obtain ⟨as, bs, cs, rfl, ha, hb, hc⟩ := h
  exact ⟨as, bs ++ cs ++ [t], [], by simp, ha, hb.plus hc ht, rfl⟩

lemma Read.close {ts : List Token} {here before : Pending} {outer : List Pending} {t : Token}
    {e : Expr} (h : Read ts (.operator e) here (before :: outer)) (ht : t.kind = .rightParen) :
    Read (ts ++ [t]) (.operator (.grouping (here.total e))) before outer := by
  obtain ⟨as, bs, cs, rfl, ha, hb, hc⟩ := h
  cases ha with
  | @cons as' us l _ _ ha hu hl =>
    refine ⟨as', us, l :: (bs ++ cs) ++ [t], by simp, ha, hu, ?_⟩
    exact .group hl (hb.total hc) ht

lemma Read.whole {ts : List Token} {here : Pending} {e : Expr} (h : Read ts (.operator e) here []) :
    Derives .sum ts (here.total e) := by
  obtain ⟨as, bs, cs, rfl, ha, hb, hc⟩ := h
  cases ha
  exact hb.total hc

lemma sum_extend {us ts rest : List Token} {t : Token} {e : Expr}
    (h : ∃ vs, ts = vs ++ rest ∧ Derives .sum (us ++ [t] ++ vs) e) :
    ∃ vs, t :: ts = vs ++ rest ∧ Derives .sum (us ++ vs) e := by
  obtain ⟨vs, rfl, hv⟩ := h
  exact ⟨t :: vs, rfl, by simpa using hv⟩

lemma readExpr_sound {line : Int} {mode : Mode} {here : Pending} {outer : List Pending}
    {ts us rest : List Token} {e : Expr} (hr : Read us mode here outer)
    (h : readExpr line .sum mode here outer ts = .ok (e, rest)) :
    ∃ vs, ts = vs ++ rest ∧ Derives .sum (us ++ vs) e := by
  fun_induction readExpr line .sum mode here outer ts generalizing us with
  | case1 | case3 | case8 | case13 => cases h
  | case2 =>
    cases h
    exact ⟨[], rfl, by simpa using hr.whole⟩
  | case4 _ _ _ _ hk ih => exact sum_extend (ih (hr.primary (.string hk)) h)
  | case5 _ _ _ _ hk ih => exact sum_extend (ih (hr.primary (.number hk)) h)
  | case6 _ _ _ _ hk ih => exact sum_extend (ih (hr.primary (.name hk)) h)
  | case7 _ _ _ _ hk ih => exact sum_extend (ih (hr.open hk) h)
  | case9 _ _ _ _ _ _ _ ho ih => exact sum_extend (ih (hr.times (times_of_productOperator ho)) h)
  | case10 _ _ _ _ _ _ _ ho _ ih => exact sum_extend (ih (hr.plus (plus_of_sumOperator ho)) h)
  | case11 =>
    cases h
    exact ⟨[], rfl, by simpa using hr.whole⟩
  | case12 _ _ _ _ _ _ hk _ _ ih => exact sum_extend (ih (hr.close hk) h)

lemma expression_sound {line : Int} {ts rest : List Token} {e : Expr}
    (h : expression line ts = .ok (e, rest)) : ∃ us, ts = us ++ rest ∧ Derives .sum us e := by
  simpa using readExpr_sound read_nil h

lemma sum_ne_primary : (Level.sum == Level.primary) = false := rfl

section Complete

variable {line : Int} {here : Pending} {outer : List Pending} {t : Token} {ts : List Token} {e : Expr}

lemma readExpr_times {op : Operator} (ht : Times t.kind op) :
    readExpr line .sum (.operator e) here outer (t :: ts) =
      readExpr line .sum .operand { here with product := some (here.factor e, op) } outer ts := by
  simp [readExpr, ht.productOperator, sum_ne_primary]

lemma readExpr_plus {op : Operator} (ht : Plus t.kind op) :
    readExpr line .sum (.operator e) here outer (t :: ts) =
      readExpr line .sum .operand { sum := some (here.total e, op) } outer ts := by
  simp [readExpr, ht.productOperator, ht.sumOperator]

lemma readExpr_close {before : Pending} (ht : t.kind = .rightParen) :
    readExpr line .sum (.operator e) here (before :: outer) (t :: ts) =
      readExpr line .sum (.operator (.grouping (here.total e))) before outer ts := by
  simp [readExpr, ht, productOperator?, sumOperator?]

end Complete

/-- Reading the tokens of a derivation leads from its start to its end, whatever follows. -/
def Passes (line : Int) (ts : List Token) (e : Expr) : Level → Prop
  | .primary => ∀ here outer rest, readExpr line .sum .operand here outer (ts ++ rest) =
      readExpr line .sum (.operator e) here outer rest
  | .product => ∀ sum outer rest, ∃ product f, Pending.factor ⟨sum, product⟩ f = e ∧
      readExpr line .sum .operand ⟨sum, none⟩ outer (ts ++ rest) =
        readExpr line .sum (.operator f) ⟨sum, product⟩ outer rest
  | .sum => ∀ outer rest, ∃ here f, Pending.total here f = e ∧
      readExpr line .sum .operand {} outer (ts ++ rest) =
        readExpr line .sum (.operator f) here outer rest

lemma Derives.passes {level : Level} {ts : List Token} {e : Expr} (h : Derives level ts e) (line : Int) :
    Passes line ts e level := by
  induction h with
  | string ht | number ht | name ht =>
    intro here outer rest
    simp [readExpr, ht]
  | @group l r ts e hl _ hr ih =>
    intro here outer rest
    obtain ⟨inner, f, rfl, hf⟩ := ih (here :: outer) (r :: rest)
    have ho : readExpr line .sum .operand here outer (l :: (ts ++ r :: rest)) =
        readExpr line .sum .operand {} (here :: outer) (ts ++ r :: rest) := by
      simp [readExpr, hl]
    rw [List.cons_append, List.cons_append, List.append_assoc, List.singleton_append, ho, hf,
      readExpr_close hr]
  | factor _ ih =>
    intro sum outer rest
    exact ⟨none, _, rfl, ih ⟨sum, none⟩ outer rest⟩
  | @times ts us t e f op _ ht _ ihl ihr =>
    intro sum outer rest
    obtain ⟨product, g, hg, hl⟩ := ihl sum outer (t :: (us ++ rest))
    refine ⟨some (e, op), f, rfl, ?_⟩
    rw [List.append_assoc, List.cons_append, hl, readExpr_times ht, hg, ihr]
  | term _ ih =>
    intro outer rest
    obtain ⟨product, f, hf, hr⟩ := ih none outer rest
    exact ⟨⟨none, product⟩, f, hf, hr⟩
  | @plus ts us t e f op _ ht _ ihl ihr =>
    intro outer rest
    obtain ⟨here, g, hg, hl⟩ := ihl outer (t :: (us ++ rest))
    obtain ⟨product, k, hk, hr⟩ := ihr (some (e, op)) outer rest
    refine ⟨⟨some (e, op), product⟩, k, ?_, ?_⟩
    · simpa [Pending.total] using hk
    · rw [List.append_assoc, List.cons_append, hl, readExpr_plus ht, hg, hr]

def Stops : List Token → Prop
  | [] => True
  | t :: _ => productOperator? t.kind = none ∧ sumOperator? t.kind = none

lemma expression_complete {line : Int} {ts rest : List Token} {e : Expr} (h : Derives .sum ts e)
    (hr : Stops rest) : expression line (ts ++ rest) = .ok (e, rest) := by
  obtain ⟨here, f, rfl, hf⟩ := h.passes line [] rest
  rw [expression, hf]
  cases rest with
  | nil => rfl
  | cons t rest => simp [readExpr, hr.1, hr.2]

end LineBasic.Grammar
