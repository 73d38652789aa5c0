import LineBasic.Tree.Parse
import Mathlib.Tactic.Lemma

/-! The grammar of a line as derivations of trees from rows of tokens, and the shape that
precedence gives to derived trees. -/

namespace LineBasic.Grammar

open Parse (Level)

inductive Times : Token.Kind → Operator → Prop
  | star : Times .star .mul
  | slash : Times .slash .div

inductive Plus : Token.Kind → Operator → Prop
  | plus : Plus .plus .add
  | minus : Plus .minus .sub

inductive Derives : Level → List Token → Expr → Prop
  | string {t : Token} : t.kind = .string → Derives .primary [t] (.literal t.literal)
  | number {t : Token} : t.kind = .number → Derives .primary [t] (.literal t.literal)
  | name {t : Token} : t.kind = .identifier → Derives .primary [t] (.var t.lexeme)
  | group {l r : Token} {ts : List Token} {e : Expr} : l.kind = .leftParen → Derives .sum ts e →
      r.kind = .rightParen → Derives .primary (l :: ts ++ [r]) (.grouping e)
  | factor {ts : List Token} {e : Expr} : Derives .primary ts e → Derives .product ts e
  | times {ts us : List Token} {t : Token} {e f : Expr} {op : Operator} : Derives .product ts e →
      Times t.kind op → Derives .primary us f → Derives .product (ts ++ t :: us) (.binary e op f)
  | term {ts : List Token} {e : Expr} : Derives .product ts e → Derives .sum ts e
  | plus {ts us : List Token} {t : Token} {e f : Expr} {op : Operator} : Derives .sum ts e →
      Plus t.kind op → Derives .product us f → Derives .sum (ts ++ t :: us) (.binary e op f)

inductive Sentence : List Token → Stmt → Prop
  | print {k : Token} {ts : List Token} {e : Expr} : k.kind = .print → Derives .sum ts e →
      Sentence (k :: ts) (.print e)
  | goto {k t : Token} {x : Float} {n : Int} : k.kind = .goto → t.kind = .number →
      t.literal = .number x → (Number.shape x).integer? = some n → 0 < n → Sentence [k, t] (.goto n)
  | assign {v q : Token} {ts : List Token} {e : Expr} : v.kind = .identifier → q.kind = .equal →
      Derives .sum ts e → Sentence (v :: q :: ts) (.assign (.var v.lexeme) e)
  | letAssign {k v q : Token} {ts : List Token} {e : Expr} : k.kind = .let → v.kind = .identifier →
      q.kind = .equal → Derives .sum ts e → Sentence (k :: v :: q :: ts) (.assign (.var v.lexeme) e)
  | rem {k : Token} : k.kind = .rem → Sentence [k] (.rem "")
  | remark {k t : Token} : k.kind = .rem → t.kind = .string →
      Sentence [k, t] (.rem (Parse.commentText t.literal))
  | cls {k : Token} : k.kind = .cls → Sentence [k] .cls
  | input {k v : Token} : k.kind = .input → v.kind = .identifier →
      Sentence [k, v] (.input none (.var v.lexeme))
  | prompt {k m v : Token} {ts : List Token} {e : Expr} : k.kind = .input → Derives .sum ts e →
      m.kind = .comma ∨ m.kind = .semicolon → v.kind = .identifier →
      Sentence (k :: ts ++ [m, v]) (.input (some e) (.var v.lexeme))

def IsSum : Expr → Prop
  | .binary _ .add _ | .binary _ .sub _ => True
  | _ => False

def IsProduct : Expr → Prop
  | .binary _ .mul _ | .binary _ .div _ => True
  | _ => False

/-- Chains lean to the left, and a looser operator stands below a tighter one, or to the right of
an equal one, only inside a group. -/
def Layered : Expr → Prop
  | .literal _ | .var _ => True
  | .grouping e => Layered e
  | .binary l op r => Layered l ∧ Layered r ∧ ¬ IsSum r ∧
      (op = .add ∨ op = .sub ∨ ((op = .mul ∨ op = .div) ∧ ¬ IsSum l ∧ ¬ IsProduct r))
  | .foreign _ => False

def StmtLayered : Stmt → Prop
  | .print e | .assign _ e | .input (some e) _ => Layered e
  | .goto _ | .rem _ | .cls | .input none _ => True
  | .foreign _ => False

lemma Times.operator {k : Token.Kind} {op : Operator} (h : Times k op) : op = .mul ∨ op = .div := by
  cases h <;> simp

lemma Plus.operator {k : Token.Kind} {op : Operator} (h : Plus k op) : op = .add ∨ op = .sub := by
  cases h <;> simp

lemma Times.ne_end {k : Token.Kind} {op : Operator} (h : Times k op) : k ≠ .eof := by
  cases h <;> simp

lemma Plus.ne_end {k : Token.Kind} {op : Operator} (h : Plus k op) : k ≠ .eof := by
  cases h <;> simp

lemma Derives.shape {level : Level} {ts : List Token} {e : Expr} (h : Derives level ts e) :
    Layered e ∧ (level ≠ .sum → ¬ IsSum e) ∧ (level = .primary → ¬ IsProduct e) := by
  induction h with
  | string | number | name => simp [Layered, IsSum, IsProduct]
  | group _ _ _ ih => simpa [Layered, IsSum, IsProduct] using ih.1
  | factor _ ih => exact ⟨ih.1, fun _ => ih.2.1 (by decide), by simp⟩
  | term _ ih => exact ⟨ih.1, by simp, by simp⟩
  | @times _ _ _ e f _ _ ho _ ihl ihr =>
    have hl : ¬ IsSum e := ihl.2.1 (by decide)
    have hr : ¬ IsSum f := ihr.2.1 (by decide)
    refine ⟨⟨ihl.1, ihr.1, hr, .inr (.inr ⟨ho.operator, hl, ihr.2.2 rfl⟩)⟩, fun _ => ?_, by simp⟩
    rcases ho.operator with rfl | rfl <;> exact not_false
  | @plus _ _ _ _ f _ _ ho _ ihl ihr =>
    have hr : ¬ IsSum f := ihr.2.1 (by decide)
    refine ⟨⟨ihl.1, ihr.1, hr, ?_⟩, by simp, by simp⟩
    rcases ho.operator with rfl | rfl
    · exact .inl rfl
    · exact .inr (.inl rfl)

lemma Sentence.layered {ts : List Token} {s : Stmt} (h : Sentence ts s) : StmtLayered s := by
  cases h with
  | print _ he | assign _ _ he | letAssign _ _ _ he | prompt _ he _ _ => exact he.shape.1
  | goto | rem | remark | cls | input => trivial

lemma Derives.ne_nil {level : Level} {ts : List Token} {e : Expr} (h : Derives level ts e) :
    ts ≠ [] := by
  induction h with
  | string | number | name | group | times | plus => simp
  | factor _ ih | term _ ih => exact ih

lemma Derives.no_end {level : Level} {ts : List Token} {e : Expr} (h : Derives level ts e) :
    ∀ t ∈ ts, t.kind ≠ .eof := by
  induction h with
  | string ht | number ht | name ht => simp [ht]
  | group hl _ hr ih =>
    simp only [List.cons_append, List.forall_mem_cons, List.forall_mem_append]
    exact ⟨by simp [hl], ih, by simp [hr], by simp⟩
  | factor _ ih | term _ ih => exact ih
  | times _ ho _ ihl ihr | plus _ ho _ ihl ihr =>
    simp only [List.forall_mem_cons, List.forall_mem_append]
    exact ⟨ihl, ho.ne_end, ihr⟩

lemma Sentence.no_end {ts : List Token} {s : Stmt} (h : Sentence ts s) :
    ∀ t ∈ ts, t.kind ≠ .eof := by
  cases h with
  | print hk he => exact List.forall_mem_cons.mpr ⟨by simp [hk], he.no_end⟩
  | goto hk ht | remark hk ht | input hk ht => simp [hk, ht]
  | assign hv hq he =>
    simp only [List.forall_mem_cons]
    exact ⟨by simp [hv], by simp [hq], he.no_end⟩
  | letAssign hk hv hq he =>
    simp only [List.forall_mem_cons]
    exact ⟨by simp [hk], by simp [hv], by simp [hq], he.no_end⟩
  | rem hk | cls hk => simp [hk]
  | prompt hk he hm hv =>
    simp only [List.cons_append, List.forall_mem_cons, List.forall_mem_append]
    refine ⟨by simp [hk], he.no_end, ?_, by simp [hv], by simp⟩
    rcases hm with hm | hm <;> simp [hm]

end LineBasic.Grammar
