import LineBasic.Proofs.Tree.Sentence
import LineBasic.Tree.Eval
import Mathlib.Tactic.SplitIfs

/-! Lines read from text hold texts, numbers and the four operators only, so that nothing but a
mismatch of types can go wrong when they are evaluated. -/

namespace LineBasic

def Value.Plain : Value → Prop
  | text _ | number _ => True
  | integer _ | truth _ | absent => False

def Token.Plain (t : Token) : Prop := t.kind = .string ∨ t.kind = .number → t.literal.Plain

def Expr.Plain : Expr → Prop
  | literal v => v.Plain
  | var _ => True
  | grouping e => e.Plain
  | binary l op r => l.Plain ∧ (∀ name, op ≠ .other name) ∧ r.Plain
  | foreign _ => False

def Stmt.Plain : Stmt → Prop
  | print e => e.Plain
  | goto _ | rem _ | cls => True
  | assign target e => (∃ name, target = .var name) ∧ e.Plain
  | input prompt target => (∃ name, target = .var name) ∧ ∀ e ∈ prompt, e.Plain
  | foreign _ => False

def Variables.Plain (vars : Variables) : Prop := ∀ b ∈ vars.bindings, b.2.Plain

namespace Token

lemma Kind.ofWord_not_literal (s : String) : Kind.ofWord s ≠ .string ∧ Kind.ofWord s ≠ .number := by
  rw [Kind.ofWord]
  cases h : keywords.find? (·.name == s) with
  | none => decide
  | some k =>
    have hm := List.mem_of_find?_eq_some h
    revert hm
    cases k <;> decide

lemma Kind.ofMark?_not_literal {c : Char} {k : Kind} (h : Kind.ofMark? c = some k) :
    k ≠ .string ∧ k ≠ .number := by
  unfold Kind.ofMark? at h
  split at h <;> cases h <;> decide

lemma read_plain {c : Char} {cs lexeme rest : List Char} {kind : Kind} {literal : Value}
    (h : read c cs = .found kind lexeme literal rest) (hk : kind = .string ∨ kind = .number) :
    literal.Plain := by
  rw [read] at h
  split_ifs at h with h₁ h₂ h₃
  · obtain ⟨rfl, -⟩ := Reading.found.inj h
    have hw := Kind.ofWord_not_literal (.ofList ((takeWord (c :: cs)).1.map Char.toUpper))
    exact absurd hk (not_or.mpr hw)
  · obtain ⟨-, -, rfl, -⟩ := Reading.found.inj h
    trivial
  · rw [readText] at h
    split at h
    · cases h
    · obtain ⟨-, -, rfl, -⟩ := Reading.found.inj h
      trivial
  · split at h
    · rename_i k hm
      obtain ⟨rfl, -⟩ := Reading.found.inj h
      exact absurd hk (not_or.mpr (Kind.ofMark?_not_literal hm))
    · cases h

lemma scanFrom_plain {line column : Int} {cs : List Char} {ts : List Token}
    (h : scanFrom line column cs = .ok ts) : ∀ t ∈ ts, t.Plain := by
  fun_induction scanFrom line column cs generalizing ts with
  | case1 =>
    cases h
    simp [Plain, endToken]
  | case2 => cases h
  | case3 =>
    cases h
    simp [Plain, endToken, comment, Value.Plain]
  | case4 =>
    rename_i rest hr _ _ _ ih
    cases hs : scanFrom line _ rest with
    | error d =>
      rw [hs] at h
      cases h
    | ok us =>
      rw [hs] at h
      cases h
      exact List.forall_mem_cons.mpr ⟨read_plain hr, ih hs⟩

end Token

namespace Grammar

lemma Times.ne_other {k : Token.Kind} {op : Operator} (h : Times k op) (name : String) :
    op ≠ .other name := by
  cases h <;> simp

lemma Plus.ne_other {k : Token.Kind} {op : Operator} (h : Plus k op) (name : String) :
    op ≠ .other name := by
  cases h <;> simp

lemma Derives.plain {level : Parse.Level} {ts : List Token} {e : Expr} (h : Derives level ts e)
    (ht : ∀ t ∈ ts, t.Plain) : e.Plain := by
  induction h with
  | string hk => exact ht _ List.mem_cons_self (.inl hk)
  | number hk => exact ht _ List.mem_cons_self (.inr hk)
  | name => trivial
  | group _ _ _ ih =>
    refine ih fun t hm => ht t ?_
    simp [hm]
  | factor _ ih | term _ ih => exact ih ht
  | times _ ho _ ihl ihr | plus _ ho _ ihl ihr =>
    refine ⟨ihl fun t hm => ht t ?_, ho.ne_other, ihr fun t hm => ht t ?_⟩
    · simp [hm]
    · simp [hm]

lemma Sentence.plain {ts : List Token} {s : Stmt} (h : Sentence ts s) (ht : ∀ t ∈ ts, t.Plain) :
    s.Plain := by
  cases h with
  | print _ he => exact he.plain fun t hm => ht t (by simp [hm])
  | assign _ _ he | letAssign _ _ _ he => exact ⟨⟨_, rfl⟩, he.plain fun t hm => ht t (by simp [hm])⟩
  | goto | rem | remark | cls => trivial
  | input => exact ⟨⟨_, rfl⟩, by simp⟩
  | prompt _ he =>
    refine ⟨⟨_, rfl⟩, ?_⟩
    rintro e ⟨⟩
    exact he.plain fun t hm => ht t (by simp [hm])

end Grammar

namespace Parse

variable {depth : Nat} {code : String} {n : Int} {stmt : Stmt}

lemma compileLine_ok (h : compileLine depth code n = .ok stmt) :
    ∃ ts, Token.scan code n = .ok ts ∧ parse ts = .ok stmt := by
  obtain ⟨ts, hs, h₁⟩ := Grammar.bind_ok h
  split at h₁
  · cases h₁
  · exact ⟨ts, hs, h₁⟩

lemma compileLine_plain (h : compileLine depth code n = .ok stmt) : stmt.Plain := by
  obtain ⟨ts, hs, hp⟩ := compileLine_ok h
  refine (Grammar.parse_ok_iff.mp hp).plain fun t hm => ?_
  exact Token.scanFrom_plain hs t ((List.takeWhile_sublist _).subset hm)

end Parse

lemma Value.Plain.printed {v : Value} (h : v.Plain) : ∃ text, v.printed = .ok text := by
  cases v with
  | text s => exact ⟨s, rfl⟩
  | number x => exact ⟨_, rfl⟩
  | integer | truth | absent => exact h.elim

namespace Variables

variable {vars : Variables}

lemma Plain.get (h : vars.Plain) (name : String) : (vars.get name).Plain := by
  rw [Variables.get, find?]
  cases hl : vars.bindings.lookup (canonical name) with
  | none =>
    simp only [Option.getD_none, default]
    split <;> trivial
  | some v =>
    obtain ⟨l₁, l₂, hb, -⟩ := List.lookup_eq_some_iff.mp hl
    exact h (canonical name, v) (hb ▸ by simp)

lemma put_plain {key : String} {v : Value} {l : List (String × Value)} (hv : v.Plain)
    (h : ∀ b ∈ l, b.2.Plain) : ∀ b ∈ put key v l, b.2.Plain := by
  induction l with
  | nil => simpa [put] using hv
  | cons b l ih =>
    obtain ⟨hb, hl⟩ := List.forall_mem_cons.mp h
    simp only [put]
    split
    · exact List.forall_mem_cons.mpr ⟨hv, hl⟩
    · exact List.forall_mem_cons.mpr ⟨hb, ih hl⟩

lemma set_of_plain (vars : Variables) (name : String) {v : Value} (hv : v.Plain) :
    vars.set name v = .ok ⟨put (canonical name) v vars.bindings⟩ := by
  have hk : v.kept = .ok v := by
    cases v with
    | text | number => rfl
    | integer | truth | absent => exact hv.elim
  simp [Variables.set, hk, Except.map]

lemma Plain.set (h : vars.Plain) (name : String) {v : Value} (hv : v.Plain) :
    ∃ vars', vars.set name v = .ok vars' ∧ vars'.Plain :=
  ⟨_, set_of_plain vars name hv, put_plain hv h⟩

end Variables

lemma Operator.onValues_plain {op : Operator} (ho : ∀ name, op ≠ .other name) (v w : Value) :
    (∃ x, op.onValues v w = .ok (.number x)) ∨ op.onValues v w = .error (.because .typeMismatch) := by
  cases v with
  | number x =>
    cases w with
    | number y =>
      cases op with
      | other name => exact absurd rfl (ho name)
      | div => exact .inl ⟨_, Value.divide_number x y⟩
      | _ => exact .inl ⟨_, rfl⟩
    | _ => exact .inr rfl
  | _ => exact .inr rfl

lemma Expr.Plain.eval {vars : Variables} {e : Expr} (h : e.Plain) (hv : vars.Plain) :
    (∃ v, v.Plain ∧ e.eval vars = .ok v) ∨ e.eval vars = .error (.because .typeMismatch) := by
  induction e with
  | literal v => exact .inl ⟨v, h, rfl⟩
  | var name => exact .inl ⟨_, hv.get name, rfl⟩
  | grouping e ih => exact ih h
  | foreign shape => cases h
  | binary l op r ihl ihr =>
    obtain ⟨hl, ho, hr⟩ := h
    simp only [Expr.eval]
    rcases ihl hl with ⟨v, -, hv'⟩ | hv'
    · rcases ihr hr with ⟨w, -, hw'⟩ | hw'
      · rw [hv', hw']
        rcases Operator.onValues_plain ho v w with ⟨x, hx⟩ | hx
        · exact .inl ⟨.number x, trivial, hx⟩
        · exact .inr hx
      · rw [hv', hw']
        exact .inr rfl
    · rw [hv']
      exact .inr rfl

end LineBasic
