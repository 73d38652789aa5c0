import LineBasic.Proofs.Session.Faulting

/-! The value of an expression. Arithmetic fails just if one of the leaves is a text, however deep it
stands, and parentheses that are there for the reader make no difference. -/

namespace LineBasic

namespace Expr

/-- The values at the leaves, from left to right. -/
def leaves (vars : Variables) : Expr → List Value
  | literal v => [v]
  | var name => [vars.get name]
  | grouping e => e.leaves vars
  | binary l _ r => l.leaves vars ++ r.leaves vars
  | foreign _ => []

def calculates : Expr → Bool
  | binary .. => true
  | grouping e => e.calculates
  | literal _ | var _ | foreign _ => false

def ungrouped : Expr → Expr
  | grouping e => e.ungrouped
  | binary l op r => binary l.ungrouped op r.ungrouped
  | e => e

variable {vars : Variables} {e : Expr}

lemma eval_ungrouped (vars : Variables) (e : Expr) : e.ungrouped.eval vars = e.eval vars := by
  induction e with
  | literal | var | foreign => rfl
  | grouping e ih => exact ih
  | binary l op r ihl ihr => simp only [ungrouped, eval, ihl, ihr]

lemma isTextIn_or_clashes (vars : Variables) (e : Expr) :
    (e.isTextIn vars || e.clashes vars) = (e.leaves vars).any Value.isText := by
  induction e with
  | literal | var => simp [isTextIn, clashes, leaves]
  | foreign => rfl
  | grouping e ih => exact ih
  | binary l op r ihl ihr =>
    simp only [leaves, List.any_append, ← ihl, ← ihr, isTextIn, clashes]
    grind

lemma clashes_eq (vars : Variables) (e : Expr) :
    e.clashes vars = (e.calculates && (e.leaves vars).any Value.isText) := by
  induction e with
  | literal | var | foreign => rfl
  | grouping e ih => exact ih
  | binary l op r =>
    have hl := isTextIn_or_clashes vars (.binary l op r)
    simpa only [isTextIn, Bool.false_or, calculates, Bool.true_and] using hl

lemma Plain.eval_calculating (h : e.Plain) (hc : e.calculates = true) {v : Value}
    (he : e.eval vars = .ok v) : ∃ x, v = .number x := by
  induction e with
  | literal | var | foreign => cases hc
  | grouping e ih => exact ih h hc he
  | binary l op r =>
    obtain ⟨v', -, h₁⟩ := Grammar.bind_ok he
    obtain ⟨w, -, h₂⟩ := Grammar.bind_ok h₁
    rcases Operator.onValues_plain h.2.1 v' w with ⟨x, hx⟩ | hx
    · cases hx.symm.trans h₂
      exact ⟨x, rfl⟩
    · cases hx.symm.trans h₂

lemma leaves_of_eval (hc : e.calculates = false) {v : Value} (he : e.eval vars = .ok v) :
    e.leaves vars = [v] := by
  induction e with
  | literal | var =>
    cases he
    rfl
  | grouping e ih => exact ih hc he
  | binary => cases hc
  | foreign => cases he

end Expr

namespace Session

lemma evaluate_run (e : Expr) (s : Session) : (evaluate e).run s =
    match e.eval s.vars with
    | .ok v => .ok v s
    | .error fault => .error fault s := by
  cases h : e.eval s.vars <;> simp [evaluate, h]

lemma because_typeMismatch :
    Fault.because .typeMismatch = .told ⟨.runtime, "TYPE MISMATCH", none, none⟩ := by
  have hm := message_typeMismatch
  simp only [Diagnostic.of, Diagnostic.make] at hm
  simp [Fault.because, Diagnostic.of, Diagnostic.make, hm, Cause.category, Cause.detail?]

theorem evaluate_faults_just_if_mixed {s : Session} (hv : s.vars.Plain) {e : Expr} (he : e.Plain) :
    ((evaluate e).run s = .error (.told ⟨.runtime, "TYPE MISMATCH", none, none⟩) s ↔
      e.calculates = true ∧ ∃ v ∈ e.leaves s.vars, v.isText = true) ∧
    (∀ fault t, (evaluate e).run s = .error fault t →
      fault = .told ⟨.runtime, "TYPE MISMATCH", none, none⟩ ∧ t = s) ∧
    (∀ v t, (evaluate e).run s = .ok v t → t = s ∧
      (e.calculates = true → ∃ x, v = .number x) ∧ (e.calculates = false → e.leaves s.vars = [v])) ∧
    (evaluate e.ungrouped).run s = (evaluate e).run s := by
  have hm : e.clashes s.vars = true ↔ e.calculates = true ∧ ∃ v ∈ e.leaves s.vars, v.isText = true := by
    rw [Expr.clashes_eq, Bool.and_eq_true, List.any_eq_true]
  have hu : (evaluate e.ungrouped).run s = (evaluate e).run s := by
    rw [evaluate_run, evaluate_run, Expr.eval_ungrouped]
  rcases he.eval_cases hv with ⟨hc, v, -, hev⟩ | ⟨hc, hev⟩
  · have hr : (evaluate e).run s = .ok v s := by rw [evaluate_run, hev]
    refine ⟨?_, ?_, ?_, hu⟩
    · rw [hr, ← hm, hc]
      simp
    · intro fault t h
      cases hr.symm.trans h
    · intro w t h
      cases hr.symm.trans h
      exact ⟨rfl, fun h => he.eval_calculating h hev, fun h => Expr.leaves_of_eval h hev⟩
  · have hr : (evaluate e).run s = .error (.told ⟨.runtime, "TYPE MISMATCH", none, none⟩) s := by
      rw [evaluate_run, hev, because_typeMismatch]
    refine ⟨iff_of_true hr (hm.mp hc), ?_, ?_, hu⟩
    · intro fault t h
      cases hr.symm.trans h
      exact ⟨rfl, rfl⟩
    · intro w t h
      cases hr.symm.trans h

/-- `(A) * (1 + (b$))`. -/
def blend : Expr :=
  .binary (.grouping (.var "A")) .mul
    (.grouping (.binary (.literal (.number 1.0)) .add (.grouping (.var "b$"))))

theorem blend_faults :
    (evaluate blend).run {} = .error (.told ⟨.runtime, "TYPE MISMATCH", none, none⟩) {} ∧
    (evaluate blend.ungrouped).run {} = .error (.told ⟨.runtime, "TYPE MISMATCH", none, none⟩) {} := by
  have he : blend.Plain := ⟨trivial, by simp, trivial, by simp, trivial⟩
  have hg : (Variables.get {} "b$").isText = true := by decide +kernel
  obtain ⟨hi, -, -, hu⟩ := evaluate_faults_just_if_mixed (s := {}) plain_empty he
  have hf := hi.mpr ⟨rfl, Variables.get {} "b$", by simp [blend, Expr.leaves], hg⟩
  exact ⟨hf, hu.trans hf⟩

end Session

end LineBasic
