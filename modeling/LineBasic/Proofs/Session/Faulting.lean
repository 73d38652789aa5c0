import LineBasic.Proofs.Session.Calls
import LineBasic.Proofs.Session.Jump

/-! Statements that go wrong: where in a statement that shows before it is executed, and that a step
over one leaves its report and the end of the run, and nothing else. -/

namespace LineBasic

lemma Operator.onValues_mismatch_iff {op : Operator} (ho : ∀ name, op ≠ .other name) {v w : Value}
    (hv : v.Plain) (hw : w.Plain) : op.onValues v w = .error (.because .typeMismatch) ↔
      v.isText = true ∨ w.isText = true := by
  cases v with
  | text s => exact iff_of_true rfl (.inl rfl)
  | number x =>
    cases w with
    | text s => exact iff_of_true rfl (.inr rfl)
    | number y =>
      rcases Operator.onValues_plain ho (.number x) (.number y) with ⟨z, hz⟩ | hz
      · simp [hz, Value.isText]
      · cases op with
        | other name => exact absurd rfl (ho name)
        | add | sub | mul | div => cases hz
    | integer | truth | absent => exact hw.elim
  | integer | truth | absent => exact hv.elim

namespace Expr

/-- Texts are what stands in quotes and what variables hold; arithmetic never gives one. -/
def isTextIn (vars : Variables) : Expr → Bool
  | literal v => v.isText
  | var name => (vars.get name).isText
  | grouping e => e.isTextIn vars
  | binary .. | foreign _ => false

/-- Somewhere in the expression, arithmetic is asked of a text. -/
def clashes (vars : Variables) : Expr → Bool
  | binary l _ r => l.isTextIn vars || r.isTextIn vars || l.clashes vars || r.clashes vars
  | grouping e => e.clashes vars
  | literal _ | var _ | foreign _ => false

variable {vars : Variables} {e : Expr}

lemma Plain.isText_of_eval (h : e.Plain) {v : Value} (he : e.eval vars = .ok v) :
    v.isText = e.isTextIn vars := by
  induction e with
  | literal w =>
    cases he
    rfl
  | var name =>
    cases he
    rfl
  | grouping e ih =>
    apply ih h
    exact he
  | binary l op r =>
    obtain ⟨x, -, h₁⟩ := Grammar.bind_ok he
    obtain ⟨y, -, h₂⟩ := Grammar.bind_ok h₁
    rcases Operator.onValues_plain h.2.1 x y with ⟨z, hz⟩ | hz
    · cases hz.symm.trans h₂
      rfl
    · cases hz.symm.trans h₂
  | foreign shape => cases h

/-- The fault shows before the expression is evaluated: it clashes at some depth. -/
lemma Plain.eval_mismatch_iff (h : e.Plain) (hv : vars.Plain) :
    e.eval vars = .error (.because .typeMismatch) ↔ e.clashes vars = true := by
  induction e with
  | literal w => simp [Expr.eval, clashes]
  | var name => simp [Expr.eval, clashes]
  | grouping e ih =>
    apply ih
    exact h
  | binary l op r ihl ihr =>
    obtain ⟨hl, ho, hr⟩ := h
    simp only [clashes, Bool.or_eq_true]
    rcases hl.eval hv with ⟨v, hpv, hev⟩ | hev
    · have hcl : l.clashes vars ≠ true := by
        intro hc
        cases hev.symm.trans ((ihl hl).mpr hc)
      rcases hr.eval hv with ⟨w, hpw, hew⟩ | hew
      · have hcr : r.clashes vars ≠ true := by
          intro hc
          cases hew.symm.trans ((ihr hr).mpr hc)
        have hx : (binary l op r).eval vars = op.onValues v w := by
          simp only [Expr.eval, hev, hew]
          rfl
        rw [hx, Operator.onValues_mismatch_iff ho hpv hpw, hl.isText_of_eval hev, hr.isText_of_eval hew]
        simp [hcl, hcr]
      · have hx : (binary l op r).eval vars = .error (.because .typeMismatch) := by
          simp only [Expr.eval, hev, hew]
          rfl
        exact iff_of_true hx (.inr ((ihr hr).mp hew))
    · have hx : (binary l op r).eval vars = .error (.because .typeMismatch) := by
        simp only [Expr.eval, hev]
        rfl
      exact iff_of_true hx (.inl (.inr ((ihl hl).mp hev)))
  | foreign shape => cases h

lemma Plain.eval_cases (h : e.Plain) (hv : vars.Plain) :
    (e.clashes vars = false ∧ ∃ v, v.Plain ∧ e.eval vars = .ok v) ∨
      (e.clashes vars = true ∧ e.eval vars = .error (.because .typeMismatch)) := by
  have hiff := h.eval_mismatch_iff hv
  rcases h.eval hv with ⟨v, hpv, hev⟩ | hev
  · refine .inl ⟨?_, v, hpv, hev⟩
    rw [hev] at hiff
    simpa using hiff
  · exact .inr ⟨hiff.mp hev, hev⟩

end Expr

namespace Session

/-- What goes wrong in a statement of a run, as the user will be told of it. -/
def mishap? (s : Session) : Stmt → Option String
  | .print e | .assign _ e | .input (some e) _ =>
    if e.clashes s.vars then some "TYPE MISMATCH" else none
  | .goto target => if target ∈ Numbered.numbers s.program then none else some "UNDEFINED LINE NUMBER"
  | .input none _ | .rem _ | .cls | .foreign _ => none

/-- A statement is executed, or fails before it has changed anything. -/
def FaultsAs (s : Session) (n : Int) (stmt : Stmt) : Option String → Prop
  | none => ∃ settled t, (executeAt .passive n stmt).run s = .ok settled t
  | some message => ∃ d, (executeAt .passive n stmt).run s = .error (.told d) s ∧ d.message = message

variable {s : Session} {n : Int} {stmt : Stmt}

section FaultsAs

variable (hs : s.phase = .executing) (hq : s.stopRequested = false)

include hs hq

lemma faultsAs_of_effect {e : Effect} (he : effect s.vars stmt = .ok e) (hj : ∀ target, e ≠ .jump target) :
    s.FaultsAs n stmt none := by
  rw [FaultsAs, executeAt_passive hs hq, he]
  cases e with
  | proceed vars told => exact ⟨_, _, rfl⟩
  | jump target => exact absurd rfl (hj target)
  | ask prompt target => exact ⟨_, _, rfl⟩

lemma faultsAs_of_mismatch (he : effect s.vars stmt = .error (.because .typeMismatch)) :
    s.FaultsAs n stmt (some "TYPE MISMATCH") := by
  rw [FaultsAs, executeAt_passive hs hq, he]
  exact ⟨_, rfl, message_typeMismatch⟩

end FaultsAs

lemma Coherent.resolve?_eq_none_iff (h : s.Coherent) (hs : s.phase = .executing) {target : Int} :
    resolve? s.order target = none ↔ target ∉ Numbered.numbers s.program := by
  rw [Option.eq_none_iff_forall_ne_some]
  constructor
  · intro hn hm
    obtain ⟨i, hi⟩ := List.getElem?_of_mem hm
    exact hn i ((h.resolve?_eq_some_iff hs).mpr hi)
  · intro hm i hi
    apply hm
    exact List.mem_of_getElem? ((h.resolve?_eq_some_iff hs).mp hi)

lemma Coherent.faultsAs_goto (h : s.Coherent) (hs : s.phase = .executing) (target : Int) :
    FaultsAs { s with stepping := true } n (.goto target) (s.mishap? (.goto target)) := by
  by_cases hm : target ∈ Numbered.numbers s.program
  · obtain ⟨i, hi⟩ := List.getElem?_of_mem hm
    have hr := (h.resolve?_eq_some_iff hs).mpr hi
    rw [mishap?, if_pos hm, FaultsAs, executeAt_passive (s := { s with stepping := true }) hs h.stopRequested]
    simp only [effect, hr]
    exact ⟨_, _, rfl⟩
  · have hr := (h.resolve?_eq_none_iff hs).mpr hm
    rw [mishap?, if_neg hm, FaultsAs, executeAt_passive (s := { s with stepping := true }) hs h.stopRequested]
    simp only [effect, hr]
    exact ⟨_, rfl, message_undefinedLine⟩

lemma Sound.faultsAs (h : s.Sound) (hs : s.phase = .executing) (hp : stmt.Plain) :
    FaultsAs { s with stepping := true } n stmt (s.mishap? stmt) := by
  have hok {e : Effect} (he : effect s.vars stmt = .ok e) (hj : ∀ target, e ≠ .jump target) :
      FaultsAs { s with stepping := true } n stmt none :=
    faultsAs_of_effect hs h.coherent.stopRequested he hj
  have herr (he : effect s.vars stmt = .error (.because .typeMismatch)) :
      FaultsAs { s with stepping := true } n stmt (some "TYPE MISMATCH") :=
    faultsAs_of_mismatch hs h.coherent.stopRequested he
  cases stmt with
  | print e =>
    rcases Expr.Plain.eval_cases hp h.plain with ⟨hc, v, hpv, hev⟩ | ⟨hc, hev⟩
    · obtain ⟨text, ht⟩ := hpv.printed
      rw [mishap?, if_neg (by simp [hc])]
      exact hok (e := .proceed s.vars [.line text]) (by simp [effect, hev, ht]) (by simp)
    · rw [mishap?, if_pos hc]
      exact herr (by simp [effect, hev])
  | assign target e =>
    obtain ⟨⟨name, rfl⟩, he⟩ := hp
    rcases he.eval_cases h.plain with ⟨hc, v, hpv, hev⟩ | ⟨hc, hev⟩
    · obtain ⟨vars, hset, -⟩ := h.plain.set name hpv
      rw [mishap?, if_neg (by simp [hc])]
      exact hok (e := .proceed vars []) (by simp [effect, nameOf, Expr.name?, hev, hset]) (by simp)
    · rw [mishap?, if_pos hc]
      exact herr (by simp [effect, nameOf, Expr.name?, hev])
  | input prompt target =>
    cases prompt with
    | none => exact hok (e := .ask "? " target) rfl (by simp)
    | some e =>
      rcases Expr.Plain.eval_cases (hp.2 e rfl) h.plain with ⟨hc, v, hpv, hev⟩ | ⟨hc, hev⟩
      · obtain ⟨text, ht⟩ := hpv.printed
        rw [mishap?, if_neg (by simp [hc])]
        exact hok (e := .ask (text ++ " ") target) (by simp [effect, promptOf, hev, ht]) (by simp)
      · rw [mishap?, if_pos hc]
        exact herr (by simp [effect, promptOf, hev])
  | goto target => exact h.coherent.faultsAs_goto hs target
  | rem comment => exact hok (e := .proceed s.vars []) rfl (by simp)
  | cls => exact hok (e := .proceed s.vars [.clear]) rfl (by simp)
  | foreign shape => cases hp

/-- A run that comes to a faulty statement ends with its report. The statement leaves nothing else. -/
theorem faulting_step_leaves_report {depth : Nat} (h : Reachable depth s) (hs : s.phase = .executing) :
    ∃ n stmt, s.currentLine = some n ∧ Numbered.find? n s.compiled = some stmt ∧
      ((∃ fault u, (executeAt .passive n stmt).run { s with stepping := true } = .error fault u) ↔
        (s.mishap? stmt).isSome) ∧
      ∀ message, s.mishap? stmt = some message →
        (step .passive).run s = .ok () { s with
          phase := .idle
          pending := none
          stopRequested := false
          stopReport := none
          stepping := false
          events := (s.events.push (.line ("?" ++ message ++ " IN " ++ toString n))).push
            (.line "Ready") } := by
  have hsd := h.sound
  have hc := hsd.coherent
  obtain ⟨n, stmt, hn, hf, hp⟩ := hc.exists_plain_statement hs
  have hfa := hsd.faultsAs (n := n) hs hp
  refine ⟨n, stmt, by simpa [Session.currentLine, hs] using hn, hf, ?_, ?_⟩
  · cases hm : s.mishap? stmt with
    | none =>
      rw [hm] at hfa
      obtain ⟨settled, t, hx⟩ := hfa
      simp [hx]
    | some message =>
      rw [hm] at hfa
      obtain ⟨d, hx, -⟩ := hfa
      exact iff_of_true ⟨_, _, hx⟩ rfl
  · intro message hm
    rw [hm] at hfa
    obtain ⟨d, hx, rfl⟩ := hfa
    obtain ⟨d', hd, hstep⟩ := step_of_fault hs hc.stopRequested hn hf hp hsd.plain hx
    cases hd
    rw [hstep]
    simp [halted, finished, record, hc.stopReport, Diagnostic.report, ready]

def stammering : Session :=
  after (run .passive) (after (storeLine 10 "INPUT (1 * (\"A\" + B$)); C") {})

lemma stammering_reachable : Reachable 240 stammering :=
  ((Reachable.fresh true).call (.store 10 "INPUT (1 * (\"A\" + B$)); C")).call .run

theorem stammering_leaves_report : stammering.phase = .executing ∧ stammering.currentLine = some 10 ∧
    (step .passive).run stammering = .ok () { stammering with
      phase := .idle
      pending := none
      stopRequested := false
      stopReport := none
      stepping := false
      events := #[.line "?TYPE MISMATCH IN 10", .line "Ready"] } := by
  have hs : stammering.phase = .executing := by decide +kernel
  have hl : stammering.currentLine = some 10 := by decide +kernel
  have hm : (Numbered.find? 10 stammering.compiled).bind stammering.mishap? = some "TYPE MISMATCH" := by
    decide +kernel
  have he : stammering.events = #[] := by decide +kernel
  obtain ⟨n, stmt, hn, hf, -, hstep⟩ := faulting_step_leaves_report stammering_reachable hs
  obtain rfl := Option.some.inj (hl.symm.trans hn)
  rw [hf] at hm
  have hx := hstep _ hm
  rw [he] at hx
  exact ⟨hs, hl, hx⟩

end Session

end LineBasic
