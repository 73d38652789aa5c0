import LineBasic.Proofs.Number.Leading
import LineBasic.Proofs.Session.Loop

/-! Answering an `INPUT`. The answer is bound and the run goes on, unless a number is asked for and
the one that the answer begins with stands behind a separator: then the call fails, and the `INPUT`
waits on with the answer already shown. -/

namespace LineBasic

/-- A number at the head of the text, if there is one, does not stand behind a separator. -/
def Value.Legible (text : List Char) : Prop :=
  (∃ p, Number.IsNumeric p ∧ p <+: text) →
    ∀ c ∈ text.takeWhile Text.isBlank, Number.isSeparator c = false

/-- What a text is worth as a number: the number at its head, or zero. -/
inductive Value.Worth (text : List Char) : Float → Prop
  | number {p : List Char} {x : Float} : Number.Leads text p → Number.read? (.ofList p) = some x →
      Worth text x
  | nothing : (∀ p, Number.IsNumeric p → ¬ p <+: text) → Worth text 0.0

namespace Value

variable {text : String}

lemma ofAnswer_of_legible (h : Legible text.toList) :
    ∃ x, ofAnswer text = .ok x ∧ Worth text.toList x := by
  cases hl : Number.leading? text.toList with
  | none => exact ⟨0.0, by simp only [ofAnswer, hl], .nothing (Number.leading?_eq_none_iff.mp hl)⟩
  | some p =>
    have hp := Number.leading?_eq_some_iff.mp hl
    obtain ⟨blanks, x, hn⟩ := hp.numeric
    have hb := h ⟨p, hp.numeric, hp.head⟩
    rw [← hp.blanks_eq hn] at hb
    have hx := hn.read?_eq hb
    exact ⟨x, by simp only [ofAnswer, hl, hx], .number hp hx⟩

lemma ofAnswer_of_not_legible (h : ¬ Legible text.toList) : ∃ p, Number.Leads text.toList p ∧
    ofAnswer text = .error (.unreadableNumber (.ofList p)) := by
  simp only [Legible, Classical.not_imp, not_forall, Bool.not_eq_false] at h
  obtain ⟨⟨q, hq, hqt⟩, c, hc, hsep⟩ := h
  obtain ⟨p, hl, -⟩ := Number.leading?_of_numeric hq hqt
  have hp := Number.leading?_eq_some_iff.mp hl
  obtain ⟨blanks, x, hn⟩ := hp.numeric
  rw [← hp.blanks_eq hn] at hc
  have hx := hn.read?_eq_none hc hsep
  exact ⟨p, hp, by simp only [ofAnswer, hl, hx]⟩

end Value

namespace Session

open Variables

/-- The pending variable is bound to the value, and the run is behind its `INPUT`. -/
structure Answered (s t : Session) (name text : String) (v : Value) : Prop where
  bound : t.vars.find? name = some v
  others : ∀ key, key ≠ canonical name → t.vars.bindings.lookup key = s.vars.bindings.lookup key
  pending : t.pending = none
  pc : t.pc = s.pc + 1
  phase : t.phase = if s.pc + 1 < s.order.size then .executing else .idle
  events : t.events.toList = s.events.toList ++ (if s.echo then [.append text] else []) ++
    if s.pc + 1 < s.order.size then [] else [ready]

variable {s : Session}

lemma moveTo_pending (h : s.pending = none) (pc : Nat) : (s.moveTo pc).pending = none := by
  rw [moveTo]
  split
  · rfl
  · exact h

section Deliver

variable {name text : String} {n : Int} (hs : s.phase = .awaiting)
  (hp : s.pending = some ⟨.var name, n, s.pc + 1⟩)

include hs hp

lemma deliver_answered (hr : s.stopReport = none) {v : Value} (hv : v.Plain)
    (ha : answer s.vars (.var name) text = s.vars.set name v) :
    ∃ t, (deliver .passive text).run s = .ok () t ∧ Answered s t name text v := by
  have hset : answer (s.echoed (.append text)).vars (.var name) text =
      .ok ⟨put (canonical name) v s.vars.bindings⟩ := ha.trans (set_of_plain s.vars name hv)
  rw [deliver_of_awaiting hs, submit_passive hs hp, accept_passive, hset]
  refine ⟨_, rfl, ?_, ?_, moveTo_pending rfl _, moveTo_pc _, ?_, ?_⟩
  · rw [moveTo_vars, find?, lookup_put, if_pos rfl]
  · intro key hk
    rw [moveTo_vars, lookup_put, if_neg hk]
  · rw [moveTo_phase]
    rfl
  · refine (moveTo_events _ (by rfl) (by exact hr)).trans ?_
    rw [moveTo_phase]
    congr 1
    · exact toList_echoed s (.append text)
    · by_cases hn : s.pc + 1 < s.order.size <;> simp [hn, echoed]

lemma deliver_failed {fault : Fault} (ha : answer s.vars (.var name) text = .error fault) :
    (deliver .passive text).run s = .error fault (s.echoed (.append text)) := by
  have he : answer (s.echoed (.append text)).vars (.var name) text = .error fault := ha
  rw [deliver_of_awaiting hs, submit_passive hs hp, accept_passive, he]

end Deliver

/-- An `INPUT` takes every answer that is a text or begins with a number that can be read, or with
none: it binds its variable and nothing else, and the run goes on behind it. -/
theorem deliver_answers {depth : Nat} (h : Reachable depth s) (hs : s.phase = .awaiting) (text : String) :
    ∃ name n, s.pending = some ⟨.var name, n, s.pc + 1⟩ ∧
      (isTextName name = true → ∃ t, (deliver .passive text).run s = .ok () t ∧
        Answered s t name text (.text text)) ∧
      (isTextName name = false → Value.Legible text.toList →
        ∃ t x, (deliver .passive text).run s = .ok () t ∧ Value.Worth text.toList x ∧
          Answered s t name text (.number x)) ∧
      (isTextName name = false → ¬ Value.Legible text.toList →
        ∃ p, Number.Leads text.toList p ∧ (deliver .passive text).run s =
          .error (.unreadableNumber (.ofList p)) (s.echoed (.append text))) := by
  have hc := h.coherent
  obtain ⟨name, n, hp⟩ := hc.exists_awaited hs
  refine ⟨name, n, hp, fun ht => ?_, fun ht hl => ?_, fun ht hl => ?_⟩
  · refine deliver_answered hs hp hc.stopReport trivial ?_
    simp [answer, nameOf, Expr.name?, ht]
  · obtain ⟨x, hx, hw⟩ := Value.ofAnswer_of_legible hl
    obtain ⟨t, hrun, hans⟩ := deliver_answered hs hp hc.stopReport (v := .number x) trivial
      (by rw [answer_var hx, if_neg (by simp [ht])])
    exact ⟨t, x, hrun, hw, hans⟩
  · obtain ⟨p, hlead, hx⟩ := Value.ofAnswer_of_not_legible hl
    refine ⟨p, hlead, deliver_failed hs hp ?_⟩
    simp [answer, nameOf, Expr.name?, ht, hx, Except.map]

def quizzed : Session :=
  after (step .passive) (after (run .passive)
    (after (storeLine 20 "PRINT A") (after (storeLine 10 "INPUT A") {})))

lemma quizzed_reachable : Reachable 240 quizzed :=
  ((((Reachable.fresh true).call (.store 10 "INPUT A")).call (.store 20 "PRINT A")).call .run).call
    .step

lemma quizzed_awaiting : quizzed.phase = .awaiting := by decide +kernel

lemma quizzed_asks {name : String} {n : Int} {next : Nat}
    (h : quizzed.pending = some ⟨.var name, n, next⟩) : name = "A" := by
  have hname : quizzed.pending.map (·.target.name?) = some (some "A") := by decide +kernel
  simpa [h, Expr.name?] using hname

theorem quizzed_answered : quizzed.phase = .awaiting ∧ ∃ t x,
    (deliver .passive "5").run quizzed = .ok () t ∧ Value.Worth ['5'] x ∧
      Answered quizzed t "A" "5" (.number x) := by
  refine ⟨quizzed_awaiting, ?_⟩
  obtain ⟨name, n, hp, -, hnumber, -⟩ := deliver_answers quizzed_reachable quizzed_awaiting "5"
  obtain rfl := quizzed_asks hp
  have ht : "5".toList.takeWhile Text.isBlank = [] := by decide
  have hl : Value.Legible "5".toList := by
    intro _ c hc
    rw [ht] at hc
    cases hc
  exact hnumber (by decide) hl

theorem separated_number_faults : Reachable 240 quizzed ∧ quizzed.phase = .awaiting ∧
    (deliver .passive "\x1c5").run quizzed =
      .error (.unreadableNumber "\x1c5") (quizzed.echoed (.append "\x1c5")) := by
  refine ⟨quizzed_reachable, quizzed_awaiting, ?_⟩
  obtain ⟨name, n, hp⟩ := quizzed_reachable.coherent.exists_awaited quizzed_awaiting
  obtain rfl := quizzed_asks hp
  have hl : Number.leading? "\x1c5".toList = some ['\x1c', '5'] := by decide +kernel
  have hx : Number.read? (.ofList ['\x1c', '5']) = none :=
    Option.isNone_iff_eq_none.mp (by decide +kernel)
  refine deliver_failed quizzed_awaiting hp ?_
  have ha : Value.ofAnswer "\x1c5" = .error (.unreadableNumber (.ofList ['\x1c', '5'])) := by
    simp only [Value.ofAnswer, hl, hx]
  have hn : isTextName "A" = false := by decide
  simp [answer, nameOf, Expr.name?, hn, ha, Except.map]

end Session

end LineBasic
