import LineBasic.Proofs.Driver.Repl
import LineBasic.Proofs.Session.Answering

/-! Who a typed line goes to. The command loop asks for a command only while nothing runs; a line that
it reads during a run is the answer to the `INPUT` that waits, whatever it says. -/

namespace LineBasic

namespace Session

variable {s : Session}

lemma Sound.advanceFrom (h : s.Sound) (done limit : Nat) :
    ∃ j t, (Session.advanceFrom .passive done limit).run s = .ok j t ∧ t.Sound := by
  induction limit generalizing s done with
  | zero => exact ⟨done, s, rfl, h⟩
  | succ limit ih =>
    by_cases hs : s.phase = .executing
    · obtain ⟨t, ht, hst⟩ := h.step
      rw [advanceFrom_succ hs ht]
      exact ih hst (done + 1)
    · exact ⟨done, s, advanceFrom_of_rest .passive hs done _, h⟩

/-- The value that a variable of this name takes from an answer. -/
def TakenAs (name text : String) (v : Value) : Prop :=
  if isTextName name then v = .text text else ∃ x, Value.ofAnswer text = .ok x ∧ v = .number x

lemma Sound.deliver_taken (h : s.Sound) (hs : s.phase = .awaiting) {text : String} {t : Session}
    (ht : (Session.deliver .passive text).run s = .ok () t) :
    ∃ name n v, s.pending = some ⟨.var name, n, s.pc + 1⟩ ∧ Answered s t name text v ∧
      TakenAs name text v := by
  have hc := h.coherent
  obtain ⟨name, n, hp⟩ := hc.exists_awaited hs
  cases hn : isTextName name with
  | true =>
    have hv : Session.answer s.vars (.var name) text = s.vars.set name (.text text) := by
      simp [Session.answer, nameOf, Expr.name?, hn]
    obtain ⟨u, hu, ha⟩ := deliver_answered (v := .text text) hs hp hc.stopReport trivial hv
    cases hu.symm.trans ht
    exact ⟨name, n, _, hp, ha, by simp [TakenAs, hn]⟩
  | false =>
    cases hx : Value.ofAnswer text with
    | ok x =>
      have hv : Session.answer s.vars (.var name) text = s.vars.set name (.number x) := by
        rw [answer_var hx, if_neg (by simp [hn])]
      obtain ⟨u, hu, ha⟩ := deliver_answered (v := .number x) hs hp hc.stopReport trivial hv
      cases hu.symm.trans ht
      exact ⟨name, n, _, hp, ha, by simp [TakenAs, hn, hx]⟩
    | error fault =>
      have hv : Session.answer s.vars (.var name) text = .error fault := by
        simp [Session.answer, nameOf, Expr.name?, hn, hx, Except.map]
      cases (deliver_failed hs hp hv).symm.trans ht

end Session

namespace Repl

open Session (Act Answered TakenAs)

/-- What a stage says of the session, if only these faults were raised. -/
def Stage.Fits (raised : Fault → Prop) (s : Session) : Stage → Prop
  | .command | .ended none => s.running = false
  | .driving => s.running = true
  | .ended (some fault) => raised fault

/-- What holds of the loop between any two of its rounds. -/
structure Attentive (raised : Fault → Prop) (r : Repl) : Prop where
  sound : r.session.Sound
  fits : r.stage.Fits raised r.session

section Attentive

variable {raised raised' : Fault → Prop} {r : Repl}

lemma Attentive.at_stage (h : r.Attentive raised) {stage : Stage} (hs : r.stage = stage) :
    stage.Fits raised r.session := hs ▸ h.fits

lemma Attentive.mono (h : r.Attentive raised) (hr : ∀ fault, raised fault → raised' fault) :
    r.Attentive raised' := by
  refine ⟨h.sound, ?_⟩
  cases hs : r.stage with
  | command | driving => exact h.at_stage hs
  | ended outcome =>
    cases outcome with
    | none => exact h.at_stage hs
    | some fault => exact hr fault (h.at_stage hs)

lemma attentive_askCommand (h : r.session.Sound) (hr : r.session.running = false) :
    r.askCommand.Attentive raised :=
  ⟨h, hr⟩

lemma attentive_close (h : r.session.Sound) (hr : r.session.running = false) (farewell : String) :
    (r.close farewell).Attentive raised :=
  ⟨h, hr⟩

lemma attentive_leave (h : r.session.Sound) (hr : r.session.running = false) :
    r.leave.Attentive raised :=
  attentive_close (r := r.finishLine) h hr _

lemma attentive_proceed (h : r.session.Sound) : r.proceed.Attentive raised := by
  rw [proceed]
  split
  · exact ⟨h, ‹_›⟩
  · rename_i hr
    exact attentive_askCommand h (by simpa using hr)

lemma act_error {α : Type} {call : Act α} {fault : Fault} {t : Session}
    (h : call.run r.session = .error fault t) (go : Repl → Repl) : r.act call go =
      { r with
        session := { t with events := #[] }
        console := r.console.handleAll t.events.toList
        stage := .ended (some fault) } := by
  have hx : call r.session = .error fault t := h
  rw [act, hx]
  rfl

lemma attentive_act {α : Type} {call : Act α} {go : Repl → Repl}
    (hs : (Session.after call r.session).Sound)
    (hf : ∀ fault t, call.run r.session = .error fault t → raised fault)
    (hgo : ∀ a t (r' : Repl), call.run r.session = .ok a t → r'.session = { t with events := #[] } →
      r'.session.Sound → (go r').Attentive raised) : (r.act call go).Attentive raised := by
  have hh {t : Session} (ht : t.Sound) : Session.Sound { t with events := #[] } :=
    ⟨{ ht.coherent with }, ht.plain⟩
  cases hx : call.run r.session with
  | ok a t =>
    rw [Session.after, hx] at hs
    rw [Drive.act_ok hx]
    exact hgo a t _ hx rfl (hh hs)
  | error fault t =>
    rw [Session.after, hx] at hs
    rw [act_error hx]
    exact ⟨hh hs, hf fault t hx⟩

lemma attentive_deliver (h : r.session.Sound) {text : String}
    (hf : ∀ fault t, (Session.deliver .passive text).run r.session = .error fault t → raised fault) :
    (r.deliver text).Attentive raised := by
  apply attentive_act (r := { r with console := r.console.inputReceived })
  · exact h.deliver text
  · exact hf
  · intro a t r' _ _ hs
    exact attentive_proceed hs

lemma attentive_breakOff (h : r.session.Sound) {go : Repl → Repl}
    (hgo : ∀ r' : Repl, r'.session.Sound → r'.session.running = false → (go r').Attentive raised) :
    (r.breakOff go).Attentive raised := by
  obtain ⟨u, hu, hsu, hi⟩ := h.stop (some "BREAK")
  apply attentive_act (r := r.finishLine)
  · rw [Session.after, Repl.finishLine, hu]
    exact hsu
  · intro fault t ht
    cases hu.symm.trans ht
  · intro a t r' ht hr hs
    cases hu.symm.trans ht
    apply hgo r' hs
    rw [hr]
    simp [Session.running, hi]

lemma Attentive.runBatch (h : r.Attentive raised) (interrupted : Bool) :
    (r.runBatch interrupted).Attentive raised := by
  cases interrupted with
  | true =>
    apply attentive_breakOff (r := { r with batches := r.batches + 1 }) h.sound
    intro r' hs _
    exact attentive_proceed hs
  | false =>
    obtain ⟨j, u, hu, hsu⟩ := h.sound.advanceFrom 0 r.batchSize
    apply attentive_act (r := { r with batches := r.batches + 1 })
    · rw [Session.after, Session.advance, hu]
      exact hsu
    · intro fault t ht
      cases hu.symm.trans ht
    · intro a t r' _ _ hs
      exact attentive_proceed hs

lemma want_eq_command : r.want = .command ↔ r.stage = .command := by
  cases hs : r.stage with
  | command => simp [want, hs]
  | driving => by_cases hp : r.session.phase = .awaiting <;> simp [want, hs, hp]
  | ended fault => simp [want, hs]

lemma want_eq_answer : r.want = .answer ↔ r.stage = .driving ∧ r.session.phase = .awaiting := by
  cases hs : r.stage with
  | command => simp [want, hs]
  | driving => by_cases hp : r.session.phase = .awaiting <;> simp [want, hs, hp]
  | ended fault => simp [want, hs]

/-- The session does not take a line that the loop may hand to it. -/
def Refuses (r : Repl) (input : Input) (fault : Fault) : Prop :=
  (r.want = .command ∨ r.want = .answer) ∧
    ∃ text t, input = .line text ∧ (Session.deliver .passive text).run r.session = .error fault t

lemma Attentive.feed (h : r.Attentive raised) {input : Input}
    (hf : ∀ fault, r.Refuses input fault → raised fault) : (r.feed input).Attentive raised := by
  unfold Repl.feed
  split
  · rename_i text hw
    have hr := h.at_stage (want_eq_command.mp hw)
    rw [Repl.command]
    split_ifs
    · exact attentive_close h.sound hr _
    · exact attentive_askCommand (r := { r with console := r.console.inputReceived }) h.sound hr
    · exact attentive_deliver h.sound fun fault t ht => hf fault ⟨.inl hw, text, t, rfl, ht⟩
  · rename_i hw _
    exact attentive_leave h.sound (h.at_stage (want_eq_command.mp hw))
  · rename_i text hw
    exact attentive_deliver h.sound fun fault t ht => hf fault ⟨.inr hw, text, t, rfl, ht⟩
  · apply attentive_breakOff h.sound
    intro r' hs _
    exact attentive_proceed hs
  · apply attentive_breakOff h.sound
    intro r' hs hr
    exact attentive_leave hs hr
  · exact h

lemma attentive_start {s : Session} (h : s.Sound) (hi : s.phase = .idle) (settings : Settings)
    (console : Console) : (start settings s console).Attentive
      fun fault => fault = .wrongType ∧ settings.banner.isText = false := by
  rw [start]
  split
  · apply attentive_askCommand
    · exact h
    · simp [Session.running, hi]
  · rename_i hb
    refine ⟨h, rfl, ?_⟩
    cases hv : settings.banner with
    | text banner => exact absurd hv (hb banner)
    | number | integer | truth | absent => rfl

end Attentive

namespace Drive

variable {d : Drive} {interruptions : List Nat} {raised : Fault → Prop}

/-- One round of the command loop. The batches with the given numbers are interrupted. -/
def turn (interruptions : List Nat) (d : Drive) : Drive :=
  match d.repl.want, d.inputs with
  | .nothing, _ => d
  | .batch, inputs => ⟨d.repl.runBatch (interruptions.contains (d.repl.batches + 1)), inputs⟩
  | _, [] => ⟨d.repl.feed .endOfInput, []⟩
  | _, input :: rest => ⟨d.repl.feed input, rest⟩

lemma turn_of_done (hw : d.repl.want = .nothing) : d.turn interruptions = d := by
  rw [turn, hw]

lemma play_turn (interruptions : List Nat) (d : Drive) (n : Nat) :
    play interruptions d.inputs d.repl (n + 1) =
      play interruptions (d.turn interruptions).inputs (d.turn interruptions).repl n := by
  obtain ⟨r, inputs⟩ := d
  cases hw : r.want with
  | nothing =>
    rw [turn_of_done hw]
    cases n <;> simp [play, hw]
  | batch => simp [play, turn, hw]
  | command => cases inputs <;> simp [play, turn, hw]
  | answer => cases inputs <;> simp [play, turn, hw]

lemma play_turns (interruptions : List Nat) (d : Drive) (k : Nat) :
    play interruptions d.inputs d.repl k = ((turn interruptions)^[k] d).repl := by
  induction k generalizing d with
  | zero => rfl
  | succ k ih => rw [play_turn, ih, Function.iterate_succ_apply]

def Refused (d : Drive) (fault : Fault) : Prop := ∃ input ∈ d.inputs.head?, d.repl.Refuses input fault

lemma turn_attentive (h : d.repl.Attentive raised) :
    (d.turn interruptions).repl.Attentive fun fault => raised fault ∨ d.Refused fault := by
  have h' : d.repl.Attentive fun fault => raised fault ∨ d.Refused fault :=
    h.mono fun fault hr => .inl hr
  rw [turn]
  split
  · exact h'
  · exact h'.runBatch _
  · apply h'.feed
    rintro fault ⟨-, text, t, ⟨⟩, -⟩
  · rename_i input rest hi _ _
    apply h'.feed
    intro fault hf
    exact .inr ⟨input, by simp [hi], hf⟩

lemma turns_attentive (h : d.repl.Attentive raised) (k : Nat) :
    ((turn interruptions)^[k] d).repl.Attentive fun fault =>
      raised fault ∨ ∃ j < k, ((turn interruptions)^[j] d).Refused fault := by
  induction k with
  | zero => exact h.mono fun fault hr => .inl hr
  | succ k ih =>
    rw [Function.iterate_succ_apply']
    refine (turn_attentive ih).mono ?_
    rintro fault ((hr | ⟨j, hj, hr⟩) | hr)
    · exact .inl hr
    · exact .inr ⟨j, Nat.lt_succ_of_lt hj, hr⟩
    · exact .inr ⟨k, Nat.lt_succ_self k, hr⟩

lemma turn_answer (hw : d.repl.want = .answer) {text : String} {rest : List Input}
    (hi : d.inputs = .line text :: rest) {t : Session}
    (ht : (Session.deliver .passive text).run d.repl.session = .ok () t) :
    (d.turn interruptions).inputs = rest ∧
      (d.turn interruptions).repl.session = { t with events := #[] } := by
  have hn : d.turn interruptions = ⟨d.repl.deliver text, rest⟩ := by
    simp [turn, hw, hi, feed]
  have hx := act_ok (r := { d.repl with console := d.repl.console.inputReceived }) ht proceed
  rw [hn]
  refine ⟨rfl, ?_⟩
  rw [Repl.deliver, hx, proceed]
  split <;> rfl

end Drive

/-- The prompt for a command is shown only while nothing runs. What is read without one answers the
`INPUT` that waits, and the loop is never left behind a run that goes on. -/
theorem command_asked_only_at_rest {depth : Nat} {s : Session} (h : s.Reachable depth) (hi : s.phase = .idle)
    (settings : Settings) (console : Console) (interruptions : List Nat) (inputs : List Input) (k : Nat) :
    let turn := Drive.turn interruptions
    let start : Drive := ⟨start settings s console, inputs⟩
    let d := turn^[k] start
    d.repl = play interruptions inputs start.repl k ∧
    (d.repl.want = .command → d.repl.session.running = false) ∧
    (d.repl.want = .answer → d.repl.session.phase = .awaiting ∧
      ∀ text rest t, d.inputs = .line text :: rest →
        (Session.deliver .passive text).run d.repl.session = .ok () t →
        (turn d).inputs = rest ∧ (turn d).repl.session = { t with events := #[] } ∧
        ∃ name n v, d.repl.session.pending = some ⟨.var name, n, d.repl.session.pc + 1⟩ ∧
          Answered d.repl.session t name text v ∧ TakenAs name text v) ∧
    (d.repl.stage = .ended none → d.repl.session.running = false) ∧
    ∀ fault, d.repl.stage = .ended (some fault) →
      (fault = .wrongType ∧ settings.banner.isText = false) ∨ ∃ j < k, (turn^[j] start).Refused fault := by
  intro turn start d
  have ha : d.repl.Attentive _ :=
    Drive.turns_attentive (attentive_start h.sound hi settings console) k
  refine ⟨(Drive.play_turns interruptions start k).symm, fun hw => ?_, fun hw => ?_, ha.at_stage,
    fun fault => ha.at_stage⟩
  · exact ha.at_stage (want_eq_command.mp hw)
  · have hp := (want_eq_answer.mp hw).2
    refine ⟨hp, fun text rest t hl ht => ?_⟩
    obtain ⟨hr, hs⟩ := Drive.turn_answer hw hl ht
    exact ⟨hr, hs, ha.sound.deliver_taken hp ht⟩

def questioned : Drive :=
  (Drive.turn [])^[2] ⟨start {} Session.parrot {}, [.line "RUN", .line "exit"]⟩

lemma questioned_sound : questioned.repl.session.Sound :=
  (Drive.turns_attentive (attentive_start Session.parrot_reachable.sound (by decide +kernel) {} {}) 2).sound

theorem farewell_taken_as_answer : questioned.repl.want = .answer ∧
    (questioned.turn []).repl.session.vars.find? "A$" = some (.text "exit") ∧
    (questioned.turn []).inputs = [] := by
  have hi : Session.parrot.phase = .idle := by decide +kernel
  have hw : questioned.repl.want = .answer := by decide +kernel
  have hl : questioned.inputs = [.line "exit"] := by decide +kernel
  have hn : questioned.repl.session.pending.map (·.target.name?) = some (some "A$") := by decide +kernel
  have hx : ∃ x, Value.ofAnswer "exit" = .ok x := by
    have hl : Number.leading? "exit".toList = none := by decide +kernel
    exact ⟨0.0, by simp only [Value.ofAnswer, hl]⟩
  obtain ⟨t, ht, -⟩ := questioned_sound.answer (want_eq_answer.mp hw).2 hx
  obtain ⟨-, -, hask, -, -⟩ :=
    command_asked_only_at_rest Session.parrot_reachable hi {} {} [] [.line "RUN", .line "exit"] 2
  obtain ⟨hr, hs, name, n, v, hp, ha, hv⟩ := (hask hw).2 "exit" [] t hl ht
  have hp' : questioned.repl.session.pending = _ := hp
  obtain rfl : name = "A$" := by simpa [hp', Expr.name?] using hn
  obtain rfl : v = .text "exit" := by
    have hd : isTextName "A$" = true := by decide
    simpa [TakenAs, hd] using hv
  have hs' : (questioned.turn []).repl.session = { t with events := #[] } := hs
  refine ⟨hw, ?_, hr⟩
  rw [hs']
  exact ha.bound

end Repl

end LineBasic
