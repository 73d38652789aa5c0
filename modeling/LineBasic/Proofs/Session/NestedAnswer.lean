import LineBasic.Proofs.Session.Coherence

/-! A host that answers a question from inside the call that asks it. The answer is taken, but the
step that asked goes on as if it had not: it leaves out the line that follows. -/

namespace LineBasic.Session

namespace Host

/-- Nothing happens inside a call unless it asks a question. -/
def Listens (host : Host) : Prop := ∀ e : Event, e.kind ≠ .request → host.respond e = pure ()

structure Answers (host : Host) (text : String) : Prop where
  listens : host.Listens
  answers : ∀ prompt, host.respond (.request prompt) = deliver host text

end Host

section Listening

variable {host : Host}

lemma emit_eq (h : host.Listens) {e : Event} (he : e.kind ≠ .request) : emit host e = emit .passive e := by
  simp only [emit, h e he, Host.passive]

lemma emit_line_eq (h : host.Listens) (text : String) :
    emit host (.line text) = emit .passive (.line text) := emit_eq h (by simp [Event.kind])

lemma finish_eq (h : host.Listens) : finish host = finish .passive := by
  simp only [finish, ready, emit_line_eq h]

lemma submit_eq (h : host.Listens) (text : String) : submit host text = submit .passive text := by
  have ha : emit host (.append text) = emit .passive (.append text) := emit_eq h (by simp [Event.kind])
  simp only [submit, ha, finish_eq h]

lemma run_eq (h : host.Listens) : run host = run .passive := by
  simp only [run, compile, ready, emit_line_eq h, finish_eq h]

lemma emitLines_eq (h : host.Listens) (texts : List String) :
    emitLines host texts = emitLines .passive texts := by
  induction texts with
  | nil => rfl
  | cons text texts ih => simp only [emitLines, emit_line_eq h, ih]

lemma command_eq (h : host.Listens) (code : String) : command host code = command .passive code := by
  have hc : emit host .clear = emit .passive .clear := emit_eq h (by simp [Event.kind])
  simp only [command, run_eq h, ready, emit_line_eq h, emitLines_eq h, hc]

lemma deliver_eq (h : host.Listens) (text : String) : deliver host text = deliver .passive text := by
  have hr : reportCommand host = reportCommand .passive := by
    funext d
    simp only [reportCommand, ready, emit_line_eq h]
  simp only [deliver, submit_eq h, emit_line_eq h, command_eq h, hr]

end Listening

def answered (s : Session) (n : Int) (prompt : String) (target : Expr) (text : String) (vars : Variables) :
    Session :=
  { (s.asked n prompt target).echoed (.append text) with vars, pending := none, phase := .executing }

variable {s : Session} {n : Int} {prompt : Option Expr} {target : Expr} {shown text : String}
  {vars : Variables}

lemma deliver_asked (ha : answer s.vars target text = .ok vars) :
    (deliver .passive text).run (s.asked n shown target) =
      .ok () (moveTo (s.answered n shown target text vars) (s.pc + 1)) := by
  have he : answer ((s.asked n shown target).echoed (.append text)).vars target text = .ok vars := ha
  rw [deliver_of_awaiting rfl, submit_passive rfl rfl, accept_passive, he]
  rfl

lemma emit_request {host : Host} (hh : host.Answers text) (s : Session) :
    (emit host (.request shown)).run s = (deliver .passive text).run (s.record (.request shown)) := by
  simp [emit, hh.answers, deliver_eq hh.listens]

lemma execute_answering {host : Host} (hh : host.Answers text) (hp : promptOf s.vars prompt = .ok shown)
    (ha : answer s.vars target text = .ok vars) : (execute host n (.input prompt target)).run s =
      .ok none (moveTo (s.answered n shown target text vars) (s.pc + 1)) := by
  have hd := @deliver_asked s n target shown text vars ha
  simp only [asked] at hd
  simp [execute, emit_line_eq hh.listens, promptText_run, hp, emit_request hh, record, hd]

lemma executeAt_answering {host : Host} (hh : host.Answers text) (hp : promptOf s.vars prompt = .ok shown)
    (ha : answer s.vars target text = .ok vars) : (executeAt host n (.input prompt target)).run s =
      .ok false { moveTo (s.answered n shown target text vars) (s.pc + 1) with pc := s.pc + 2 } := by
  have hw : (moveTo (s.answered n shown target text vars) (s.pc + 1)).phase ≠ .awaiting := by
    rw [moveTo_phase]
    split <;> simp [answered]
  simp [executeAt, execute_answering hh hp ha, hw, moveTo_pc]

/-- The step goes on from the place that the answer has gone on to. -/
lemma step_answering {host : Host} (hs : s.phase = .executing) (hq : s.stopRequested = false)
    (hn : s.order[s.pc]? = some n) (hf : Numbered.find? n s.compiled = some (.input prompt target))
    (hh : host.Answers text) (hp : promptOf s.vars prompt = .ok shown)
    (ha : answer s.vars target text = .ok vars) : (step host).run s =
      .ok () (moveTo { moveTo (answered { s with stepping := true } n shown target text vars) (s.pc + 1) with
        stepping := false } (s.pc + 2)) := by
  rw [step_run hs hq hn hf]
  have hx := @executeAt_answering { s with stepping := true } n prompt target shown text vars host hh hp ha
  have hm := moveTo_stopRequested (s := answered { s with stepping := true } n shown target text vars)
    (s.pc + 1) hq
  generalize moveTo (answered { s with stepping := true } n shown target text vars) (s.pc + 1) = v at hx hm ⊢
  by_cases hz : v.order.size ≤ s.pc + 2 <;>
    simp [hx, hm, atEnd, hz, moveTo, finish_eq hh.listens, finish_passive]

lemma step_unasked {host : Host} (hs : s.phase = .executing) (hq : s.stopRequested = false)
    (hn : s.order[s.pc]? = some n) (hf : Numbered.find? n s.compiled = some (.input prompt target))
    (hh : host.Listens) {fault : Fault} (hp : promptOf s.vars prompt = .error fault) :
    (step host).run s = (step .passive).run s := by
  have hx (host : Host) : (executeAt host n (.input prompt target)).run { s with stepping := true } =
      .error fault { s with stepping := true } := by
    simp [executeAt, execute, promptText_run, hp]
  have hr : reportAt host n = reportAt .passive n := by
    funext d
    simp only [reportAt, emit_line_eq hh]
  rw [step_run hs hq hn hf, step_run hs hq hn hf, finish_eq hh, hr]
  simp only [EStateM.run_bind, run_ensuring, run_reporting, hx]

lemma exists_answer (ht : ∃ x, Value.ofAnswer text = .ok x) (vars : Variables) (name : String) :
    ∃ vars', answer vars (.var name) text = .ok vars' := by
  obtain ⟨x, hx⟩ := ht
  refine ⟨_, (answer_var hx vars name).trans (Variables.set_of_plain vars name ?_)⟩
  split <;> trivial

lemma step_then_answer (hs : s.phase = .executing) (hq : s.stopRequested = false)
    (hn : s.order[s.pc]? = some n) (hf : Numbered.find? n s.compiled = some (.input prompt target))
    (hp : promptOf s.vars prompt = .ok shown) (ha : answer s.vars target text = .ok vars) :
    (do step .passive; deliver .passive text).run s =
      .ok () (moveTo (answered { s with stepping := false } n shown target text vars) (s.pc + 1)) := by
  have he : effect s.vars (.input prompt target) = .ok (.ask shown target) := by simp [effect, hp]
  rw [EStateM.run_bind, step_passive hs hq hn hf, he]
  exact deliver_asked (s := { s with stepping := false }) ha

lemma moveTo_past {w : Session} (hs : w.phase = .executing) (hp : w.pending = none)
    (hr : w.stopReport = none) (pc : Nat) :
    let t := moveTo { w with stepping := false } pc
    let u := moveTo { moveTo { w with stepping := true } pc with stepping := false } (pc + 1)
    u.vars = t.vars ∧ t.pending = none ∧ u.pending = none ∧
      t.phase = (if pc < w.order.size then .executing else .idle) ∧
      u.phase = (if pc + 1 < w.order.size then .executing else .idle) ∧
      u.events = (if pc + 1 < w.order.size then t.events else t.events.push ready) ∧
      (u.phase = t.phase ∧ u.events = t.events ↔ pc + 1 < w.order.size) := by
  -- The second move stays within the lines, ends the run, or ends it once more.
  rcases lt_trichotomy (pc + 1) w.order.size with h | h | h
  · have h₁ : pc < w.order.size := by omega
    simp [moveTo, Nat.not_le.mpr h₁, Nat.not_le.mpr h, hs, hp, h₁, h]
  · simp [moveTo, finished, hs, hp, hr, ← h]
  · have h₁ : w.order.size ≤ pc := by omega
    have h₂ : w.order.size ≤ pc + 1 := by omega
    simp [moveTo, h₁, h₂, finished, hr, Nat.not_lt.mpr h₁, Nat.not_lt.mpr h₂]

theorem step_answering_host {depth : Nat} (h : Reachable depth s) (hs : s.phase = .executing)
    (hn : s.order[s.pc]? = some n)
    (hf : Numbered.find? n s.compiled = some (.input prompt target)) {host : Host}
    (hh : host.Answers text) (ht : ∃ x, Value.ofAnswer text = .ok x) :
    (∀ fault, promptOf s.vars prompt = .error fault → (step host).run s = (step .passive).run s) ∧
    ∀ shown, promptOf s.vars prompt = .ok shown → ∃ t u,
      (do step .passive; deliver .passive text).run s = .ok () t ∧ (step host).run s = .ok () u ∧
      t.pc = s.pc + 1 ∧ u.pc = s.pc + 2 ∧ u.vars = t.vars ∧ t.pending = none ∧ u.pending = none ∧
      t.phase = (if s.pc + 1 < s.order.size then .executing else .idle) ∧
      u.phase = (if s.pc + 2 < s.order.size then .executing else .idle) ∧
      u.events = (if s.pc + 2 < s.order.size then t.events else t.events.push ready) ∧
      (u.phase = t.phase ∧ u.events = t.events ↔ s.pc + 2 < s.order.size) := by
  have hc := h.coherent
  have hq := hc.stopRequested
  refine ⟨fun fault hp => step_unasked hs hq hn hf hh.listens hp, fun shown hp => ?_⟩
  -- Only variables are asked for, so that an answer that is worth something can be kept.
  obtain ⟨name, rfl⟩ : ∃ name, target = .var name := by
    obtain ⟨code, -, hl⟩ := compileLines_find? hc.ascending (hc.executing hs).1.1 hf
    exact (Parse.compileLine_plain hl).1
  obtain ⟨vars, ha⟩ := exists_answer ht s.vars name
  exact ⟨_, _, step_then_answer hs hq hn hf hp ha, step_answering hs hq hn hf hh hp ha,
    moveTo_pc _, moveTo_pc _,
    moveTo_past (w := s.answered n shown (.var name) text vars) rfl rfl hc.stopReport (s.pc + 1)⟩

def Host.answering (text : String) : Host :=
  ⟨fun
    | .request _ => deliver .passive text
    | _ => pure ()⟩

lemma Host.answering_answers (text : String) : (Host.answering text).Answers text := by
  have hl : (Host.answering text).Listens := by
    intro e he
    cases e with
    | request prompt => exact absurd rfl he
    | _ => rfl
  exact ⟨hl, fun _ => (deliver_eq hl text).symm⟩

lemma parrot_running : (after (run .passive) parrot).phase = .executing ∧
    (after (run .passive) parrot).pc = 0 ∧
    (after (run .passive) parrot).order[(after (run .passive) parrot).pc]? = some 10 :=
  ⟨by decide +kernel, by decide +kernel, by decide +kernel⟩

lemma parrot_input :
    Numbered.find? 10 (after (run .passive) parrot).compiled = some (.input none (.var "A$")) := by
  cbv

theorem parrot_answering_host : ∃ t u,
    (do step .passive; deliver .passive "hi").run (after (run .passive) parrot) = .ok () t ∧
    (step (.answering "hi")).run (after (run .passive) parrot) = .ok () u ∧ t.pc = 1 ∧ u.pc = 2 := by
  obtain ⟨hs, hpc, hn⟩ := parrot_running
  obtain ⟨t, u, ht, hu, htp, hup, -⟩ := (step_answering_host (parrot_reachable.call .run) hs hn
    parrot_input (Host.answering_answers "hi") ofAnswer_hi).2 "? " rfl
  exact ⟨t, u, ht, hu, by rw [htp, hpc], by rw [hup, hpc]⟩

theorem nested_answer_not_equivalent : ¬ ∀ (depth : Nat) (s : Session) (host : Host) (text : String)
    (n : Int) (prompt : Option Expr) (target : Expr), Reachable depth s → s.phase = .executing →
    s.order[s.pc]? = some n → Numbered.find? n s.compiled = some (.input prompt target) →
    host.Answers text → (∃ x, Value.ofAnswer text = .ok x) →
    let t := after (do step .passive; deliver .passive text) s
    let u := after (step host) s
    u.pc = t.pc ∧ u.phase = t.phase ∧ u.vars = t.vars ∧ u.pending = t.pending ∧ u.events = t.events := by
  intro h
  obtain ⟨hs, -, hn⟩ := parrot_running
  have hpc := (h 240 _ (.answering "hi") "hi" 10 none (.var "A$") (parrot_reachable.call .run) hs hn
    parrot_input (Host.answering_answers "hi") ofAnswer_hi).1
  revert hpc
  decide +kernel

end LineBasic.Session
