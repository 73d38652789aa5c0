import LineBasic.Proofs.Session.Calls
import LineBasic.Runner

/-! What clients, the queue of jobs and the clock do to a runner, in any order. Whatever the order, a
run that goes on has its one drive task, and a task that waits without a wake signal waits for an
answer. -/

namespace LineBasic.Runner

inductive Move
  | submit (text : String)
  | stop
  | job
  | expire

def work (r : Runner) : Runner :=
  match r.queue with
  | [] => r
  | job :: rest => runJob .passive { r with queue := rest } job

def move (r : Runner) : Move → Runner
  | .submit text => (r.receive .passive text).2
  | .stop => (r.stop .passive).2
  | .job => r.work
  | .expire => r.expire

def moves (r : Runner) (ms : List Move) : Runner := ms.foldl move r

inductive Reached : Runner → Prop
  | start {depth : Nat} {s : Session} {limit : Limit} (h : s.Reachable depth) (hs : s.phase = .idle)
      (hl : limit ≠ .unusable) : Reached { session := s, limit }
  | move {r : Runner} (h : Reached r) (m : Move) : Reached (r.move m)

lemma Reached.moves {r : Runner} (h : Reached r) (ms : List Move) : Reached (r.moves ms) := by
  induction ms generalizing r with
  | nil => exact h
  | cons m ms ih => exact ih (h.move m)

def Stage.Waits : Stage → Prop
  | .parked _ | .waiting _ | .closing .. => True
  | _ => False

def Stage.Calm : Stage → Prop
  | .parked signal | .waiting signal => signal ≠ .cancelled
  | .closing reason signal => reason = .expired ∧ signal ≠ .cancelled
  | _ => True

def Task.Calm (t : Task) : Prop := t.cancelRequested = false ∧ t.stage.Calm

/-- What holds whatever the drive task does. -/
structure Served (r : Runner) : Prop where
  sound : r.session.Sound
  limit : r.limit ≠ .unusable
  client : r.client = .free
  alone : ∀ t ∈ r.former, t.isAlive = false

structure Orderly (r : Runner) : Prop extends Served r where
  calm : ∀ t ∈ r.task, t.Calm
  driven : r.session.running = true → r.active = true
  woken : ∀ t ∈ r.task, t.stage.Waits → r.wake = false → r.session.phase = .awaiting

variable {r : Runner}

lemma Served.conclude (h : Served r) (outcome : Outcome) :
    r.conclude outcome = r.enter (.ended outcome) := by
  simp [Runner.conclude, enter, h.client]

section Turn

lemma active_enter (r : Runner) {stage : Stage} (h : Task.isAlive { stage } = true) :
    (r.enter stage).active = true := by
  simpa [active, enter] using h

lemma Served.enter (h : Served r) (stage : Stage) (ha : Task.isAlive { stage } = true) (hc : stage.Calm)
    (hw : stage.Waits → r.wake = false → r.session.phase = .awaiting) : Orderly (r.enter stage) := by
  refine { h with calm := ?_, driven := fun _ => active_enter r ha, woken := ?_ }
  · rintro t ⟨⟩
    exact ⟨rfl, hc⟩
  · rintro t ⟨⟩
    exact hw

lemma Served.ended (h : Served r) (hs : r.session.running = false) (outcome : Outcome) :
    Orderly (r.enter (.ended outcome)) := by
  refine { h with calm := ?_, driven := fun hr => ?_, woken := ?_ }
  · rintro t ⟨⟩
    exact ⟨rfl, trivial⟩
  · exact absurd (hs.symm.trans hr) Bool.false_ne_true
  · rintro t ⟨⟩ hw
    exact hw.elim

lemma Orderly.enqueue (h : Orderly r) (job : Job) : Orderly (r.enqueue job) := { h with }

lemma Served.park_never (h : Served r) (hl : r.limit = .never) :
    r.park = { r with wake := false, requested := true }.enter (.parked .pending) := by
  simp [Runner.park, Runner.request, h.client, hl]

lemma Served.park_limited (h : Served r) (hl : r.limit ≠ .never) :
    r.park = ({ r with
      wake := false
      requested := true
      wait := r.wait + 1
      listener := { cancelRequested := r.limit = Limit.atOnce } }.enqueue (.listen (r.wait + 1))).enter
        (if r.limit = Limit.atOnce then .closing .expired .pending else .waiting .pending) := by
  cases hc : r.limit with
  | never => exact absurd hc hl
  | unusable => exact absurd hc h.limit
  | later | atOnce => simp [Runner.park, Runner.request, h.client, hc]

lemma Served.park (h : Served r) (hs : r.session.phase = .awaiting) : Orderly r.park := by
  by_cases hl : r.limit = .never
  · rw [h.park_never hl]
    apply Served.enter
    · exact { h with }
    · rfl
    · simp [Stage.Calm]
    · exact fun _ _ => hs
  · rw [h.park_limited hl]
    apply Served.enter
    · exact { h with }
    · split <;> rfl
    · split <;> simp [Stage.Calm]
    · exact fun _ _ => hs

lemma Served.iterate_cases (h : Served r) :
    (r.session.running = false ∧ iterate .passive r = r.enter (.ended .finished)) ∨
    (r.session.phase = .awaiting ∧ iterate .passive r = r.park) ∨
    (r.session.phase = .executing ∧ ∃ t, (Session.step .passive).run r.session = .ok () t ∧ t.Sound ∧
      iterate .passive r =
        ({ r with session := t, steps := r.steps + 1 }.enter .yielded).enqueue .drive) := by
  cases hr : r.session.running with
  | false => exact .inl ⟨rfl, by simp [iterate, hr, h.conclude]⟩
  | true =>
    refine .inr ?_
    by_cases hs : r.session.phase = .awaiting
    · exact .inl ⟨hs, by simp [iterate, hr, hs]⟩
    · obtain ⟨t, ht, hst⟩ := h.sound.step
      have hx : Session.step .passive r.session = .ok () t := ht
      exact .inr ⟨by simpa [Session.running, hs] using hr, t, ht, hst, by simp [iterate, hr, hs, hx]⟩

lemma Served.iterate (h : Served r) : Orderly (iterate .passive r) := by
  rcases h.iterate_cases with ⟨hs, hx⟩ | ⟨hs, hx⟩ | ⟨-, t, -, hst, hx⟩
  · rw [hx]
    exact h.ended hs _
  · rw [hx]
    exact h.park hs
  · rw [hx]
    apply Orderly.enqueue
    apply Served.enter
    · exact { h with sound := hst }
    · rfl
    · trivial
    · exact fun hw => hw.elim

lemma Served.timeOut_eq (h : Served r) : ∃ t, (Session.stop .passive (some "INPUT TIMEOUT")).run r.session =
    .ok () t ∧ t.Sound ∧ t.phase = .idle ∧
      timeOut .passive r = { r with session := t }.enter (.ended .finished) := by
  obtain ⟨t, ht, hst, hp⟩ := h.sound.stop (some "INPUT TIMEOUT")
  have hx : Session.stop .passive (some "INPUT TIMEOUT") r.session = .ok () t := ht
  have hr : Served { r with session := t } := { h with sound := hst }
  refine ⟨t, ht, hst, hp, ?_⟩
  rw [timeOut, hx]
  simp [Runner.iterate, Session.running, hp, hr.conclude]

lemma Served.abandon_eq (h : Served r) : ∃ t, (Session.stop .passive (some "BREAK")).run r.session =
    .ok () t ∧ t.Sound ∧ t.phase = .idle ∧
      abandon .passive r = { r with session := t }.enter (.ended .cancelled) := by
  obtain ⟨t, ht, hst, hp⟩ := h.sound.stop (some "BREAK")
  have hx : Session.stop .passive (some "BREAK") r.session = .ok () t := ht
  have hr : Served { r with session := t } := { h with sound := hst }
  refine ⟨t, ht, hst, hp, ?_⟩
  rw [abandon, hx]
  simp [hr.conclude]

inductive Turned (r : Runner) : Runner → Prop
  | none (h : r.active = false) : Turned r r
  | onward {t : Task} (asked : Bool) (h : r.task = some t)
      (hl : (∃ signal, t.stage = .waiting signal ∨ t.stage = .closing .expired signal) →
        r.listener.hearing = .heard) (hq : asked = true → r.requested = true ∧ ¬ t.stage.Waits) :
      Turned r (iterate .passive { r with requested := asked })
  | close {signal : Signal} (h : r.task = some ⟨.waiting signal, false⟩) (hl : r.listener.isDone = false) :
      Turned r (r.close .expired)
  | timeOut {signal : Signal} (h : r.task = some ⟨.closing .expired signal, false⟩)
      (hl : r.listener.hearing ≠ .heard) : Turned r (timeOut .passive { r with requested := false })
  | abandon {signal : Signal} (h : r.task = some ⟨.waiting signal, false⟩)
      (hl : r.listener.hearing = .silenced) : Turned r (abandon .passive { r with requested := false })

lemma turn_turned (hc : ∀ t ∈ r.task, t.Calm) : Turned r (turn .passive r) := by
  obtain ⟨session, limit, wake, requested, steps, task, former, wait, listener, client, queue⟩ := r
  rcases task with _ | ⟨stage, cancelled⟩
  · exact .none rfl
  · obtain ⟨rfl, hs⟩ := hc _ rfl
    cases stage with
    | ended outcome => exact .none rfl
    | fresh | yielded => exact .onward requested rfl (by simp) fun hq => ⟨hq, id⟩
    | parked signal =>
      simp only [turn, Bool.false_or, decide_eq_true_eq, if_neg (show signal ≠ .cancelled from hs)]
      exact .onward false rfl (by simp) nofun
    | waiting signal =>
      simp only [turn, Bool.false_or, decide_eq_true_eq, if_neg (show signal ≠ .cancelled from hs)]
      cases hd : listener.isDone with
      | false => exact .close rfl hd
      | true =>
        by_cases hh : listener.hearing = .heard
        · simp only [leave, hh, if_true]
          exact .onward false rfl (fun _ => hh) nofun
        · simp only [leave, hh, if_true, if_false]
          exact .abandon rfl (by simpa [Listener.isDone, hh] using hd)
    | closing reason signal =>
      obtain ⟨rfl, hs'⟩ := hs
      simp only [turn, Bool.false_or, decide_eq_true_eq, if_neg hs', leave]
      by_cases hh : listener.hearing = .heard
      · simp only [hh, if_true]
        exact .onward false rfl (fun _ => hh) nofun
      · simp only [hh, if_false]
        exact .timeOut rfl hh

lemma Orderly.close (h : Orderly r) {signal : Signal} (ht : r.task = some ⟨.waiting signal, false⟩) :
    Orderly (r.close .expired) := by
  have hc : Orderly (r.enter (.closing .expired .pending)) := by
    apply h.toServed.enter
    · rfl
    · simp [Stage.Calm]
    · exact fun _ => h.woken _ ht trivial
  simp only [Runner.close]
  split
  · exact { hc with }
  · exact { hc with }

lemma Orderly.turn (h : Orderly r) : Orderly (turn .passive r) := by
  have ht := turn_turned h.calm
  generalize Runner.turn .passive r = r' at ht
  have hq : Served { r with requested := false } := { h with }
  cases ht with
  | none => exact h
  | onward asked => exact Served.iterate { h with }
  | close ht => exact h.close ht
  | timeOut =>
    obtain ⟨t, -, hst, hp, hx⟩ := hq.timeOut_eq
    rw [hx]
    apply Served.ended
    · exact { hq with sound := hst }
    · simp [Session.running, hp]
  | abandon =>
    obtain ⟨t, -, hst, hp, hx⟩ := hq.abandon_eq
    rw [hx]
    apply Served.ended
    · exact { hq with sound := hst }
    · simp [Session.running, hp]

end Turn

section Jobs

lemma Orderly.hear (h : Orderly r) (hearing : Hearing) : Orderly (r.hear hearing) := { h with }

lemma Orderly.listen (h : Orderly r) : Orderly r.listen := by
  rw [Runner.listen]
  split
  · split_ifs
    · exact h.hear _
    · exact h.hear _
    · exact { h with }
  · split_ifs <;> exact h.hear _
  · exact h.hear _
  all_goals exact h

lemma Orderly.signal (h : Orderly r) {stage stage' : Stage} {cancelled : Bool}
    (ht : r.task = some ⟨stage, cancelled⟩) (hw : stage.Waits) (ha : Task.isAlive { stage := stage' } = true)
    (hc : stage'.Calm) : Orderly { r with task := some ⟨stage', cancelled⟩ } := by
  obtain ⟨rfl, -⟩ := h.calm _ ht
  exact h.toServed.enter stage' ha hc fun _ => h.woken _ ht hw

lemma Orderly.release (h : Orderly r) : Orderly r.release := by
  rw [Runner.release]
  split
  · rename_i ht
    apply Orderly.enqueue
    exact h.signal ht trivial rfl (by simp [Stage.Calm])
  · rename_i reason cancelled ht
    obtain ⟨-, rfl, -⟩ := h.calm _ ht
    apply Orderly.enqueue
    exact h.signal ht trivial rfl (by simp [Stage.Calm])
  · exact h

lemma Orderly.expire (h : Orderly r) : Orderly r.expire := by
  rw [Runner.expire]
  split
  · exact h.release
  · exact h

inductive Worked (r : Runner) : Runner → Prop
  | none (h : r.queue = []) : Worked r r
  | drive {rest : List Job} (h : r.queue = .drive :: rest) :
      Worked r (turn .passive { r with queue := rest })
  | listen {rest : List Job} (h : r.queue = .listen r.wait :: rest) :
      Worked r (listen { r with queue := rest })
  | release {rest : List Job} (h : r.queue = .release r.wait :: rest) :
      Worked r (release { r with queue := rest })
  | skip {job : Job} {rest : List Job} (h : r.queue = job :: rest) (hd : job ≠ .drive)
      (hl : job ≠ .listen r.wait) (hr : job ≠ .release r.wait) : Worked r { r with queue := rest }

lemma Served.worked (h : Served r) : Worked r r.work := by
  rw [Runner.work]
  split
  · exact .none ‹_›
  · rename_i job rest hq
    have hs (hd : job ≠ .drive) (hl : job ≠ .listen r.wait) (hr : job ≠ .release r.wait) :
        Worked r { r with queue := rest } := .skip hq hd hl hr
    cases job with
    | drive => exact .drive hq
    | listen n =>
      by_cases hn : n = r.wait
      · subst hn
        simpa [runJob] using Worked.listen hq
      · simpa [runJob, hn] using hs
    | release n =>
      by_cases hn : n = r.wait
      · subst hn
        simpa [runJob] using Worked.release hq
      · simpa [runJob, hn] using hs
    | watch => simpa [runJob, watch, h.client] using hs
    | notice => simpa [runJob, notify, h.client] using hs
    | client => simpa [runJob, h.client] using hs

lemma Orderly.work (h : Orderly r) : Orderly r.work := by
  have hx := h.worked
  generalize r.work = r' at hx
  cases hx with
  | none => exact h
  | drive =>
    apply Orderly.turn
    exact { h with }
  | listen =>
    apply Orderly.listen
    exact { h with }
  | release =>
    apply Orderly.release
    exact { h with }
  | skip => exact { h with }

end Jobs

section Calls

lemma rouse_wake (r : Runner) : r.rouse.wake = true := by
  simp only [rouse]
  split
  · assumption
  · split <;> split <;> rfl

lemma rouse_frame (r : Runner) : r.rouse.session = r.session ∧ r.rouse.limit = r.limit ∧
    r.rouse.client = r.client ∧ r.rouse.former = r.former ∧ r.rouse.wait = r.wait := by
  simp only [rouse]
  split
  · exact ⟨rfl, rfl, rfl, rfl, rfl⟩
  · split <;> split <;> exact ⟨rfl, rfl, rfl, rfl, rfl⟩

lemma rouse_task (r : Runner) : r.rouse.task = r.task ∨ ∃ cancelled,
    r.task = some ⟨.parked .pending, cancelled⟩ ∧ r.rouse.task = some ⟨.parked .given, cancelled⟩ := by
  simp only [rouse]
  split
  · exact .inl rfl
  · split
    · rename_i ht
      refine .inr ⟨_, ?_, rfl⟩
      split_ifs at ht <;> exact ht
    · refine .inl ?_
      split_ifs <;> rfl

lemma rouse_active (r : Runner) : r.rouse.active = r.active := by
  rcases rouse_task r with h | ⟨cancelled, h, h'⟩
  · simp [active, h]
  · simp [active, h, h', Task.isAlive]

lemma Served.rouse (h : Served r) (hc : ∀ t ∈ r.task, t.Calm)
    (ha : r.session.running = true → r.active = true) : Orderly r.rouse := by
  obtain ⟨hs, hl, hcl, hf, -⟩ := rouse_frame r
  have hw := rouse_wake r
  refine ⟨⟨hs ▸ h.sound, hl ▸ h.limit, hcl.trans h.client, hf ▸ h.alone⟩, fun t ht => ?_, fun hr => ?_,
    fun t ht _ hn => by simp [hw] at hn⟩
  · rcases rouse_task r with hx | ⟨cancelled, hx, hx'⟩
    · exact hc t (hx ▸ ht)
    · rw [hx'] at ht
      cases ht
      exact ⟨(hc _ hx).1, by simp [Stage.Calm]⟩
  · rw [rouse_active]
    exact ha (hs ▸ hr)

inductive Received (r : Runner) (text : String) : Runner → Prop
  | refused {fault : Fault} {e : Event}
      (h : (Session.deliver .passive text).run r.session = .error fault (r.session.echoed e)) :
      Received r text { r with session := r.session.echoed e }
  | woken {s : Session} (h : (Session.deliver .passive text).run r.session = .ok () s)
      (ha : r.active = true) : Received r text { r with session := s, requested := false }.rouse
  | launched {s : Session} (h : (Session.deliver .passive text).run r.session = .ok () s)
      (ha : r.active = false) (hs : s.phase = .executing) :
      Received r text { r with session := s }.launch
  | kept {s : Session} (h : (Session.deliver .passive text).run r.session = .ok () s)
      (ha : r.active = false) (hs : s.phase ≠ .executing) : Received r text { r with session := s }

lemma receive_received (h : r.session.Coherent) (text : String) :
    Received r text (r.receive .passive text).2 := by
  rw [receive]
  split
  · rename_i fault t ht
    obtain ⟨e, rfl⟩ := Session.deliver_error h ht
    exact .refused ht
  · rename_i t ht
    cases ha : r.active with
    | true =>
      have ha' : active { r with session := t } = true := ha
      simp only [ha', if_true]
      exact .woken ht ha
    | false =>
      have ha' : active { r with session := t } = false := ha
      simp only [ha', Bool.false_eq_true, if_false]
      split_ifs with hs
      · exact .launched ht ha hs
      · exact .kept ht ha hs

lemma Orderly.receive (h : Orderly r) (text : String) : Orderly (r.receive .passive text).2 := by
  have hx := receive_received h.sound.coherent text
  generalize (r.receive .passive text).2 = r' at hx
  have hd := h.sound.deliver text
  cases hx with
  | refused hf =>
    rw [Session.after, hf] at hd
    exact { h with sound := hd }
  | woken hs ha =>
    rw [Session.after, hs] at hd
    exact Served.rouse { h with sound := hd } h.calm fun _ => ha
  | launched hs ha hp =>
    rw [Session.after, hs] at hd
    apply Orderly.enqueue
    apply Served.enter
    · refine { h with sound := hd, alone := fun t ht => ?_ }
      rcases List.mem_append.mp ht with ht | ht
      · exact h.alone t ht
      · have ht' : r.task = some t := Option.mem_toList.mp ht
        simpa [active, ht'] using ha
    · rfl
    · trivial
    · exact fun hw => hw.elim
  | kept hs ha hp =>
    -- Without a task nothing runs, and what is typed then does not make a run wait.
    have hi : r.session.running = false := by
      cases hr : r.session.running with
      | false => rfl
      | true => exact absurd (ha.symm.trans (h.driven hr)) Bool.false_ne_true
    have hn := Session.deliver_not_awaiting text r.session (by simp [h.sound.coherent.idle_of_not_running hi])
    rw [Session.after, hs] at hd hn
    refine { h with sound := hd, driven := fun hr => ?_, woken := fun t ht hw => ?_ }
    · simp [Session.running, hp, hn] at hr
    · have hat : active r = true := by
        obtain ⟨stage, c⟩ := t
        have ht' : r.task = some ⟨stage, c⟩ := ht
        cases stage <;> simp_all [active, Task.isAlive, Stage.Waits]
      exact absurd (ha.symm.trans hat) Bool.false_ne_true

lemma Orderly.stop (h : Orderly r) : Orderly (r.stop .passive).2 := by
  obtain ⟨t, ht, hst, hp⟩ := h.sound.stop (some "BREAK")
  have hx : Session.stop .passive (some "BREAK") r.session = .ok () t := ht
  rw [Runner.stop, hx]
  exact Served.rouse { h with sound := hst } h.calm fun hr => by simp [Session.running, hp] at hr

end Calls

lemma Orderly.move (h : Orderly r) (m : Move) : Orderly (r.move m) := by
  cases m with
  | submit text => exact h.receive text
  | stop => exact h.stop
  | job => exact h.work
  | expire => exact h.expire

lemma Reached.orderly (h : Reached r) : Orderly r := by
  induction h with
  | start h hs hl =>
    refine ⟨⟨h.sound, hl, rfl, ?_⟩, ?_, fun hr => ?_, ?_⟩
    · simp
    · simp
    · simp [Session.running, hs] at hr
    · simp
  | move _ m ih => exact ih.move m

theorem run_has_one_driver (h : Reached r) :
    (∀ t ∈ r.task, t.stage.Waits → r.wake = false → r.session.phase = .awaiting) ∧
    (r.session.running = true → r.active = true) ∧
    (r.former ++ r.task.toList).countP Task.isAlive ≤ 1 := by
  have ho := h.orderly
  refine ⟨ho.woken, ho.driven, ?_⟩
  have hf : r.former.countP Task.isAlive = 0 :=
    List.countP_eq_zero.mpr fun t ht => by simp [ho.alone t ht]
  rw [List.countP_append, hf, Nat.zero_add]
  exact List.countP_le_length.trans (by cases r.task <;> simp)

/-- The program of `parrot` has been started and has come to its `INPUT`, which may not wait for ever. -/
def asking : Runner := moves { session := Session.parrot, limit := .later } [.submit "RUN", .job, .job]

lemma asking_start : Reached { session := Session.parrot, limit := .later } :=
  .start Session.parrot_reachable (by decide +kernel) (by decide)

lemma asking_reached : Reached asking := asking_start.moves _

theorem asking_has_one_driver : (∃ t ∈ asking.task, t.stage.Waits) ∧ asking.wake = false ∧
    asking.session.phase = .awaiting ∧ asking.active = true ∧
    (asking.former ++ asking.task.toList).countP Task.isAlive ≤ 1 := by
  obtain ⟨ha, hb, hc⟩ := run_has_one_driver asking_reached
  have ht : asking.task = some ⟨.waiting .pending, false⟩ := by with_unfolding_all rfl
  have hw : asking.wake = false := by decide +kernel
  have hp := ha _ ht trivial hw
  exact ⟨⟨_, ht, trivial⟩, hw, hp, hb (by simp [Session.running, hp]), hc⟩

end LineBasic.Runner
