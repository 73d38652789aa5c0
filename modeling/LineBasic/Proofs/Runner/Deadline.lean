import LineBasic.Proofs.Runner.Moves

/-! Waits with a time limit. An `INPUT` that was answered by its deadline does not time out: the listener
hears of the answer before the drive task has its next turn. Once the deadline has passed the drive task
does not look again, so that an answer which comes before its next turn is lost with the run. -/

namespace LineBasic.Runner

variable {r r' : Runner}

section Pace

def Stage.due : Stage → Nat
  | .fresh | .yielded => 1
  | .parked signal | .waiting signal | .closing _ signal => if signal = .pending then 0 else 1
  | .ended _ => 0

def due (r : Runner) : Nat := (r.task.map (·.stage.due)).getD 0

def Job.number : Job → Nat
  | .listen n | .release n => n
  | _ => 0

structure Paced (r : Runner) : Prop where
  drives : r.queue.count .drive = r.due
  numbers : ∀ job ∈ r.queue, job.number ≤ r.wait

lemma due_le_one (r : Runner) : r.due ≤ 1 := by
  rcases h : r.task with _ | ⟨stage, c⟩
  · simp [due, h]
  · cases stage <;> simp [due, h, Stage.due] <;> split <;> omega

lemma due_of_task {t : Task} (h : r.task = some t) : r.due = t.stage.due := by simp [due, h]

lemma due_of_not_active (h : r.active = false) : r.due = 0 := by
  rcases ht : r.task with _ | ⟨stage, c⟩
  · simp [due, ht]
  · cases stage <;> simp_all [due, active, Task.isAlive, Stage.due]

lemma numbers_append {jobs : List Job} (h : ∀ job ∈ r.queue, job.number ≤ r.wait)
    (hj : ∀ job ∈ jobs, job.number ≤ r.wait) : ∀ job ∈ r.queue ++ jobs, job.number ≤ r.wait := by
  intro job hm
  rcases List.mem_append.mp hm with hm | hm
  · exact h job hm
  · exact hj job hm

lemma Paced.enqueue (h : Paced r) {job : Job} (hj : job ≠ .drive) (hn : job.number ≤ r.wait) :
    Paced (r.enqueue job) := by
  refine ⟨?_, numbers_append h.numbers (by simpa using hn)⟩
  have hd : (r.enqueue job).due = r.due := rfl
  rw [hd, ← h.drives]
  simp [Runner.enqueue, List.count_append, hj]

lemma Paced.wakeUp (h : Paced r) (hd : r.due = 0) {t : Task} (ht : t.stage.due = 1) :
    Paced ({ r with task := some t }.enqueue .drive) := by
  refine ⟨?_, numbers_append h.numbers (by simp [Job.number])⟩
  rw [due_of_task rfl, ht]
  simp [Runner.enqueue, h.drives, hd]

lemma Paced.rouse (h : Paced r) : Paced r.rouse := by
  have hr : Paced (if r.listener.hearing = .listening then
      { r with wake := true, listener.hearing := .roused }.enqueue (.listen r.wait)
      else { r with wake := true }) := by
    split_ifs
    · apply Paced.enqueue
      · exact { h with }
      · simp
      · exact le_rfl
    · exact { h with }
  simp only [Runner.rouse]
  split
  · exact h
  · split
    · rename_i ht
      exact hr.wakeUp (due_of_task ht) rfl
    · exact hr

lemma Paced.release (h : Paced r) : Paced r.release := by
  rw [Runner.release]
  split
  · rename_i ht
    exact h.wakeUp (due_of_task ht) rfl
  · rename_i ht
    exact h.wakeUp (due_of_task ht) rfl
  · exact h

lemma Paced.expire (h : Paced r) : Paced r.expire := by
  rw [Runner.expire]
  split
  · exact h.release
  · exact h

lemma Paced.hear (h : Paced r) (hearing : Hearing) : Paced (r.hear hearing) := by
  apply Paced.enqueue
  · exact { h with }
  · simp
  · exact le_rfl

lemma Paced.listen (h : Paced r) : Paced r.listen := by
  rw [Runner.listen]
  split
  · split_ifs
    · exact h.hear _
    · exact h.hear _
    · exact { h with }
  · split_ifs <;> exact h.hear _
  · exact h.hear _
  all_goals exact h

structure InTurn (r : Runner) : Prop extends Served r where
  drives : r.queue.count .drive = 0
  numbers : ∀ job ∈ r.queue, job.number ≤ r.wait

lemma InTurn.enter (h : InTurn r) (stage : Stage) (hd : stage.due = 0) : Paced (r.enter stage) :=
  ⟨h.drives.trans hd.symm, h.numbers⟩

lemma InTurn.park (h : InTurn r) : Paced r.park := by
  by_cases hl : r.limit = .never
  · rw [h.park_never hl]
    apply InTurn.enter
    · exact { h with }
    · rfl
  · rw [h.park_limited hl]
    refine ⟨?_, ?_⟩
    · rw [due_of_task rfl]
      split <;> simp [Runner.enter, Runner.enqueue, h.drives, Stage.due]
    · intro job hm
      rcases List.mem_append.mp hm with hm | hm
      · exact (h.numbers job hm).trans (Nat.le_succ _)
      · rw [List.mem_singleton.mp hm]
        exact le_rfl

lemma InTurn.iterate (h : InTurn r) : Paced (iterate .passive r) := by
  rcases h.iterate_cases with ⟨-, hx⟩ | ⟨-, hx⟩ | ⟨-, t, -, -, hx⟩
  · rw [hx]
    exact h.enter (.ended .finished) rfl
  · rw [hx]
    exact h.park
  · rw [hx]
    refine ⟨?_, numbers_append h.numbers (by simp [Job.number])⟩
    rw [due_of_task rfl]
    simp [Runner.enqueue, Runner.enter, h.drives, Stage.due]

lemma InTurn.turn (h : InTurn r) (ht : Turned r r') (ha : r.active = true) : Paced r' := by
  have hq : InTurn { r with requested := false } := { h with }
  cases ht with
  | none hn => exact absurd (hn.symm.trans ha) Bool.false_ne_true
  | onward asked => exact InTurn.iterate { h with }
  | close =>
    have hc : Paced (r.enter (.closing .expired .pending)) := h.enter _ rfl
    simp only [Runner.close]
    split
    · apply Paced.enqueue
      · exact { hc with }
      · simp
      · exact le_rfl
    · exact { hc with }
  | timeOut =>
    obtain ⟨t, -, hst, -, hx⟩ := hq.timeOut_eq
    rw [hx]
    apply InTurn.enter
    · exact { hq with sound := hst }
    · rfl
  | abandon =>
    obtain ⟨t, -, hst, -, hx⟩ := hq.abandon_eq
    rw [hx]
    apply InTurn.enter
    · exact { hq with sound := hst }
    · rfl

lemma Paced.tail (h : Paced r) {job : Job} {rest : List Job} (hq : r.queue = job :: rest)
    (hj : job ≠ .drive) : Paced { r with queue := rest } := by
  refine ⟨?_, fun job hm => h.numbers job (by simp [hq, hm])⟩
  have hd := h.drives
  rwa [hq, List.count_cons_of_ne (by simpa using hj)] at hd

lemma Paced.inTurn (h : Paced r) (ho : Orderly r) {rest : List Job} (hq : r.queue = .drive :: rest) :
    InTurn { r with queue := rest } ∧ r.active = true := by
  have hd := h.drives
  have hl := r.due_le_one
  rw [hq, List.count_cons_self] at hd
  refine ⟨{ ho with drives := ?_, numbers := fun job hm => h.numbers job (by simp [hq, hm]) }, ?_⟩
  · change rest.count .drive = 0
    omega
  · cases ha : r.active with
    | true => rfl
    | false =>
      have hz := due_of_not_active ha
      omega

lemma Paced.work (h : Paced r) (ho : Orderly r) : Paced r.work := by
  have hx := ho.worked
  generalize r.work = r' at hx
  cases hx with
  | none => exact h
  | drive hq =>
    obtain ⟨hi, ha⟩ := h.inTurn ho hq
    exact hi.turn (turn_turned ho.calm) ha
  | listen hq => exact (h.tail hq (by simp)).listen
  | release hq => exact (h.tail hq (by simp)).release
  | skip hq hd => exact h.tail hq hd

lemma Paced.move (h : Paced r) (ho : Orderly r) (m : Move) : Paced (r.move m) := by
  cases m with
  | submit text =>
    have hx := receive_received ho.sound.coherent text
    simp only [Runner.move]
    generalize (r.receive .passive text).2 = r' at hx
    cases hx with
    | refused => exact { h with }
    | woken => exact Paced.rouse { h with }
    | launched _ ha =>
      apply Paced.wakeUp
      · exact { h with }
      · exact due_of_not_active ha
      · rfl
    | kept => exact { h with }
  | stop =>
    obtain ⟨t, ht, -⟩ := ho.sound.stop (some "BREAK")
    have hx : Session.stop .passive (some "BREAK") r.session = .ok () t := ht
    simp only [Runner.move, Runner.stop, hx]
    exact Paced.rouse { h with }
  | job => exact h.work ho
  | expire => exact h.expire

lemma Reached.paced (h : Reached r) : Paced r := by
  induction h with
  | start => exact ⟨rfl, by simp⟩
  | move h m ih => exact ih.move h.orderly m

lemma Reached.worked (h : Reached r) : ∃ r', r.move .job = r' ∧ Worked r r' :=
  ⟨_, rfl, h.orderly.worked⟩

lemma Reached.turned (h : Reached r) {rest : List Job} (hq : r.queue = .drive :: rest) :
    InTurn { r with queue := rest } ∧ r.active = true ∧
      ∃ r', r.move .job = r' ∧ Turned { r with queue := rest } r' := by
  obtain ⟨hi, ha⟩ := h.paced.inTurn h.orderly hq
  refine ⟨hi, ha, _, ?_, turn_turned h.orderly.calm⟩
  simp [Runner.move, Runner.work, hq, runJob]

end Pace

section Waits

def Asks (r : Runner) (p : Pending) : Prop := r.session.phase = .awaiting ∧ r.session.pending = some p

/-- A limited wait has begun at an `INPUT`, which has been open ever since. -/
inductive Open (p : Pending) : Runner → Prop
  | begun {r : Runner} (h : Reached r) (hw : (r.move .job).wait = r.wait + 1)
      (ha : (r.move .job).Asks p) : Open p (r.move .job)
  | move {r : Runner} (h : Open p r) (m : Move) (hw : (r.move m).wait = r.wait)
      (ha : (r.move m).Asks p) : Open p (r.move m)

/-- The time of a wait was up while its `INPUT` was open; the list tells what has happened since. -/
inductive Overdue (p : Pending) : List Move → Runner → Prop
  | atOnce {r : Runner} (h : Reached r) (hw : (r.move .job).wait = r.wait + 1)
      (ha : (r.move .job).Asks p) (hl : r.limit = .atOnce) : Overdue p [] (r.move .job)
  | expired {r : Runner} (h : Open p r) (ht : r.task = some ⟨.waiting .pending, false⟩) :
      Overdue p [] (r.move .expire)
  | move {r : Runner} {since : List Move} (h : Overdue p since r) (m : Move)
      (hw : (r.move m).wait = r.wait) : Overdue p (since ++ [m]) (r.move m)

def Move.Quiet : Move → Prop
  | .submit _ | .stop => False
  | .job | .expire => True

/-- Nobody has woken the task of a limited wait, and its listener will be there when somebody does. -/
structure Unheard (r : Runner) : Prop where
  wake : r.wake = false
  willing : r.listener.cancelRequested = false
  listens : r.listener.hearing = .listening ∨ r.listener.hearing = .fresh ∧ .listen r.wait ∈ r.queue
  held : .release r.wait ∉ r.queue

structure Saved (r : Runner) : Prop where
  wake : r.wake = true
  willing : r.listener.cancelRequested = false
  hears : r.listener.hearing = .heard ∨ (r.listener.hearing = .fresh ∨ r.listener.hearing = .roused) ∧
    ∃ before after, r.queue = before ++ .listen r.wait :: after ∧ .drive ∉ before

def Stage.Limited : Stage → Prop
  | .waiting _ | .closing .. => True
  | _ => False

inductive Story (r : Runner) : Prop
  | elsewhere (h : ∀ t ∈ r.task, ¬ t.stage.Limited)
  | ahead {p : Pending} (ht : r.task = some ⟨.waiting .pending, false⟩) (h : Open p r) (hu : Unheard r)
  | saved {signal : Signal} (ht : r.task = some ⟨.waiting signal, false⟩) (h : Saved r)
  | passed {p : Pending} {since : List Move} {stage : Stage} (ht : r.task = some ⟨stage, false⟩)
      (hs : stage = .waiting .given ∨ ∃ signal, stage = .closing .expired signal)
      (h : Overdue p since r)

variable {p : Pending} {since : List Move}

lemma Open.asks (h : Open p r) : r.Asks p := by
  cases h <;> assumption

lemma Open.reached (h : Open p r) : Reached r := by
  induction h with
  | begun h => exact h.move .job
  | move _ m _ _ ih => exact ih.move m

lemma Overdue.reached (h : Overdue p since r) : Reached r := by
  induction h with
  | atOnce h => exact h.move .job
  | expired h => exact h.reached.move .expire
  | move _ m _ ih => exact ih.move m

lemma story_iterate {q : Runner} (h : Reached r) (hq : InTurn q) (hw : q.wait = r.wait)
    (hl : q.limit = r.limit) (hx : r.move .job = iterate .passive q) : Story (r.move .job) := by
  rcases hq.iterate_cases with ⟨-, hy⟩ | ⟨hs, hy⟩ | ⟨-, t, -, -, hy⟩
  · refine .elsewhere ?_
    rw [hx, hy]
    rintro t ⟨⟩
    exact id
  · by_cases hn : q.limit = .never
    · refine .elsewhere ?_
      rw [hx, hy, hq.park_never hn]
      rintro t ⟨⟩
      exact id
    · obtain ⟨-, n, prompt, target, -, -, hp⟩ := hq.sound.coherent.awaiting hs
      rw [hq.park_limited hn] at hy
      have ha : (r.move .job).Asks ⟨target, n, q.session.pc + 1⟩ := by
        rw [hx, hy]
        exact ⟨hs, hp⟩
      have hw' : (r.move .job).wait = r.wait + 1 := by
        rw [hx, hy, ← hw]
        rfl
      by_cases ho : q.limit = .atOnce
      · refine .passed ?_ (.inr ⟨.pending, rfl⟩) (.atOnce h hw' ha (hl ▸ ho))
        rw [hx, hy, if_pos ho]
        rfl
      · refine .ahead ?_ (.begun h hw' ha) ?_
        · rw [hx, hy, if_neg ho]
          rfl
        · rw [hx, hy]
          refine ⟨rfl, by simp [Runner.enter, Runner.enqueue, ho], .inr ⟨rfl, ?_⟩, fun hm => ?_⟩
          · simp [Runner.enter, Runner.enqueue]
          · have hm' : Job.release (q.wait + 1) ∈ q.queue := by simpa [Runner.enter, Runner.enqueue] using hm
            have hle := hq.numbers _ hm'
            simp [Job.number] at hle
  · refine .elsewhere ?_
    rw [hx, hy]
    rintro t ⟨⟩
    exact id

lemma story_turn (h : Reached r) {rest : List Job} (hq : r.queue = .drive :: rest)
    (hc : ∀ signal, r.task = some ⟨.waiting signal, false⟩ → r.listener.isDone = false →
      Story (r.move .job)) : Story (r.move .job) := by
  obtain ⟨hi, ha, r', hx, ht⟩ := h.turned hq
  have hn : InTurn { r with queue := rest, requested := false } := { hi with }
  cases ht with
  | none hn => exact absurd (hn.symm.trans ha) Bool.false_ne_true
  | onward asked =>
    have hi' : InTurn { r with queue := rest, requested := asked } := { hi with }
    exact story_iterate h hi' rfl rfl hx
  | close ht hl => exact hc _ ht hl
  | timeOut =>
    obtain ⟨t, -, -, -, hy⟩ := hn.timeOut_eq
    refine .elsewhere ?_
    rw [hx, hy]
    rintro t ⟨⟩
    exact id
  | abandon =>
    obtain ⟨t, -, -, -, hy⟩ := hn.abandon_eq
    refine .elsewhere ?_
    rw [hx, hy]
    rintro t ⟨⟩
    exact id

lemma rouse_of_wake (h : r.wake = true) : r.rouse = r := by simp [rouse, h]

lemma Orderly.called (ho : Orderly r) (ha : r.active = true) {m : Move} (hm : ¬ m.Quiet) :
    (∃ e, r.move m = { r with session := r.session.echoed e }) ∨
      ∃ s asked, r.move m = { r with session := s, requested := asked }.rouse := by
  cases m with
  | submit text =>
    have hx := receive_received ho.sound.coherent text
    simp only [Runner.move]
    generalize (r.receive .passive text).2 = r' at hx
    cases hx with
    | refused => exact .inl ⟨_, rfl⟩
    | woken => exact .inr ⟨_, _, rfl⟩
    | launched _ hn => exact absurd (hn.symm.trans ha) Bool.false_ne_true
    | kept _ hn => exact absurd (hn.symm.trans ha) Bool.false_ne_true
  | stop =>
    obtain ⟨t, ht, -⟩ := ho.sound.stop (some "BREAK")
    have hx : Session.stop .passive (some "BREAK") r.session = .ok () t := ht
    exact .inr ⟨t, r.requested, by simp only [Runner.move, Runner.stop, hx]⟩
  | job => exact absurd trivial hm
  | expire => exact absurd trivial hm

lemma Unheard.rouse (h : Unheard r) (ht : r.task = some ⟨.waiting .pending, false⟩)
    (hd : Job.drive ∉ r.queue) : Saved r.rouse ∧ r.rouse.task = r.task := by
  rcases h.listens with hl | ⟨hl, hm⟩
  · have hx : r.rouse = { r with wake := true, listener.hearing := .roused }.enqueue (.listen r.wait) := by
      simp [Runner.rouse, h.wake, hl, ht, Runner.enqueue]
    rw [hx]
    exact ⟨⟨rfl, h.willing, .inr ⟨.inr rfl, r.queue, [], rfl, hd⟩⟩, rfl⟩
  · have hx : r.rouse = { r with wake := true } := by
      simp [Runner.rouse, h.wake, hl, ht]
    obtain ⟨before, after, hq⟩ := List.append_of_mem hm
    rw [hx]
    refine ⟨⟨rfl, h.willing, .inr ⟨.inl hl, before, after, hq, fun hb => hd ?_⟩⟩, rfl⟩
    rw [hq]
    exact List.mem_append_left _ hb

lemma active_of_task {t : Task} (ht : r.task = some t) (ha : t.isAlive = true) : r.active = true := by
  simp [active, ht, ha]

lemma expire_of_pending {cancelled : Bool} (ht : r.task = some ⟨.waiting .pending, cancelled⟩) :
    r.expire = { r with task := some ⟨.waiting .given, cancelled⟩ }.enqueue .drive := by
  simp [Runner.expire, Runner.release, ht]

lemma expire_of_ne (ht : ∀ cancelled, r.task ≠ some ⟨.waiting .pending, cancelled⟩) : r.expire = r := by
  rw [Runner.expire]
  split
  · exact absurd ‹_› (ht _)
  · rfl

lemma rouse_task_of_limited {t : Task} (ht : r.task = some t) (hl : t.stage.Limited) :
    r.rouse.task = r.task := by
  rcases rouse_task r with hx | ⟨cancelled, hx, -⟩
  · exact hx
  · cases ht.symm.trans hx
    exact hl.elim

lemma listen_frame (r : Runner) : r.listen.session = r.session ∧ r.listen.task = r.task ∧
    r.listen.wait = r.wait := by
  rw [Runner.listen]
  split
  · split_ifs <;> exact ⟨rfl, rfl, rfl⟩
  · split_ifs <;> exact ⟨rfl, rfl, rfl⟩
  all_goals exact ⟨rfl, rfl, rfl⟩

lemma release_frame (r : Runner) : r.release.session = r.session ∧ r.release.wait = r.wait := by
  rw [Runner.release]
  split <;> exact ⟨rfl, rfl⟩

lemma close_frame (r : Runner) (reason : Closing) : (r.close reason).session = r.session ∧
    (r.close reason).task = some ⟨.closing reason .pending, false⟩ ∧ (r.close reason).wait = r.wait := by
  simp only [Runner.close]
  split_ifs <;> exact ⟨rfl, rfl, rfl⟩

lemma Unheard.tail (h : Unheard r) {job : Job} {rest : List Job} (hq : r.queue = job :: rest)
    (hl : job ≠ .listen r.wait) : Unheard { r with queue := rest } := by
  refine { h with listens := h.listens.imp_right ?_, held := fun hm => h.held ?_ }
  · rintro ⟨hf, hm⟩
    rw [hq] at hm
    exact ⟨hf, (List.mem_cons.mp hm).resolve_left hl.symm⟩
  · rw [hq]
    exact List.mem_cons_of_mem _ hm

lemma Unheard.listen (h : Unheard r) {job : Job} {rest : List Job} (hq : r.queue = job :: rest) :
    Unheard (listen { r with queue := rest }) := by
  have hh : Job.release r.wait ∉ rest := fun hm => h.held (hq ▸ List.mem_cons_of_mem _ hm)
  rcases h.listens with hl | ⟨hl, -⟩
  · simp only [Runner.listen, hl]
    exact ⟨h.wake, h.willing, .inl hl, hh⟩
  · simp only [Runner.listen, hl, h.willing, h.wake, Bool.false_eq_true, if_false]
    exact ⟨rfl, rfl, .inl rfl, hh⟩

lemma Open.job (h : Open p r) (hr : Reached r) (ht : r.task = some ⟨.waiting .pending, false⟩)
    (hd : Job.drive ∉ r.queue) (hu : Unheard r) : Story (r.move .job) := by
  have hkeep {r' : Runner} (hx : r.move .job = r') (hs : r'.session = r.session)
      (hw : r'.wait = r.wait) (ht' : r'.task = r.task) (hu' : Unheard r') : Story (r.move .job) := by
    refine .ahead (p := p) (hx ▸ ht'.trans ht) (h.move .job (hx ▸ hw) ?_) (hx ▸ hu')
    rw [Asks, hx, hs]
    exact h.asks
  obtain ⟨r', hy, hx⟩ := hr.worked
  cases hx with
  | none => exact hkeep hy rfl rfl rfl hu
  | drive hq => exact absurd (hq ▸ List.mem_cons_self) hd
  | release hq => exact absurd (hq ▸ List.mem_cons_self) hu.held
  | listen hq =>
    obtain ⟨hs, ht', hw⟩ := listen_frame { r with queue := _ }
    exact hkeep hy hs hw ht' (hu.listen hq)
  | skip hq _ hl => exact hkeep hy rfl rfl rfl (hu.tail hq hl)

lemma Open.story (h : Open p r) (hr : Reached r) (ht : r.task = some ⟨.waiting .pending, false⟩)
    (hu : Unheard r) (m : Move) : Story (r.move m) := by
  -- The task is not due, so the drive task has no turn before the deadline or an answer.
  have hd : Job.drive ∉ r.queue := by
    rw [← List.count_eq_zero, hr.paced.drives, due_of_task ht]
    rfl
  by_cases hm : m.Quiet
  · cases m with
    | submit text => exact hm.elim
    | stop => exact hm.elim
    | expire =>
      have hx : r.move .expire = _ := expire_of_pending ht
      exact .passed (p := p) (hx ▸ rfl) (.inl rfl) (.expired h ht)
    | job => exact h.job hr ht hd hu
  · rcases hr.orderly.called (active_of_task ht rfl) hm with ⟨e, hx⟩ | ⟨s, asked, hx⟩
    · refine .ahead (p := p) (hx ▸ ht) (h.move m (hx ▸ rfl) ?_) (hx ▸ { hu with })
      rw [hx]
      exact h.asks
    · have hu' : Unheard { r with session := s, requested := asked } := { hu with }
      obtain ⟨hs, ht'⟩ := hu'.rouse ht hd
      rw [hx]
      exact .saved (ht'.trans ht) hs

lemma Saved.tail (h : Saved r) {job : Job} {rest : List Job} (hq : r.queue = job :: rest)
    (hl : job ≠ .listen r.wait) : Saved { r with queue := rest } := by
  refine { h with hears := h.hears.imp_right ?_ }
  rintro ⟨hf, before, after, hb, hn⟩
  rw [hq] at hb
  cases before with
  | nil => exact absurd (List.cons.inj hb).1 hl
  | cons job' before =>
    exact ⟨hf, before, after, (List.cons.inj hb).2, fun hm => hn (List.mem_cons_of_mem _ hm)⟩

lemma Saved.wakeUp (h : Saved r) (t : Task) : Saved ({ r with task := some t }.enqueue .drive) := by
  refine { h with hears := h.hears.imp_right ?_ }
  rintro ⟨hf, before, after, hq, hb⟩
  exact ⟨hf, before, after ++ [.drive], by simp [Runner.enqueue, hq], hb⟩

lemma Saved.heard (h : Saved r) {rest : List Job} (hq : r.queue = .drive :: rest) :
    r.listener.hearing = .heard := by
  rcases h.hears with hh | ⟨-, before, after, hb, hn⟩
  · exact hh
  · rw [hq] at hb
    cases before with
    | nil => simp at hb
    | cons job before => exact absurd ((List.cons.inj hb).1 ▸ List.mem_cons_self) hn

lemma Saved.listen (h : Saved r) (rest : List Job) : Saved (listen { r with queue := rest }) := by
  rcases h.hears with hh | ⟨hf | hf, -⟩
  · simp only [Runner.listen, hh]
    exact { h with hears := .inl hh }
  · simp only [Runner.listen, hf, h.willing, h.wake, Bool.false_eq_true, if_false, if_true]
    exact ⟨rfl, rfl, .inl rfl⟩
  · simp only [Runner.listen, hf, h.willing, Bool.false_eq_true, if_false]
    exact ⟨h.wake, rfl, .inl rfl⟩

lemma Saved.job (h : Saved r) (hr : Reached r) {signal : Signal}
    (ht : r.task = some ⟨.waiting signal, false⟩) : Story (r.move .job) := by
  obtain ⟨r', hy, hx⟩ := hr.worked
  cases hx with
  | none =>
    rw [hy]
    exact .saved ht h
  | skip hq _ hl =>
    rw [hy]
    exact .saved ht (h.tail hq hl)
  | @listen rest =>
    obtain ⟨-, ht', -⟩ := listen_frame { r with queue := rest }
    rw [hy]
    exact .saved (ht'.trans ht) (h.listen rest)
  | release hq =>
    have hs := h.tail hq (by simp)
    rw [hy]
    cases signal with
    | pending =>
      simp only [Runner.release, ht]
      exact .saved rfl (hs.wakeUp _)
    | given | cancelled =>
      simp only [Runner.release, ht]
      exact .saved rfl { hs with }
  | drive hq =>
    refine story_turn hr hq fun _ _ hd => ?_
    simp [Listener.isDone, h.heard hq] at hd

lemma Saved.story (h : Saved r) (hr : Reached r) {signal : Signal}
    (ht : r.task = some ⟨.waiting signal, false⟩) (m : Move) : Story (r.move m) := by
  by_cases hm : m.Quiet
  · cases m with
    | submit text => exact hm.elim
    | stop => exact hm.elim
    | expire =>
      simp only [Runner.move]
      by_cases hp : signal = .pending
      · subst hp
        rw [expire_of_pending ht]
        exact .saved rfl (h.wakeUp _)
      · rw [expire_of_ne (by simp [ht, hp])]
        exact .saved ht h
    | job => exact h.job hr ht
  · rcases hr.orderly.called (active_of_task ht rfl) hm with ⟨e, hx⟩ | ⟨s, asked, hx⟩
    · rw [hx]
      exact .saved ht { h with }
    · have hw : rouse { r with session := s, requested := asked } = _ := rouse_of_wake h.wake
      rw [hx, hw]
      exact .saved ht { h with }

lemma Overdue.keep (h : Overdue p since r) {m : Move} {r' : Runner} {stage : Stage} (hx : r.move m = r')
    (hw : r'.wait = r.wait) (ht : r'.task = some ⟨stage, false⟩)
    (hst : stage = .waiting .given ∨ ∃ signal, stage = .closing .expired signal) : Story (r.move m) :=
  .passed (hx ▸ ht) hst (h.move m (hx ▸ hw))

lemma Overdue.job (h : Overdue p since r) (hr : Reached r) {stage : Stage} (ht : r.task = some ⟨stage, false⟩)
    (hs : stage = .waiting .given ∨ ∃ signal, stage = .closing .expired signal) :
    Story (r.move .job) := by
  obtain ⟨r', hy, hx⟩ := hr.worked
  cases hx with
  | none => exact h.keep hy rfl ht hs
  | skip => exact h.keep hy rfl ht hs
  | @listen rest =>
    obtain ⟨-, hlt, hlw⟩ := listen_frame { r with queue := rest }
    exact h.keep hy hlw (hlt.trans ht) hs
  | @release rest =>
    obtain ⟨-, hrw⟩ := release_frame { r with queue := rest }
    rcases hs with rfl | ⟨signal, rfl⟩
    · exact h.keep hy hrw (by simp [Runner.release, ht]) (.inl rfl)
    · have hrt : ∃ signal', (release { r with queue := rest }).task =
          some ⟨.closing .expired signal', false⟩ := by
        cases signal <;> simp [Runner.release, ht, Runner.enqueue]
      obtain ⟨signal', hrt⟩ := hrt
      exact h.keep hy hrw hrt (.inr ⟨signal', rfl⟩)
  | @drive rest hq =>
    refine story_turn hr hq fun signal hw hd => ?_
    obtain ⟨-, hct, hcw⟩ := close_frame { r with queue := rest } .expired
    refine h.keep (hy.trans ?_) hcw hct (.inr ⟨.pending, rfl⟩)
    have hg : signal ≠ .cancelled := (hr.orderly.calm _ hw).2
    simp [turn, hw, hd, hg]

lemma Overdue.story (h : Overdue p since r) (hr : Reached r) {stage : Stage} (ht : r.task = some ⟨stage, false⟩)
    (hs : stage = .waiting .given ∨ ∃ signal, stage = .closing .expired signal) (m : Move) :
    Story (r.move m) := by
  have hl : stage.Limited ∧ Task.isAlive ⟨stage, false⟩ = true := by
    rcases hs with rfl | ⟨signal, rfl⟩ <;> exact ⟨trivial, rfl⟩
  by_cases hm : m.Quiet
  · cases m with
    | submit text => exact hm.elim
    | stop => exact hm.elim
    | expire =>
      have hx : r.move .expire = r := expire_of_ne (by rcases hs with rfl | ⟨signal, rfl⟩ <;> simp [ht])
      exact h.keep hx rfl ht hs
    | job => exact h.job hr ht hs
  -- A client may do what it likes now: the wait is closed all the same.
  · rcases hr.orderly.called (active_of_task ht hl.2) hm with ⟨e, hx⟩ | ⟨s, asked, hx⟩
    · exact .passed (hx ▸ ht) hs (h.move m (hx ▸ rfl))
    · obtain ⟨-, -, -, -, hw⟩ := rouse_frame { r with session := s, requested := asked }
      have hk := @rouse_task_of_limited { r with session := s, requested := asked } _ ht hl.1
      exact .passed (hx ▸ hk.trans ht) hs (h.move m (hx ▸ hw))

lemma release_elsewhere (h : ∀ t ∈ r.task, ¬ t.stage.Limited) : r.release = r := by
  rw [Runner.release]
  split
  · rename_i ht
    exact (h _ ht trivial).elim
  · rename_i ht
    exact (h _ ht trivial).elim
  · rfl

lemma elsewhere_job (hr : Reached r) (h : ∀ t ∈ r.task, ¬ t.stage.Limited) : Story (r.move .job) := by
  obtain ⟨r', hy, hx⟩ := hr.worked
  cases hx with
  | none =>
    rw [hy]
    exact .elsewhere h
  | skip =>
    rw [hy]
    exact .elsewhere h
  | @listen rest =>
    obtain ⟨-, ht, -⟩ := listen_frame { r with queue := rest }
    refine .elsewhere ?_
    rwa [hy, ht]
  | @release rest =>
    have hl : release { r with queue := rest } = _ := release_elsewhere h
    rw [hy, hl]
    exact .elsewhere h
  | drive hq => exact story_turn hr hq fun signal hw _ => (h _ hw trivial).elim

lemma Orderly.call_elsewhere (ho : Orderly r) (h : ∀ t ∈ r.task, ¬ t.stage.Limited) {m : Move}
    (hm : ¬ m.Quiet) : ∀ t ∈ (r.move m).task, ¬ t.stage.Limited := by
  have hrouse (s : Session) (asked : Bool) :
      ∀ t ∈ (rouse { r with session := s, requested := asked }).task, ¬ t.stage.Limited := by
    rcases rouse_task { r with session := s, requested := asked } with hx | ⟨cancelled, -, hx⟩
    · rw [hx]
      exact h
    · rw [hx]
      rintro t ⟨⟩
      exact id
  cases m with
  | submit text =>
    have hx := receive_received ho.sound.coherent text
    simp only [Runner.move]
    generalize (r.receive .passive text).2 = r' at hx
    cases hx with
    | refused => exact h
    | woken => exact hrouse _ _
    | launched =>
      rintro t ⟨⟩
      exact id
    | kept => exact h
  | stop =>
    obtain ⟨t, ht, -⟩ := ho.sound.stop (some "BREAK")
    have hx : Session.stop .passive (some "BREAK") r.session = .ok () t := ht
    simp only [Runner.move, Runner.stop, hx]
    exact hrouse t r.requested
  | job => exact absurd trivial hm
  | expire => exact absurd trivial hm

lemma elsewhere_story (hr : Reached r) (h : ∀ t ∈ r.task, ¬ t.stage.Limited) (m : Move) :
    Story (r.move m) := by
  by_cases hm : m.Quiet
  · cases m with
    | submit text => exact hm.elim
    | stop => exact hm.elim
    | expire =>
      have hx : r.move .expire = r := expire_of_ne fun c hc => h _ hc trivial
      rw [hx]
      exact .elsewhere h
    | job => exact elsewhere_job hr h
  · exact .elsewhere (hr.orderly.call_elsewhere h hm)

lemma Reached.story (h : Reached r) : Story r := by
  induction h with
  | start => exact .elsewhere (by simp)
  | move h m ih =>
    cases ih with
    | elsewhere he => exact elsewhere_story h he m
    | ahead ht ho hu => exact ho.story h ht hu m
    | saved ht hs => exact hs.story h ht m
    | passed ht hs hl => exact hl.story h ht hs m

end Waits

section Engaged

def Engaged (r : Runner) : Prop := ∃ t ∈ r.task, t.stage.Limited

lemma not_engaged {stage : Stage} {cancelled : Bool} (ht : r.task = some ⟨stage, cancelled⟩)
    (hl : ¬ stage.Limited) : ¬ Engaged r := by
  rintro ⟨t, hm, hs⟩
  cases ht.symm.trans hm
  exact hl hs

/-- The drive loop does not go on into the limited wait that it has come from, but into a new one. -/
lemma Served.iterate_engaged (h : Served r) (he : Engaged (Runner.iterate .passive r)) :
    (Runner.iterate .passive r).wait = r.wait + 1 := by
  rcases h.iterate_cases with ⟨-, hx⟩ | ⟨-, hx⟩ | ⟨-, t, -, -, hx⟩
  · rw [hx] at he
    exact (not_engaged rfl id he).elim
  · by_cases hn : r.limit = .never
    · rw [hx, h.park_never hn] at he
      exact (not_engaged rfl id he).elim
    · rw [hx, h.park_limited hn]
      rfl
  · rw [hx] at he
    exact (not_engaged rfl id he).elim

variable {p : Pending} {since : List Move}

lemma Reached.turn_engaged (hr : Reached r) {rest : List Job} (hq : r.queue = .drive :: rest)
    (hw : (r.move .job).wait = r.wait) (he : Engaged (r.move .job)) :
    Engaged r ∧ (r.move .job).session = r.session := by
  obtain ⟨hi, ha, r', hx, ht⟩ := hr.turned hq
  have hv : Served { r with queue := rest, requested := false } := { hi with }
  rw [hx] at hw he ⊢
  cases ht with
  | none hn => exact absurd (hn.symm.trans ha) Bool.false_ne_true
  | onward asked =>
    have hv' : Served { r with queue := rest, requested := asked } := { hi with }
    exact absurd ((hv'.iterate_engaged he).symm.trans hw) (Nat.succ_ne_self _)
  | close ht =>
    obtain ⟨hs, -⟩ := close_frame { r with queue := rest } .expired
    exact ⟨⟨_, ht, trivial⟩, hs⟩
  | timeOut =>
    obtain ⟨t, -, -, -, hy⟩ := hv.timeOut_eq
    rw [hy] at he
    exact (not_engaged rfl id he).elim
  | abandon =>
    obtain ⟨t, -, -, -, hy⟩ := hv.abandon_eq
    rw [hy] at he
    exact (not_engaged rfl id he).elim

lemma Reached.job_engaged (hr : Reached r) (hw : (r.move .job).wait = r.wait)
    (he : Engaged (r.move .job)) : Engaged r ∧ (r.move .job).session = r.session := by
  obtain ⟨r', hy, hx⟩ := hr.worked
  cases hx with
  | none =>
    rw [hy] at he ⊢
    exact ⟨he, rfl⟩
  | skip =>
    rw [hy] at he ⊢
    exact ⟨he, rfl⟩
  | @listen rest =>
    obtain ⟨hs, ht, -⟩ := listen_frame { r with queue := rest }
    rw [hy, Engaged, ht] at he
    rw [hy]
    exact ⟨he, hs⟩
  | @release rest =>
    obtain ⟨hs, -⟩ := release_frame { r with queue := rest }
    rw [hy] at he ⊢
    refine ⟨?_, hs⟩
    by_contra hn
    have hl : release { r with queue := rest } = _ := release_elsewhere fun t ht hl => hn ⟨t, ht, hl⟩
    rw [hl] at he
    exact hn he
  | drive hq => exact hr.turn_engaged hq hw he

/-- As long as a limited wait is on, nothing but a call of a client changes the session. -/
lemma Reached.engaged (hr : Reached r) {m : Move} (hw : (r.move m).wait = r.wait)
    (he : Engaged (r.move m)) : Engaged r ∧ (m.Quiet → (r.move m).session = r.session) := by
  by_cases hm : m.Quiet
  · cases m with
    | submit text => exact hm.elim
    | stop => exact hm.elim
    | job =>
      obtain ⟨he', hs⟩ := hr.job_engaged hw he
      exact ⟨he', fun _ => hs⟩
    | expire =>
      by_cases ht : ∃ cancelled, r.task = some ⟨.waiting .pending, cancelled⟩
      · obtain ⟨cancelled, ht⟩ := ht
        have hx : r.move .expire = _ := expire_of_pending ht
        exact ⟨⟨_, ht, trivial⟩, fun _ => hx ▸ rfl⟩
      · have hx : r.move .expire = r := expire_of_ne (not_exists.mp ht)
        rw [hx] at he ⊢
        exact ⟨he, fun _ => rfl⟩
  · refine ⟨?_, fun hq => absurd hq hm⟩
    by_contra hn
    obtain ⟨t, ht, hl⟩ := he
    exact hr.orderly.call_elsewhere (fun t ht hl => hn ⟨t, ht, hl⟩) hm t ht hl

lemma Overdue.asks (h : Overdue p since r) (he : Engaged r) (hq : ∀ m ∈ since, m.Quiet) : r.Asks p := by
  induction h with
  | atOnce _ _ ha => exact ha
  | expired ho ht =>
    have hx : Runner.move _ .expire = _ := expire_of_pending ht
    rw [hx]
    exact ho.asks
  | move h m hw ih =>
    obtain ⟨he', hs⟩ := h.reached.engaged hw he
    rw [Asks, hs (hq m (by simp))]
    exact ih he' fun m' hm => hq m' (by simp [hm])

end Engaged

section Timeout

def told (r : Runner) : List Event := (r.move .job).session.events.toList.drop r.session.events.size

/-- The next job tells that an `INPUT` has waited too long, and it is no statement that says so. -/
def TellsTimeout (r : Runner) : Prop :=
  (r.move .job).steps = r.steps ∧ ∃ n : Int, .line ("?INPUT TIMEOUT IN " ++ toString n) ∈ r.told

lemma told_of_session_eq (h : (r.move .job).session = r.session) : r.told = [] := by simp [told, h]

lemma told_of_append {es : List Event}
    (h : (r.move .job).session.events.toList = r.session.events.toList ++ es) : r.told = es := by
  simp [told, h]

lemma park_session (hq : Served r) : r.park.session = r.session := by
  by_cases hl : r.limit = .never
  · rw [hq.park_never hl]
    rfl
  · rw [hq.park_limited hl]
    rfl

lemma upper_timeout : "?" ++ Text.upper "INPUT TIMEOUT" ++ " IN " = "?INPUT TIMEOUT IN " := by decide +kernel

lemma upper_break : "?" ++ Text.upper "BREAK" ++ " IN " = "?BREAK IN " := by decide +kernel

lemma break_ne_timeout (a b : Int) : "?BREAK IN " ++ toString a ≠ "?INPUT TIMEOUT IN " ++ toString b := by
  intro h
  have hl := congrArg String.toList h
  simp at hl

lemma ready_ne_timeout (b : Int) : "Ready" ≠ "?INPUT TIMEOUT IN " ++ toString b := by
  intro h
  have hl := congrArg String.toList h
  simp at hl

lemma TellsTimeout.closing (h : TellsTimeout r) (hr : Reached r) :
    (∃ signal, r.task = some ⟨.closing .expired signal, false⟩) ∧ ∃ n : Int,
      r.session.currentLine = some n ∧
        r.told = [.line ("?INPUT TIMEOUT IN " ++ toString n), Session.ready] := by
  obtain ⟨hsteps, n, hn⟩ := h
  have hsame (hs : (r.move .job).session = r.session) : False := by simp [told_of_session_eq hs] at hn
  have ho := hr.orderly
  obtain ⟨r', hy, hx⟩ := hr.worked
  cases hx with
  | none => exact (hsame (by rw [hy])).elim
  | skip => exact (hsame (by rw [hy])).elim
  | @listen rest =>
    obtain ⟨hs, -⟩ := listen_frame { r with queue := rest }
    exact (hsame (by rw [hy, hs])).elim
  | @release rest =>
    obtain ⟨hs, -⟩ := release_frame { r with queue := rest }
    exact (hsame (by rw [hy, hs])).elim
  | @drive rest hq =>
    have ht : Turned { r with queue := rest } _ := turn_turned ho.calm
    have hv : Served { r with queue := rest, requested := false } := { ho with }
    generalize turn .passive { r with queue := rest } = r' at hy ht
    cases ht with
    | none => exact (hsame (by rw [hy])).elim
    | close =>
      obtain ⟨hs, -⟩ := close_frame { r with queue := rest } .expired
      exact (hsame (by rw [hy, hs])).elim
    | onward asked =>
      have hv : Served { r with queue := rest, requested := asked } := { ho with }
      rcases hv.iterate_cases with ⟨-, hi⟩ | ⟨-, hi⟩ | ⟨-, t, -, -, hi⟩
      · exact (hsame (by rw [hy, hi]; rfl)).elim
      · exact (hsame (by rw [hy, hi, park_session hv])).elim
      · rw [hy, hi] at hsteps
        simp [Runner.enter, Runner.enqueue] at hsteps
    | timeOut hc =>
      obtain ⟨t, ht, -, -, hi⟩ := hv.timeOut_eq
      rcases hv.sound.stop_told (by decide) ht with rfl | ⟨m, hm, he⟩
      · exact (hsame (by rw [hy, hi]; rfl)).elim
      · rw [upper_timeout] at he
        exact ⟨⟨_, hc⟩, m, hm, told_of_append (by rw [hy, hi]; exact he)⟩
    | abandon =>
      obtain ⟨t, ht, -, -, hi⟩ := hv.abandon_eq
      rcases hv.sound.stop_told (by decide) ht with rfl | ⟨m, hm, he⟩
      · exact (hsame (by rw [hy, hi]; rfl)).elim
      · rw [upper_break] at he
        have htold := told_of_append (r := r) (by rw [hy, hi]; exact he)
        rw [htold] at hn
        rcases List.mem_cons.mp hn with hb | hb
        · exact (break_ne_timeout m n (Event.line.inj hb).symm).elim
        · exact (ready_ne_timeout n (Event.line.inj (List.mem_singleton.mp hb)).symm).elim

theorem timeout_only_past_deadline (hr : Reached r) (h : TellsTimeout r) : ∃ n,
    r.told = [.line ("?INPUT TIMEOUT IN " ++ toString n), Session.ready] ∧
    r.session.currentLine = some n ∧ (∃ p since, Overdue p since r) ∧
    ∀ p since, Overdue p since r → (∀ m ∈ since, m.Quiet) → r.Asks p ∧ n = p.line := by
  obtain ⟨⟨signal, ht⟩, n, hn, htold⟩ := h.closing hr
  refine ⟨n, htold, hn, ?_, fun p since hl hq => ?_⟩
  · have hs := hr.story
    cases hs with
    | elsewhere he => exact (he _ ht trivial).elim
    | ahead ht' => cases ht.symm.trans ht'
    | saved ht' => cases ht.symm.trans ht'
    | passed _ _ hl => exact ⟨_, _, hl⟩
  · have ha := hl.asks ⟨_, ht, trivial⟩ hq
    have hline : r.session.currentLine = some p.line := by simp [Session.currentLine, ha.1, ha.2]
    exact ⟨ha, Option.some.inj (hn.symm.trans hline)⟩

def tooSlow : Runner := asking.moves [.job, .expire, .job, .job, .job]

lemma tooSlow_tells : TellsTimeout tooSlow :=
  ⟨by decide +kernel, 10, by decide +kernel⟩

lemma asking_asks : asking.Asks ⟨.var "A$", 10, 1⟩ :=
  ⟨by decide +kernel, by with_unfolding_all rfl⟩

lemma tooSlow_overdue : Overdue ⟨.var "A$", 10, 1⟩ [.job, .job, .job] tooSlow := by
  have ht : (asking.move .job).task = some ⟨.waiting .pending, false⟩ := by with_unfolding_all rfl
  have hw : (asking.move .job).wait = asking.wait := by decide +kernel
  obtain ⟨-, hs⟩ := asking_reached.engaged hw ⟨_, ht, trivial⟩
  have ho : Open ⟨.var "A$", 10, 1⟩ asking :=
    .begun (asking_start.moves [.submit "RUN", .job]) (by decide +kernel) asking_asks
  have ho' := ho.move .job hw (by rw [Asks, hs trivial]; exact asking_asks)
  have hl := (Overdue.expired ho' ht).move .job (by decide +kernel)
  exact (hl.move .job (by decide +kernel)).move .job (by decide +kernel)

theorem tooSlow_past_deadline : TellsTimeout tooSlow ∧
    Overdue ⟨.var "A$", 10, 1⟩ [.job, .job, .job] tooSlow ∧ tooSlow.Asks ⟨.var "A$", 10, 1⟩ ∧
    tooSlow.told = [.line "?INPUT TIMEOUT IN 10", Session.ready] := by
  obtain ⟨n, htold, -, -, hn⟩ := timeout_only_past_deadline (asking_reached.moves _) tooSlow_tells
  obtain ⟨ha, rfl⟩ := hn _ _ tooSlow_overdue (by simp [Move.Quiet])
  exact ⟨tooSlow_tells, tooSlow_overdue, ha, htold⟩

/-- The answer comes when the time is up and the drive task has not had its turn yet. -/
def tooLate : Runner := asking.moves [.job, .expire, .submit "hi", .job, .job, .job]

theorem answered_input_times_out : ¬ ∀ r, Reached r → TellsTimeout r → r.session.phase = .awaiting := by
  intro h
  have ht : TellsTimeout tooLate := ⟨by decide +kernel, 20, by decide +kernel⟩
  have ha := h tooLate (asking_reached.moves _) ht
  have he : tooLate.session.phase = .executing := by decide +kernel
  exact absurd (he.symm.trans ha) (by decide)

end Timeout

end LineBasic.Runner
