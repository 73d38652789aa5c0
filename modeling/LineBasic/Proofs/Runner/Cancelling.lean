import LineBasic.Proofs.Runner.Moves
import LineBasic.Proofs.Session.Interruption

/-! Cancelling the drive task. A task that was cancelled executes nothing more and leaves no run behind,
with two exceptions: one that had not had its first turn ends without stopping the run, and one whose
limited wait is over when it comes to its turn does not notice that it was cancelled. -/

namespace LineBasic.Runner

inductive Deed
  | move (m : Move)
  | cancel

def deed (r : Runner) : Deed → Runner
  | .move m => r.move m
  | .cancel => r.cancel.2

def deeds (r : Runner) (ds : List Deed) : Runner := ds.foldl deed r

inductive Driven : Runner → Prop
  | start {depth : Nat} {s : Session} {limit : Limit} (h : s.Reachable depth) (hs : s.phase = .idle)
      (hl : limit ≠ .unusable) : Driven { session := s, limit }
  | deed {r : Runner} (h : Driven r) (d : Deed) : Driven (r.deed d)

variable {r r₀ : Runner}

section Frame

structure Framed (r r' : Runner) : Prop where
  session : r'.session = r.session
  limit : r'.limit = r.limit
  client : r'.client = r.client
  former : r'.former = r.former
  steps : r'.steps = r.steps

lemma Served.framed (h : Served r) {r' : Runner} (hf : Framed r r') : Served r' :=
  ⟨hf.session ▸ h.sound, hf.limit ▸ h.limit, hf.client.trans h.client, hf.former ▸ h.alone⟩

lemma listen_framed (r : Runner) : Framed r r.listen := by
  rw [listen]
  split
  · split_ifs <;> exact ⟨rfl, rfl, rfl, rfl, rfl⟩
  · split_ifs <;> exact ⟨rfl, rfl, rfl, rfl, rfl⟩
  all_goals exact ⟨rfl, rfl, rfl, rfl, rfl⟩

lemma release_framed (r : Runner) : Framed r r.release := by
  rw [release]
  split <;> exact ⟨rfl, rfl, rfl, rfl, rfl⟩

lemma expire_framed (r : Runner) : Framed r r.expire := by
  rw [expire]
  split
  · exact release_framed r
  · exact ⟨rfl, rfl, rfl, rfl, rfl⟩

lemma rouse_framed (r : Runner) : Framed r r.rouse := by
  simp only [rouse]
  split
  · exact ⟨rfl, rfl, rfl, rfl, rfl⟩
  · split <;> split <;> exact ⟨rfl, rfl, rfl, rfl, rfl⟩

lemma Served.roused (h : Served r) : Served r.rouse := h.framed (rouse_framed r)

lemma close_framed (r : Runner) (reason : Closing) : Framed r (r.close reason) := by
  simp only [close]
  split_ifs <;> exact ⟨rfl, rfl, rfl, rfl, rfl⟩

lemma cancel_framed (r : Runner) : Framed r r.cancel.2 := by
  rw [cancel]
  split
  · exact ⟨rfl, rfl, rfl, rfl, rfl⟩
  · split
    · dsimp only
      split <;> exact ⟨rfl, rfl, rfl, rfl, rfl⟩
    · exact ⟨rfl, rfl, rfl, rfl, rfl⟩

end Frame

section Turn

/-- The wake signal has been heard for a task that has not had a turn since it began to wait. -/
def Overheard (r : Runner) : Prop :=
  r.listener.hearing = .heard ∧ ∃ signal cancelled, r.task = some ⟨.waiting signal, cancelled⟩

/-- The task was cancelled and has not noticed yet, or it has ended. -/
def Task.Marked (t : Task) : Prop :=
  match t.stage with
  | .fresh | .yielded => t.cancelRequested = true
  | .parked signal | .waiting signal => t.cancelRequested = true ∨ signal = .cancelled
  | .closing reason signal => t.cancelRequested = true ∨ signal = .cancelled ∨ reason = .cancelled
  | .ended _ => True

inductive Took (r : Runner) : Runner → Prop
  | none (h : r.active = false) : Took r r
  | unstarted {cancelled : Bool} (h : r.task = some ⟨.fresh, cancelled⟩) :
      Took r (r.enter (.ended .cancelled))
  | onward {t : Task} (asked : Bool) (h : r.task = some t) (hm : t.Marked → Overheard r) :
      Took r (iterate .passive { r with requested := asked })
  | close {t : Task} (reason : Closing) (h : r.task = some t) (hm : t.Marked → reason = .cancelled) :
      Took r (r.close reason)
  | timeOut {t : Task} (h : r.task = some t) (hm : ¬ t.Marked) :
      Took r (timeOut .passive { r with requested := false })
  | abandon (asked : Bool) : Took r (abandon .passive { r with requested := asked })

lemma Served.took (h : Served r) : Took r (turn .passive r) := by
  obtain ⟨session, limit, wake, requested, steps, task, former, wait, listener, client, queue⟩ := r
  rcases task with _ | ⟨stage, cancelled⟩
  · exact .none rfl
  · cases stage with
    | ended outcome => exact .none rfl
    | fresh =>
      cases cancelled with
      | false => exact .onward requested rfl (by simp [Task.Marked])
      | true =>
        simp only [turn, if_true]
        rw [h.conclude]
        exact .unstarted rfl
    | yielded =>
      cases cancelled with
      | false => exact .onward requested rfl (by simp [Task.Marked])
      | true => exact .abandon requested
    | parked signal =>
      simp only [turn]
      split
      · exact .abandon false
      · rename_i hc
        exact .onward false rfl fun hm => absurd (by simpa [Task.Marked] using hm) hc
    | waiting signal =>
      simp only [turn]
      split
      · by_cases hh : listener.hearing = .heard
        · simp only [leave, hh, if_true]
          exact .onward false rfl fun _ => ⟨hh, signal, cancelled, rfl⟩
        · simp only [leave, hh, if_false]
          exact .abandon false
      · split
        · exact .close .cancelled rfl fun _ => rfl
        · rename_i hc
          exact .close .expired rfl fun hm => absurd (by simpa [Task.Marked] using hm) hc
    | closing reason signal =>
      simp only [turn]
      split
      · exact .abandon false
      · rename_i hc
        cases reason with
        | cancelled => exact .abandon false
        | expired =>
          have hm : ¬ Task.Marked ⟨.closing .expired signal, cancelled⟩ := fun hm =>
            absurd (by simpa [Task.Marked] using hm) hc
          by_cases hh : listener.hearing = .heard
          · simp only [leave, hh, if_true]
            exact .onward false rfl fun hm' => absurd hm' hm
          · simp only [leave, hh, if_false]
            exact .timeOut rfl hm

lemma Served.turn (h : Served r) : Served (turn .passive r) := by
  have ht := h.took
  generalize Runner.turn .passive r = r' at ht
  cases ht with
  | none => exact h
  | unstarted => exact { h with }
  | onward asked => exact (Served.iterate (r := { r with requested := asked }) { h with }).toServed
  | close reason => exact h.framed (close_framed r reason)
  | timeOut =>
    have hq : Served { r with requested := false } := { h with }
    obtain ⟨t, -, hst, -, hx⟩ := hq.timeOut_eq
    rw [hx]
    exact { h with sound := hst }
  | abandon asked =>
    have hq : Served { r with requested := asked } := { h with }
    obtain ⟨t, -, hst, -, hx⟩ := hq.abandon_eq
    rw [hx]
    exact { h with sound := hst }

lemma Served.iterate_former (h : Served r) : (Runner.iterate .passive r).former = r.former := by
  rcases h.iterate_cases with ⟨-, hx⟩ | ⟨-, hx⟩ | ⟨-, t, -, -, hx⟩
  · rw [hx]
    rfl
  · by_cases hl : r.limit = .never
    · rw [hx, h.park_never hl]
      rfl
    · rw [hx, h.park_limited hl]
      rfl
  · rw [hx]
    rfl

lemma Served.turn_former (h : Served r) : (Runner.turn .passive r).former = r.former := by
  have ht := h.took
  generalize Runner.turn .passive r = r' at ht
  cases ht with
  | none => rfl
  | unstarted => rfl
  | onward asked =>
    have hq : Served { r with requested := asked } := { h with }
    exact hq.iterate_former
  | close reason => exact (close_framed r reason).former
  | timeOut =>
    have hq : Served { r with requested := false } := { h with }
    obtain ⟨t, -, -, -, hx⟩ := hq.timeOut_eq
    rw [hx]
    rfl
  | abandon asked =>
    have hq : Served { r with requested := asked } := { h with }
    obtain ⟨t, -, -, -, hx⟩ := hq.abandon_eq
    rw [hx]
    rfl

end Turn

section Deeds

lemma Served.work (h : Served r) : Served r.work ∧ r.work.former = r.former := by
  have hx := h.worked
  generalize r.work = r' at hx
  cases hx with
  | none => exact ⟨h, rfl⟩
  | @drive rest =>
    have hq : Served { r with queue := rest } := { h with }
    exact ⟨hq.turn, hq.turn_former⟩
  | @listen rest =>
    have hq : Served { r with queue := rest } := { h with }
    exact ⟨hq.framed (listen_framed _), (listen_framed _).former⟩
  | @release rest =>
    have hq : Served { r with queue := rest } := { h with }
    exact ⟨hq.framed (release_framed _), (release_framed _).former⟩
  | skip => exact ⟨{ h with }, rfl⟩

lemma Served.received (h : Served r) {text : String} {r' : Runner} (hx : Received r text r') :
    Served r' := by
  have hd := h.sound.deliver text
  cases hx with
  | refused hf =>
    rw [Session.after, hf] at hd
    exact { h with sound := hd }
  | woken hs =>
    rw [Session.after, hs] at hd
    apply Served.roused
    exact { h with sound := hd }
  | launched hs ha =>
    rw [Session.after, hs] at hd
    refine { h with sound := hd, alone := fun t ht => ?_ }
    rcases List.mem_append.mp ht with ht | ht
    · exact h.alone t ht
    · have ht' : r.task = some t := Option.mem_toList.mp ht
      simpa [active, ht'] using ha
  | kept hs =>
    rw [Session.after, hs] at hd
    exact { h with sound := hd }

lemma Served.stopped (h : Served r) : ∃ t, t.Sound ∧ t.phase = .idle ∧
    (r.stop .passive).2 = { r with session := t }.rouse := by
  obtain ⟨t, ht, hst, hp⟩ := h.sound.stop (some "BREAK")
  have hx : Session.stop .passive (some "BREAK") r.session = .ok () t := ht
  exact ⟨t, hst, hp, by rw [Runner.stop, hx]⟩

lemma Served.deed (h : Served r) (d : Deed) : Served (r.deed d) := by
  rcases d with (text | _ | _ | _) | _
  · exact h.received (receive_received h.sound.coherent text)
  · obtain ⟨t, hst, -, hx⟩ := h.stopped
    simp only [Runner.deed, move, hx]
    apply Served.roused
    exact { h with sound := hst }
  · exact h.work.1
  · exact h.framed (expire_framed r)
  · exact h.framed (cancel_framed r)

lemma Driven.served (h : Driven r) : Served r := by
  induction h with
  | start h hs hl => exact ⟨h.sound, hl, rfl, by simp⟩
  | deed _ d ih => exact ih.deed d

lemma Served.former_le (h : Served r) (d : Deed) : r.former.length ≤ (r.deed d).former.length := by
  rcases d with (text | _ | _ | _) | _
  · have hx := receive_received h.sound.coherent text
    simp only [Runner.deed, move]
    generalize (r.receive .passive text).2 = r' at hx
    cases hx with
    | refused | kept => exact le_rfl
    | woken => rw [(rouse_framed _).former]
    | launched => exact (List.prefix_append _ _).length_le
  · obtain ⟨t, -, -, hx⟩ := h.stopped
    simp only [Runner.deed, move, hx]
    rw [(rouse_framed _).former]
  · exact (congrArg List.length h.work.2).ge
  · exact (congrArg List.length (expire_framed r).former).ge
  · exact (congrArg List.length (cancel_framed r).former).ge

lemma Served.former_le_deeds (h : Served r) (ds : List Deed) :
    r.former.length ≤ (r.deeds ds).former.length := by
  induction ds generalizing r with
  | nil => exact le_rfl
  | cons d ds ih => exact (h.former_le d).trans (ih (h.deed d))

end Deeds

section Doomed

/-- What has become of a task since it was cancelled in `r₀`. -/
structure Doomed (r₀ : Runner) (r : Runner) : Prop extends Served r where
  former : r.former = r₀.former
  steps : r.steps = r₀.steps
  marked : ∃ t, r.task = some t ∧ t.Marked
  started : (∀ t ∈ r₀.task, t.stage ≠ .fresh) → ∀ t ∈ r.task, t.stage ≠ .fresh
  stopped : (∀ t ∈ r₀.task, t.stage ≠ .fresh) → r.active = false → r.session.running = false

lemma Doomed.alive {r' : Runner} {t : Task} (hs : Served r') (hf : r'.former = r₀.former)
    (hp : r'.steps = r₀.steps) (ht : r'.task = some t) (hm : t.Marked) (ha : t.isAlive = true)
    (hst : t.stage = .fresh → ∃ u ∈ r₀.task, u.stage = .fresh) : Doomed r₀ r' := by
  refine ⟨hs, hf, hp, ⟨t, ht, hm⟩, fun hq t' ht' hz => ?_, fun _ hn => ?_⟩
  · cases ht.symm.trans ht'
    obtain ⟨u, hu, hz⟩ := hst hz
    exact hq u hu hz
  · simp [active, ht, ha] at hn

lemma Doomed.fresh (h : Doomed r₀ r) {t : Task} (ht : r.task = some t) (hz : t.stage = .fresh) :
    ∃ u ∈ r₀.task, u.stage = .fresh := by
  by_contra hn
  exact h.started (fun u hu hz => hn ⟨u, hu, hz⟩) t ht hz

lemma Task.cancel_marked {t : Task} (ha : t.isAlive = true) : t.cancel.1.Marked ∧
    t.cancel.1.isAlive = true ∧ (t.cancel.1.stage = .fresh → t.stage = .fresh) := by
  obtain ⟨stage, cancelled⟩ := t
  cases stage with
  | fresh | yielded => simp [Task.cancel, Task.Marked, Task.isAlive]
  | parked signal | waiting signal | closing _ signal =>
    cases signal <;> simp [Task.cancel, Task.Marked, Task.isAlive]
  | ended outcome => cases ha

lemma cancel_task {t : Task} (ht : r.task = some t) (ha : t.isAlive = true) :
    r.cancel.2.task = some t.cancel.1 := by
  simp only [cancel, ht, ha, if_true]
  split <;> rfl

lemma Served.doomed (h : Served r) {t : Task} (ht : r.task = some t) (ha : t.isAlive = true) :
    Doomed r r.cancel.2 := by
  obtain ⟨hm, ha', hz⟩ := t.cancel_marked ha
  have hf := cancel_framed r
  exact .alive (h.framed hf) hf.former hf.steps (cancel_task ht ha) hm ha' fun hz' => ⟨t, ht, hz hz'⟩

lemma Doomed.ended (h : Doomed r₀ r) {s : Session} (hs : s.Sound) (hp : s.phase = .idle) (asked : Bool)
    (outcome : Outcome) :
    Doomed r₀ ({ r with session := s, requested := asked }.enter (.ended outcome)) := by
  refine { h with sound := hs, marked := ⟨_, rfl, trivial⟩, started := ?_, stopped := ?_ }
  · rintro - t ⟨⟩
    exact Stage.noConfusion
  · intro _ _
    simp [enter, Session.running, hp]

lemma Doomed.turn (h : Doomed r₀ r) (hn : ¬ Overheard r) : Doomed r₀ (Runner.turn .passive r) := by
  obtain ⟨u, hu, hm⟩ := h.marked
  have ht := h.took
  generalize Runner.turn .passive r = r' at ht
  cases ht with
  | none => exact h
  | unstarted ht =>
    refine { h with marked := ⟨_, rfl, trivial⟩, started := ?_, stopped := ?_ }
    · rintro - t ⟨⟩
      exact Stage.noConfusion
    · exact fun hq => absurd rfl (h.started hq _ ht)
  | onward asked ht ho =>
    cases hu.symm.trans ht
    exact absurd (ho hm) hn
  | close reason ht hc =>
    cases hu.symm.trans ht
    obtain rfl := hc hm
    have hf := close_framed r .cancelled
    have ht' : (r.close .cancelled).task = some ⟨.closing .cancelled .pending, false⟩ := by
      simp only [Runner.close]
      split_ifs <;> rfl
    exact .alive (h.framed hf) (hf.former.trans h.former) (hf.steps.trans h.steps) ht'
      (by simp [Task.Marked]) rfl (by simp)
  | timeOut ht hc =>
    cases hu.symm.trans ht
    exact absurd hm hc
  | abandon asked =>
    have hq : Served { r with requested := asked } := { h with }
    obtain ⟨t, -, hst, hp, hx⟩ := hq.abandon_eq
    rw [hx]
    exact h.ended hst hp asked .cancelled

lemma Doomed.framed (h : Doomed r₀ r) {r' : Runner} (hf : Framed r r') (ht : r'.task = r.task) :
    Doomed r₀ r' where
  toServed := h.toServed.framed hf
  former := hf.former.trans h.former
  steps := hf.steps.trans h.steps
  marked := ht ▸ h.marked
  started := ht ▸ h.started
  stopped hq ha := by
    rw [hf.session]
    exact h.stopped hq (by rwa [active, ← ht])

lemma Doomed.signalled (h : Doomed r₀ r) {r' : Runner} (hf : Framed r r') {stage : Stage} {t : Task}
    (ht : r.task = some t) (ht' : r'.task = some { t with stage }) (ha : Task.isAlive { stage } = true)
    (hz : stage ≠ .fresh) (hm : t.Marked → Task.Marked { t with stage }) : Doomed r₀ r' := by
  obtain ⟨u, hu, hmu⟩ := h.marked
  cases ht.symm.trans hu
  exact .alive (h.toServed.framed hf) (hf.former.trans h.former) (hf.steps.trans h.steps) ht' (hm hmu)
    ha fun hz' => absurd hz' hz

lemma Doomed.release (h : Doomed r₀ r) : Doomed r₀ r.release := by
  have hf := release_framed r
  rw [Runner.release] at hf ⊢
  split
  · rename_i ht
    rw [ht] at hf
    exact h.signalled hf ht rfl rfl (by simp) (by simp [Task.Marked])
  · rename_i ht
    rw [ht] at hf
    exact h.signalled hf ht rfl rfl (by simp) (by simp [Task.Marked])
  · exact h

lemma Doomed.rouse (h : Doomed r₀ r) : Doomed r₀ r.rouse := by
  have hf := rouse_framed r
  rcases rouse_task r with ht | ⟨cancelled, ht, ht'⟩
  · exact h.framed hf ht
  · exact h.signalled hf ht ht' rfl (by simp) (by simp [Task.Marked])

lemma Doomed.expire (h : Doomed r₀ r) : Doomed r₀ r.expire := by
  rw [Runner.expire]
  split
  · exact h.release
  · exact h

lemma Doomed.cancel (h : Doomed r₀ r) : Doomed r₀ r.cancel.2 := by
  obtain ⟨t, ht, -⟩ := h.marked
  have hf := cancel_framed r
  cases ha : t.isAlive with
  | false => exact h.framed hf (by simp [Runner.cancel, ht, ha])
  | true =>
    obtain ⟨hm, ha', hz⟩ := t.cancel_marked ha
    exact .alive (h.toServed.framed hf) (hf.former.trans h.former) (hf.steps.trans h.steps)
      (cancel_task ht ha) hm ha' fun hz' => h.fresh ht (hz hz')

lemma Doomed.work (h : Doomed r₀ r) (hn : ¬ Overheard r) : Doomed r₀ r.work := by
  have hx := h.worked
  generalize r.work = r' at hx
  cases hx with
  | none => exact h
  | @drive rest =>
    have hq : Doomed r₀ { r with queue := rest } := { h with }
    exact hq.turn hn
  | @listen rest =>
    have hq : Doomed r₀ { r with queue := rest } := { h with }
    refine hq.framed (listen_framed _) ?_
    rw [Runner.listen]
    split
    · split_ifs <;> rfl
    · split_ifs <;> rfl
    all_goals rfl
  | @release rest =>
    have hq : Doomed r₀ { r with queue := rest } := { h with }
    exact hq.release
  | skip => exact { h with }

lemma Doomed.inSession (h : Doomed r₀ r) {s : Session} (hs : s.Sound) (asked : Bool)
    (hr : r.active = false → r.session.running = false → s.running = false) :
    Doomed r₀ { r with session := s, requested := asked } :=
  { h with sound := hs, stopped := fun hq ha => hr ha (h.stopped hq ha) }

def Restarts (r : Runner) (d : Deed) : Prop :=
  ∃ text, d = .move (.submit text) ∧ Text.upper (Text.trim text) = "RUN" ∧ r.session.running = false

/-- Only a task that has ended is replaced, and if the run was stopped only a `RUN` replaces it. -/
lemma Doomed.received (h : Doomed r₀ r) {text : String} {r' : Runner} (hx : Received r text r') :
    Doomed r₀ r' ∨ r₀.former.length < r'.former.length ∧
      ((∀ t ∈ r₀.task, t.stage ≠ .fresh) → r.Restarts (.move (.submit text))) := by
  have hd := h.sound.deliver text
  cases hx with
  | @refused _ e hf =>
    rw [Session.after, hf] at hd
    exact .inl (h.inSession hd r.requested fun _ hr => hr)
  | woken hs ha =>
    rw [Session.after, hs] at hd
    have hw := h.inSession hd false fun hn => absurd (hn.symm.trans ha) Bool.false_ne_true
    exact .inl hw.rouse
  | launched hs ha hp =>
    refine .inr ⟨?_, fun hq => ?_⟩
    · obtain ⟨t, ht, -⟩ := h.marked
      simp [launch, Runner.enqueue, enter, ht, h.former]
    · refine ⟨text, rfl, ?_, h.stopped hq ha⟩
      by_contra hr
      have hi := h.sound.coherent.idle_of_not_running (h.stopped hq ha)
      have hrest := Session.rests_deliver hr _ hi
      rw [Session.after, hs] at hrest
      exact Phase.noConfusion (hrest.symm.trans hp)
  | @kept s hs ha hp =>
    rw [Session.after, hs] at hd
    refine .inl (h.inSession hd r.requested fun _ hr => ?_)
    have hi := h.sound.coherent.idle_of_not_running hr
    have hw := Session.deliver_not_awaiting text r.session (by simp [hi])
    rw [Session.after, hs] at hw
    simp [Session.running, hp, hw]

lemma Doomed.deed (h : Doomed r₀ r) (hn : ¬ Overheard r) (d : Deed) : Doomed r₀ (r.deed d) ∨
    r₀.former.length < (r.deed d).former.length ∧
      ((∀ t ∈ r₀.task, t.stage ≠ .fresh) → r.Restarts d) := by
  rcases d with (text | _ | _ | _) | _
  · exact h.received (receive_received h.sound.coherent text)
  · obtain ⟨t, hst, hp, hx⟩ := h.toServed.stopped
    have hs := h.inSession hst r.requested fun _ _ => by simp [Session.running, hp]
    simp only [Runner.deed, move, hx]
    exact .inl hs.rouse
  · exact .inl (h.work hn)
  · exact .inl h.expire
  · exact .inl h.cancel

lemma Doomed.deeds (h : Doomed r₀ r) (ds : List Deed)
    (hn : ∀ es, es <+: ds → (r.deeds es).former.length = r₀.former.length → ¬ Overheard (r.deeds es)) :
    Doomed r₀ (r.deeds ds) ∨
    r₀.former.length < (r.deeds ds).former.length ∧ ((∀ t ∈ r₀.task, t.stage ≠ .fresh) →
      ∃ es d, es ++ [d] <+: ds ∧ (r.deeds es).Restarts d) := by
  induction ds generalizing r with
  | nil => exact .inl h
  | cons d ds ih =>
    have hd := h.deed (hn [] List.nil_prefix (congrArg List.length h.former)) d
    have hs := h.toServed.deed d
    rcases hd with hd | ⟨hl, hr⟩
    · have hds := ih hd fun es he => hn (d :: es) ((List.prefix_cons_inj d).mpr he)
      refine hds.imp_right fun ⟨hl, hr⟩ => ⟨hl, fun hq => ?_⟩
      obtain ⟨es, d', he, ht⟩ := hr hq
      exact ⟨d :: es, d', (List.prefix_cons_inj d).mpr he, ht⟩
    · refine .inr ⟨hl.trans_le (hs.former_le_deeds ds), fun hq => ⟨[], d, ?_, hr hq⟩⟩
      exact (List.prefix_cons_inj d).mpr List.nil_prefix

end Doomed

/-- A task is cancelled, and whatever may follow follows. Unless its wait was over before it had its turn,
it executes nothing more; if it had begun, no run is left once it has ended, until a new one is started. -/
theorem cancel_ends_run (h : Driven r) {t : Task} (ht : r.task = some t) (ha : t.isAlive = true)
    (ds : List Deed) :
    (∃ es, es <+: ds ∧ (r.cancel.2.deeds es).former.length = r.former.length ∧
      Overheard (r.cancel.2.deeds es)) ∨
    ((r.cancel.2.deeds ds).former.length = r.former.length →
      (r.cancel.2.deeds ds).steps = r.steps ∧
      (t.stage ≠ .fresh → (r.cancel.2.deeds ds).active = false →
        (r.cancel.2.deeds ds).session.running = false)) ∧
    (t.stage ≠ .fresh → (∀ es d, es ++ [d] <+: ds → ¬ (r.cancel.2.deeds es).Restarts d) →
      (r.cancel.2.deeds ds).former.length = r.former.length) := by
  rw [or_iff_not_imp_left]
  intro ho
  have hd := (h.served.doomed ht ha).deeds ds fun es he hf hx => ho ⟨es, he, hf, hx⟩
  have hst (hz : t.stage ≠ .fresh) : ∀ u ∈ r.task, u.stage ≠ .fresh := by
    intro u hu
    cases ht.symm.trans hu
    exact hz
  rcases hd with hd | ⟨hl, hr⟩
  · exact ⟨fun _ => ⟨hd.steps, fun hz => hd.stopped (hst hz)⟩, fun _ _ => congrArg List.length hd.former⟩
  · refine ⟨fun he => absurd he hl.ne', fun hz hn => ?_⟩
    obtain ⟨es, d, he, hs⟩ := hr (hst hz)
    exact absurd hs (hn es d he)

lemma Reached.driven (h : Reached r) : Driven r := by
  induction h with
  | start h hs hl => exact .start h hs hl
  | move _ m ih => exact ih.deed (.move m)

theorem asking_cancelled : (asking.cancel.2.deeds (.replicate 5 (.move .job))).steps = asking.steps ∧
    (asking.cancel.2.deeds (.replicate 5 (.move .job))).active = false ∧
    (asking.cancel.2.deeds (.replicate 5 (.move .job))).session.running = false := by
  have ht : asking.task = some ⟨.waiting .pending, false⟩ := by with_unfolding_all rfl
  have hn : ∀ k ≤ 5, (asking.cancel.2.deeds (.replicate k (.move .job))).listener.hearing ≠ .heard := by
    decide +kernel
  have ha : (asking.cancel.2.deeds (.replicate 5 (.move .job))).active = false := by decide +kernel
  have hf : (asking.cancel.2.deeds (.replicate 5 (.move .job))).former.length = asking.former.length := by
    decide +kernel
  rcases cancel_ends_run asking_reached.driven ht rfl (.replicate 5 (.move .job)) with
    ⟨es, he, -, hh, -⟩ | ⟨hstop, -⟩
  · obtain ⟨hk, hes⟩ := List.prefix_replicate_iff.mp he
    rw [hes] at hh
    exact absurd hh (hn _ hk)
  · obtain ⟨hsteps, hr⟩ := hstop hf
    exact ⟨hsteps, ha, hr nofun ha⟩

def answered : Runner := asking.moves [.job, .submit "hi"]

def unstarted : Runner := moves { session := Session.parrot } [.submit "RUN"]

theorem cancel_not_noticed :
    (¬ ∀ r ds, Driven r → r.active = true → (r.cancel.2.deeds ds).former.length = r.former.length →
      (r.cancel.2.deeds ds).steps = r.steps) ∧
    (¬ ∀ r ds, Driven r → r.active = true →
      (∀ text, .move (.submit text) ∈ ds → Text.upper (Text.trim text) ≠ "RUN") →
      (r.cancel.2.deeds ds).active = false → (r.cancel.2.deeds ds).session.running = false) := by
  refine ⟨fun h => ?_, fun h => ?_⟩
  · have hs := h answered [.move .job, .move .job] (asking_reached.moves _).driven (by decide +kernel)
      (by decide +kernel)
    have hn : (answered.cancel.2.deeds [.move .job, .move .job]).steps ≠ answered.steps := by
      decide +kernel
    exact hn hs
  · have hd : Driven unstarted :=
      ((Reached.start Session.parrot_reachable (by decide +kernel) (by decide)).moves _).driven
    have hr := h unstarted [.move .job] hd (by decide +kernel) (by simp) (by decide +kernel)
    have hn : (unstarted.cancel.2.deeds [.move .job]).session.running = true := by decide +kernel
    exact Bool.false_ne_true (hr.symm.trans hn)

end LineBasic.Runner
