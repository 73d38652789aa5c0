import LineBasic.Proofs.Runner.Deadline

/-! What a client is told that waits until a run asks for input or has ended. It looks at the request
of the drive task, which outlives a stop of the run until the task has left its wait. -/

namespace LineBasic.Runner

def Job.isOwn : Job → Bool
  | .drive | .listen _ | .release _ => true
  | .watch | .notice | .client => false

def hush (r : Runner) : Runner := { r with client := .free, queue := r.queue.filter Job.isOwn }

section Hush

variable {r : Runner}

lemma hush_enqueue {job : Job} (h : job.isOwn = true) : (r.enqueue job).hush = r.hush.enqueue job := by
  simp [hush, enqueue, h]

lemma hush_enqueue_notice {job : Job} (h : job.isOwn = false) : (r.enqueue job).hush = r.hush := by
  simp [hush, enqueue, h]

lemma hush_conclude (outcome : Outcome) : (r.conclude outcome).hush = r.hush.conclude outcome := by
  simp only [conclude]
  cases hc : r.client with
  | free | sleeping => simp [hush, enter, hc]
  | joining | watching => simp [hush, enter, hc, enqueue, Job.isOwn]

lemma hush_request : r.request.hush = r.hush.request := by
  simp only [request]
  rcases hc : r.client with _ | _ | _ | lookout
  · simp [hush]
  · simp [hush]
  · simp [hush]
  · cases lookout <;> simp [hush, enqueue, Job.isOwn]

lemma hush_park : r.park.hush = r.hush.park := by
  have hq : request { r.hush with wake := false } = (request { r with wake := false }).hush :=
    (hush_request (r := { r with wake := false })).symm
  simp only [park]
  rw [hq]
  generalize request { r with wake := false } = q
  have hl : q.hush.limit = q.limit := rfl
  rw [hl]
  cases q.limit with
  | never => rfl
  | unusable => exact hush_conclude _
  | later | atOnce => simp [hush, enter, enqueue, Job.isOwn]

lemma hush_iterate : (iterate .passive r).hush = iterate .passive r.hush := by
  simp only [iterate, show r.hush.session = r.session from rfl]
  split_ifs
  · exact hush_conclude _
  · exact hush_park
  · split
    · exact hush_enqueue rfl
    · exact hush_conclude _

lemma hush_abandon : (abandon .passive r).hush = abandon .passive r.hush := by
  simp only [abandon, show r.hush.session = r.session from rfl]
  split <;> exact hush_conclude _

lemma hush_timeOut : (timeOut .passive r).hush = timeOut .passive r.hush := by
  simp only [timeOut, show r.hush.session = r.session from rfl]
  split
  · exact hush_iterate
  · exact hush_conclude _

lemma hush_close (reason : Closing) : (r.close reason).hush = r.hush.close reason := by
  by_cases hl : r.listener.hearing = .listening
  · simp [close, enter, hush, hl, enqueue, Job.isOwn]
  · simp [close, enter, hush, hl]

lemma hush_leave (reason : Closing) : (leave .passive r reason).hush = leave .passive r.hush reason := by
  simp only [leave, show r.hush.listener = r.listener from rfl]
  split_ifs
  · exact hush_iterate
  · cases reason with
    | expired => exact hush_timeOut
    | cancelled => exact hush_abandon

lemma hush_turn : (turn .passive r).hush = turn .passive r.hush := by
  simp only [turn, show r.hush.task = r.task from rfl, show r.hush.listener = r.listener from rfl]
  rcases r.task with _ | ⟨stage, cancelRequested⟩
  · rfl
  · cases stage with
    | ended outcome => rfl
    | fresh =>
      dsimp only
      split_ifs
      · exact hush_conclude _
      · exact hush_iterate
    | yielded =>
      dsimp only
      split_ifs
      · exact hush_abandon
      · exact hush_iterate
    | parked signal =>
      dsimp only
      split_ifs
      · exact hush_abandon
      · exact hush_iterate
    | waiting signal =>
      dsimp only
      split_ifs
      · exact hush_leave _
      · exact hush_close _
      · exact hush_close _
    | closing reason signal =>
      dsimp only
      split_ifs
      · exact hush_abandon
      · cases reason with
        | expired => exact hush_leave _
        | cancelled => exact hush_abandon

lemma hush_hear (hearing : Hearing) : (r.hear hearing).hush = r.hush.hear hearing := hush_enqueue rfl

lemma hush_listen : r.listen.hush = r.hush.listen := by
  simp only [listen, show r.hush.listener = r.listener from rfl, show r.hush.wake = r.wake from rfl]
  split
  · split_ifs
    · exact hush_hear _
    · exact hush_hear _
    · rfl
  · split_ifs <;> exact hush_hear _
  · exact hush_hear _
  all_goals rfl

lemma hush_release : r.release.hush = r.hush.release := by
  simp only [release, show r.hush.task = r.task from rfl]
  split
  · exact hush_enqueue rfl
  · exact hush_enqueue rfl
  · rfl

lemma hush_expire : r.expire.hush = r.hush.expire := by
  simp only [expire, show r.hush.task = r.task from rfl]
  split
  · exact hush_release
  · rfl

lemma hush_rouse : r.rouse.hush = r.hush.rouse := by
  cases hw : r.wake with
  | true => simp [rouse, hush, hw]
  | false =>
    by_cases hl : r.listener.hearing = .listening
    · simp only [rouse, hush, hw, hl, if_true, Bool.false_eq_true, if_false, enqueue]
      split <;> simp [Job.isOwn]
    · simp only [rouse, hush, hw, hl, Bool.false_eq_true, if_false, enqueue]
      split <;> simp [Job.isOwn]

lemma hush_receive (text : String) : (r.receive .passive text).2.hush = (r.hush.receive .passive text).2 := by
  simp only [receive, show r.hush.session = r.session from rfl]
  split
  · rfl
  · rename_i session _
    simp only [show active { r.hush with session } = active { r with session } from rfl]
    split_ifs
    · exact hush_rouse
    · exact hush_enqueue rfl
    · rfl

lemma hush_stop : (r.stop .passive).2.hush = (r.hush.stop .passive).2 := by
  simp only [stop, show r.hush.session = r.session from rfl]
  split
  · rfl
  · exact hush_rouse

lemma hush_runJob {job : Job} (h : job.isOwn = true) :
    (runJob .passive r job).hush = runJob .passive r.hush job := by
  cases job with
  | drive => exact hush_turn
  | listen n =>
    simp only [runJob, show r.hush.wait = r.wait from rfl]
    split_ifs
    · exact hush_listen
    · rfl
  | release n =>
    simp only [runJob, show r.hush.wait = r.wait from rfl]
    split_ifs
    · exact hush_release
    · rfl
  | watch | notice | client => cases h

lemma hush_runJob_notice {job : Job} (h : job.isOwn = false) : (runJob .passive r job).hush = r.hush := by
  cases job with
  | drive | listen | release => cases h
  | watch =>
    simp only [runJob, watch]
    split
    · split_ifs
      · exact hush_enqueue_notice rfl
      · rfl
    · exact hush_enqueue_notice rfl
    · rfl
  | notice =>
    simp only [runJob, notify]
    split
    · have hq : (r.queue.filter fun job => job ≠ .watch ∧ job ≠ .notice).filter Job.isOwn =
          r.queue.filter Job.isOwn := by
        rw [List.filter_filter]
        apply List.filter_congr
        intro job _
        cases job <;> simp [Job.isOwn]
      have hc : [Job.client].filter Job.isOwn = [] := rfl
      simp only [hush, List.filter_append, hq, hc, List.append_nil]
    · rfl
  | client => rfl

lemma hush_work : r.work.hush = r.hush.work ∨ r.work.hush = r.hush := by
  cases hq : r.queue with
  | nil => exact .inl (by simp [work, hush, hq])
  | cons job rest =>
    have hw : r.work = runJob .passive { r with queue := rest } job := by rw [work, hq]
    cases ho : job.isOwn with
    | true =>
      refine .inl ?_
      have hh : r.hush.work = runJob .passive (hush { r with queue := rest }) job := by
        simp [work, hush, hq, ho]
      rw [hw, hh, hush_runJob ho]
    | false =>
      refine .inr ?_
      rw [hw, hush_runJob_notice ho]
      simp [hush, hq, ho]

lemma hush_move (m : Move) : (r.move m).hush = r.hush.move m ∨ (m = .job ∧ (r.move m).hush = r.hush) := by
  cases m with
  | submit text => exact .inl (hush_receive text)
  | stop => exact .inl hush_stop
  | expire => exact .inl hush_expire
  | job =>
    rcases hush_work (r := r) with h | h
    · exact .inl h
    · exact .inr ⟨rfl, h⟩

end Hush

/-- What a runner comes to while one client waits for a request or the end of the run, once or again
and again, and others move as they like. -/
inductive Watched : Runner → Prop
  | call {r : Runner} (h : Reached r) : Watched r
  | look {r : Runner} (h : Watched r) (hc : r.client = .free) (ha : r.active = true)
      (hq : r.requested = false) : Watched r.lookOut
  | move {r : Runner} (h : Watched r) (m : Move) : Watched (r.move m)

inductive Tells (r : Runner) : Bool → Prop
  | ended (hc : r.client = .free) (ha : r.active = false) : Tells r false
  | asked (hc : r.client = .free) (ha : r.active = true) (hq : r.requested = true) : Tells r true

/-- The run was stopped at the `INPUT` that its drive task has asked for, and the task has not left
its wait since. -/
inductive Struck : Runner → Prop
  | stop {r : Runner} (h : Watched r) (hs : r.session.phase = .awaiting) (hq : r.requested = true) :
      Struck (r.move .stop)
  | since {r : Runner} (h : Struck r) (m : Move) (hq : (r.move m).requested = true) : Struck (r.move m)

variable {r : Runner}

lemma Tells.untilBlocked {b : Bool} (h : Tells r b) (n : Nat) :
    untilBlocked .passive r (n + 1) = (b, r) := by
  cases h with
  | ended hc ha => simp [Runner.untilBlocked, hc, ha]
  | asked hc ha hq => simp [Runner.untilBlocked, hc, ha, hq]

lemma hush_lookOut : r.lookOut.hush = r.hush := hush_enqueue_notice rfl

lemma reached_hush_move (h : Reached r.hush) (m : Move) : Reached (r.move m).hush := by
  rcases hush_move (r := r) m with hx | ⟨-, hx⟩
  · rw [hx]
    exact h.move m
  · rw [hx]
    exact h

lemma Reached.hush (h : Reached r) : Reached r.hush := by
  induction h with
  | start h hs hl => exact .start h hs hl
  | move _ m ih => exact reached_hush_move ih m

lemma Watched.hush (h : Watched r) : Reached r.hush := by
  induction h with
  | call h => exact h.hush
  | look _ _ _ _ ih =>
    rw [hush_lookOut]
    exact ih
  | move _ m ih => exact reached_hush_move ih m

def Heeded (r : Runner) : Prop := r.requested = true → ∃ t ∈ r.task, t.stage.Waits

/-- What is asked in the second of two states is asked for a run that waits, or was asked before. -/
def AsksOn (r r' : Runner) : Prop :=
  r'.requested = true → r'.session.phase = r.session.phase ∧
    (r.session.phase = .awaiting ∨ r.requested = true)

section Request

variable {r' : Runner}

lemma Heeded.of_quiet (h : r.requested = false) : Heeded r := by
  intro hq
  exact absurd (h.symm.trans hq) Bool.false_ne_true

lemma AsksOn.of_quiet (h : r'.requested = false) : AsksOn r r' := by
  intro hq
  exact absurd (h.symm.trans hq) Bool.false_ne_true

lemma AsksOn.of_frame (hq : r'.requested = r.requested) (hs : r'.session.phase = r.session.phase) :
    AsksOn r r' := fun h => ⟨hs, .inr (hq ▸ h)⟩

lemma Heeded.keep (h : Heeded r) (hq : r'.requested = r.requested)
    (ht : ∀ t ∈ r.task, t.stage.Waits → ∃ t' ∈ r'.task, t'.stage.Waits) : Heeded r' := by
  intro hr
  obtain ⟨t, hm, hw⟩ := h (hq ▸ hr)
  exact ht t hm hw

lemma Heeded.active (h : Heeded r) (hq : r.requested = true) : r.active = true := by
  obtain ⟨⟨stage, cancelled⟩, ht, hw⟩ := h hq
  apply active_of_task ht
  cases stage with
  | parked | waiting | closing => rfl
  | fresh | yielded | ended => exact hw.elim

lemma Served.iterate_asks (h : Served r) (hq : r.requested = false) :
    Heeded (Runner.iterate .passive r) ∧ AsksOn r (Runner.iterate .passive r) := by
  rcases h.iterate_cases with ⟨-, hx⟩ | ⟨hs, hx⟩ | ⟨-, t, -, -, hx⟩
  · rw [hx]
    exact ⟨.of_quiet hq, .of_quiet hq⟩
  · rw [hx]
    refine ⟨fun _ => ?_, fun _ => ⟨?_, .inl hs⟩⟩
    · by_cases hl : r.limit = .never
      · rw [h.park_never hl]
        exact ⟨_, rfl, trivial⟩
      · rw [h.park_limited hl]
        refine ⟨_, rfl, ?_⟩
        dsimp only
        split <;> trivial
    · rw [park_session h]
  · rw [hx]
    exact ⟨.of_quiet hq, .of_quiet hq⟩

lemma Orderly.turn_asks (h : Orderly r) (hw : Heeded r) :
    Heeded (Runner.turn .passive r) ∧ AsksOn r (Runner.turn .passive r) := by
  have ht := turn_turned h.calm
  generalize Runner.turn .passive r = r' at ht
  have hs : Served { r with requested := false } := { h with }
  cases ht with
  | none => exact ⟨hw, .of_frame rfl rfl⟩
  | @onward t asked ht hl hq =>
    -- A task that does not wait has no request to begin with.
    obtain rfl : asked = false := by
      by_contra ha
      obtain ⟨hr, hn⟩ := hq (by simpa using ha)
      obtain ⟨u, hu, hwu⟩ := hw hr
      cases ht.symm.trans hu
      exact hn hwu
    obtain ⟨hh, ha⟩ := hs.iterate_asks rfl
    refine ⟨hh, fun hr => (ha hr).imp_right fun hp => hp.imp_right ?_⟩
    rintro ⟨⟩
  | close ht =>
    have hq : (r.close .expired).requested = r.requested := by
      simp only [Runner.close]
      split_ifs <;> rfl
    obtain ⟨hse, hta, -⟩ := close_frame r .expired
    exact ⟨fun _ => ⟨_, hta, trivial⟩, .of_frame hq (by rw [hse])⟩
  | timeOut =>
    obtain ⟨t, -, -, -, hx⟩ := hs.timeOut_eq
    rw [hx]
    exact ⟨.of_quiet rfl, .of_quiet rfl⟩
  | abandon =>
    obtain ⟨t, -, -, -, hx⟩ := hs.abandon_eq
    rw [hx]
    exact ⟨.of_quiet rfl, .of_quiet rfl⟩

lemma listen_requested (r : Runner) : r.listen.requested = r.requested := by
  rw [listen]
  split
  · split_ifs <;> rfl
  · split_ifs <;> rfl
  all_goals rfl

lemma release_requested (r : Runner) : r.release.requested = r.requested := by
  rw [release]
  split <;> rfl

lemma Heeded.release (h : Heeded r) : Heeded r.release := by
  refine h.keep (release_requested r) fun t ht hw => ?_
  rw [Runner.release]
  split
  · exact ⟨_, rfl, trivial⟩
  · exact ⟨_, rfl, trivial⟩
  · exact ⟨t, ht, hw⟩

lemma asksOn_release (r : Runner) : AsksOn r r.release :=
  .of_frame (release_requested r) (by rw [(release_frame r).1])

lemma Orderly.work_asks (h : Orderly r) (hw : Heeded r) : Heeded r.work ∧ AsksOn r r.work := by
  have hx := h.worked
  generalize r.work = r' at hx
  cases hx with
  | none => exact ⟨hw, .of_frame rfl rfl⟩
  | @drive rest =>
    have ho : Orderly { r with queue := rest } := { h with }
    exact ho.turn_asks hw
  | @listen rest =>
    obtain ⟨hs, ht, -⟩ := listen_frame { r with queue := rest }
    have hq := listen_requested { r with queue := rest }
    exact ⟨hw.keep hq fun t hm hwt => ⟨t, ht.trans hm, hwt⟩, .of_frame hq (by rw [hs])⟩
  | @release rest =>
    have hw' : Heeded { r with queue := rest } := hw
    exact ⟨hw'.release, asksOn_release { r with queue := rest }⟩
  | skip => exact ⟨hw, .of_frame rfl rfl⟩

lemma expire_asks (hw : Heeded r) : Heeded r.expire ∧ AsksOn r r.expire := by
  rw [expire]
  split
  · exact ⟨hw.release, asksOn_release r⟩
  · exact ⟨hw, .of_frame rfl rfl⟩

lemma rouse_requested (r : Runner) : r.rouse.requested = r.requested := by
  simp only [rouse]
  split
  · rfl
  · split <;> split <;> rfl

lemma Orderly.receive_asks (h : Orderly r) (hw : Heeded r) (text : String) :
    Heeded (r.receive .passive text).2 ∧ AsksOn r (r.receive .passive text).2 := by
  have hx := receive_received h.sound.coherent text
  generalize (r.receive .passive text).2 = r' at hx
  have hn (ha : r.active = false) : r.requested = false := by
    by_contra hq
    exact absurd (ha.symm.trans (hw.active (by simpa using hq))) Bool.false_ne_true
  cases hx with
  | refused => exact ⟨hw, .of_frame rfl rfl⟩
  | woken => exact ⟨.of_quiet (rouse_requested _), .of_quiet (rouse_requested _)⟩
  | launched _ ha => exact ⟨.of_quiet (hn ha), .of_quiet (hn ha)⟩
  | kept _ ha => exact ⟨.of_quiet (hn ha), .of_quiet (hn ha)⟩

lemma Orderly.stop_asks (h : Orderly r) (hw : Heeded r) :
    Heeded (r.stop .passive).2 ∧ (r.stop .passive).2.requested = r.requested ∧
      (r.stop .passive).2.session.phase = .idle := by
  obtain ⟨t, ht, -, hp⟩ := h.sound.stop (some "BREAK")
  have hx : (r.stop .passive).2 = rouse { r with session := t } := by
    have ht' : Session.stop .passive (some "BREAK") r.session = .ok () t := ht
    rw [Runner.stop, ht']
  have hq := rouse_requested { r with session := t }
  rw [hx]
  refine ⟨hw.keep hq fun u hu hwu => ?_, hq, ?_⟩
  · rcases rouse_task { r with session := t } with hr | ⟨cancelled, -, hr⟩
    · exact ⟨u, hr.trans hu, hwu⟩
    · exact ⟨_, hr, trivial⟩
  · rw [(rouse_frame _).1]
    exact hp

structure Moved (r : Runner) (m : Move) (r' : Runner) : Prop where
  heeded : Heeded r'
  stopped : m = .stop → r'.requested = r.requested ∧ r'.session.phase = .idle
  asks : m ≠ .stop → AsksOn r r'

lemma Orderly.moved (h : Orderly r) (hw : Heeded r) (m : Move) : Moved r m (r.move m) := by
  have hm {m : Move} (hn : m ≠ .stop) (hx : Heeded (r.move m) ∧ AsksOn r (r.move m)) :
      Moved r m (r.move m) := ⟨hx.1, fun he => absurd he hn, fun _ => hx.2⟩
  cases m with
  | submit text => exact hm nofun (h.receive_asks hw text)
  | stop =>
    obtain ⟨hh, hs⟩ := h.stop_asks hw
    exact ⟨hh, fun _ => hs, fun hn => absurd rfl hn⟩
  | job => exact hm nofun (h.work_asks hw)
  | expire => exact hm nofun (expire_asks hw)

end Request

lemma Watched.moved (h : Watched r) (hw : Heeded r) (m : Move) : Moved r m (r.move m) := by
  have hx := h.hush.orderly.moved (r := r.hush) hw m
  rcases hush_move (r := r) m with he | ⟨rfl, he⟩
  · rw [← he] at hx
    exact ⟨hx.heeded, hx.stopped, hx.asks⟩
  · have hq : (r.move .job).hush.requested = r.hush.requested := by rw [he]
    have hs : (r.move .job).hush.session.phase = r.hush.session.phase := by rw [he]
    have ht : (r.move .job).hush.task = r.hush.task := by rw [he]
    exact ⟨hw.keep hq fun t hm hwt => ⟨t, ht.trans hm, hwt⟩, nofun, fun _ => .of_frame hq hs⟩

/-- The drive task asks for a run that waits, or for one that was stopped behind its back. -/
structure Truthful (r : Runner) : Prop where
  heeded : Heeded r
  asked : r.requested = true → r.session.phase = .awaiting ∨ Struck r

lemma Truthful.move (h : Truthful r) (hw : Watched r) (m : Move) : Truthful (r.move m) := by
  have hm := hw.moved h.heeded m
  refine ⟨hm.heeded, fun hq => ?_⟩
  by_cases hs : m = .stop
  · subst hs
    have hq' := (hm.stopped rfl).1.symm.trans hq
    rcases h.asked hq' with hs | hs
    · exact .inr (.stop hw hs hq')
    · exact .inr (.since hs .stop hq)
  · obtain ⟨hp, ha | hr⟩ := hm.asks hs hq
    · exact .inl (hp.trans ha)
    · rcases h.asked hr with ha | ha
      · exact .inl (hp.trans ha)
      · exact .inr (.since ha m hq)

lemma Reached.truthful (h : Reached r) : Truthful r := by
  induction h with
  | start => exact ⟨.of_quiet rfl, nofun⟩
  | move h m ih => exact ih.move (.call h) m

lemma Watched.truthful (h : Watched r) : Truthful r := by
  induction h with
  | call h => exact h.truthful
  | look _ _ _ hq => exact ⟨.of_quiet hq, fun hr => absurd (hq.symm.trans hr) Bool.false_ne_true⟩
  | move hw m ih => exact ih.move hw m

lemma Struck.watched (h : Struck r) : Watched r := by
  induction h with
  | stop h => exact h.move .stop
  | since _ m _ ih => exact ih.move m

lemma Struck.idle (h : Struck r) : r.session.phase = .idle := by
  induction h with
  | stop h => exact ((h.moved h.truthful.heeded .stop).stopped rfl).2
  | since h m hq ih =>
    have hm := h.watched.moved h.watched.truthful.heeded m
    by_cases hs : m = .stop
    · exact (hm.stopped hs).2
    · exact (hm.asks hs hq).1.trans ih

lemma Watched.rests (h : Watched r) (ha : r.active = false) : r.session.running = false := by
  cases hr : r.session.running with
  | false => rfl
  | true => exact absurd (ha.symm.trans (h.hush.orderly.driven hr)) Bool.false_ne_true

lemma Watched.advance (h : Watched r) : Watched (advance .passive r) := by
  rw [Runner.advance]
  split
  · exact h.move .expire
  · rename_i hj
    have hw := h.move .job
    rwa [Runner.move, work, hj] at hw

lemma Watched.untilBlocked (h : Watched r) {n : Nat} {b : Bool} {r' : Runner}
    (hx : untilBlocked .passive r n = (b, r')) : Watched r' ∧ (b = true → Tells r' true) := by
  induction n generalizing r with
  | zero =>
    cases hx
    exact ⟨h, nofun⟩
  | succ n ih =>
    rw [Runner.untilBlocked] at hx
    split_ifs at hx with hc ha hq
    · exact ih h.advance hx
    · cases hx
      exact ⟨h, nofun⟩
    · cases hx
      exact ⟨h, fun _ => .asked (by simpa using hc) (by simpa using ha) hq⟩
    · exact ih (h.look (by simpa using hc) (by simpa using ha) (by simpa using hq)) hx

lemma Watched.awaiting_iff (h : Watched r) (hq : r.requested = true) :
    r.session.phase = .awaiting ↔ ¬ Struck r := by
  constructor
  · intro hs hk
    cases hs.symm.trans hk.idle
  · intro hk
    exact (h.truthful.asked hq).resolve_right hk

/-- A client that waits for a request or the end of the run is told the truth, unless the run was
stopped while its drive task waited and the task has not left that wait yet. -/
theorem until_blocked_true_unless_struck (h : Watched r) :
    (Tells r true → (r.session.phase = .awaiting ↔ ¬ Struck r)) ∧
    (Struck r → r.session.phase = .idle) ∧
    (Tells r false → r.session.running = false) ∧
    ∀ n b r', untilBlocked .passive r n = (b, r') → Watched r' ∧
      (b = true → Tells r' true ∧ (r'.session.phase = .awaiting ↔ ¬ Struck r')) ∧
      (b = false → r'.active = false → r'.session.running = false) := by
  refine ⟨?_, fun hk => hk.idle, ?_, fun n b r' hx => ?_⟩
  · rintro ⟨⟩
    exact h.awaiting_iff ‹_›
  · rintro ⟨⟩
    exact h.rests ‹_›
  · obtain ⟨hw, ht⟩ := h.untilBlocked hx
    refine ⟨hw, fun hb => ⟨ht hb, ?_⟩, fun _ => hw.rests⟩
    cases ht hb with
    | asked _ _ hq => exact hw.awaiting_iff hq

lemma asking_tells : Tells asking true :=
  .asked (by decide +kernel) (by decide +kernel) (by decide +kernel)

theorem asking_told : untilBlocked .passive asking 1 = (true, asking) ∧
    asking.session.phase = .awaiting ∧ ¬ Struck asking := by
  have hs : asking.session.phase = .awaiting := by decide +kernel
  obtain ⟨hask, -⟩ := until_blocked_true_unless_struck (.call asking_reached)
  exact ⟨asking_tells.untilBlocked 0, hs, (hask asking_tells).mp hs⟩

def unaware : Runner := asking.move .stop

lemma unaware_tells : Tells unaware true :=
  .asked (by decide +kernel) (by decide +kernel) (by decide +kernel)

theorem stopped_run_seems_to_ask : ¬ ∀ r, Watched r → ∀ n r', untilBlocked .passive r n = (true, r') →
    r'.session.phase = .awaiting := by
  intro h
  have hs := h unaware (.move (.call asking_reached) .stop) 1 unaware (unaware_tells.untilBlocked 0)
  revert hs
  decide +kernel

end LineBasic.Runner
