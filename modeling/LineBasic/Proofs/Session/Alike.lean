import LineBasic.Proofs.Session.Coherence

/-! Sessions that only differ in what they have told so far, in whether they show what is typed, and
between runs in the place that the last run has left. Calls end alike on them and tell the same. -/

namespace LineBasic.Session

structure Alike (s t : Session) : Prop where
  program : s.program = t.program
  compiled : s.compiled = t.compiled
  vars : s.vars = t.vars
  phase : s.phase = t.phase
  pending : s.pending = t.pending
  stopRequested : s.stopRequested = t.stopRequested
  stepping : s.stepping = t.stepping
  stopReport : s.stopReport = t.stopReport
  depth : s.depth = t.depth
  place : s.phase ≠ .idle → s.order = t.order ∧ s.pc = t.pc

section Alike

variable {s t : Session}

lemma Alike.refl (s : Session) : Alike s s :=
  ⟨rfl, rfl, rfl, rfl, rfl, rfl, rfl, rfl, rfl, fun _ => ⟨rfl, rfl⟩⟩

lemma Alike.symm (h : Alike s t) : Alike t s := by
  refine ⟨h.program.symm, h.compiled.symm, h.vars.symm, h.phase.symm, h.pending.symm,
    h.stopRequested.symm, h.stepping.symm, h.stopReport.symm, h.depth.symm, fun hp => ?_⟩
  obtain ⟨ho, hpc⟩ := h.place (h.phase ▸ hp)
  exact ⟨ho.symm, hpc.symm⟩

lemma Alike.running (h : Alike s t) : s.running = t.running := by simp only [Session.running, h.phase]

lemma Alike.currentLine (h : Alike s t) : s.currentLine = t.currentLine := by
  rw [Session.currentLine, Session.currentLine, ← h.phase, ← h.pending]
  cases hp : s.phase with
  | idle => rfl
  | compiling => rfl
  | executing | awaiting =>
    obtain ⟨ho, hpc⟩ := h.place (by simp [hp])
    rw [ho, hpc]

lemma Alike.coherent (h : Alike s t) (hs : s.Coherent) : t.Coherent := by
  refine ⟨h.program ▸ hs.ascending, h.stopRequested ▸ hs.stopRequested, h.stepping ▸ hs.stepping,
    h.stopReport ▸ hs.stopReport, ?_⟩
  have hp := hs.placed
  simp only [Placed, Loaded, Parked, ← h.phase, ← h.pending, ← h.program, ← h.compiled, ← h.depth] at hp ⊢
  cases hph : s.phase with
  | idle => simpa [hph] using hp
  | compiling => simp [hph] at hp
  | executing | awaiting =>
    obtain ⟨ho, hpc⟩ := h.place (by simp [hph])
    simpa [hph, ho, hpc] using hp

lemma Alike.echoed (h : Alike s t) (e : Event) : Alike (s.echoed e) (t.echoed e) := { h with }

lemma Alike.record (h : Alike s t) (e : Event) : Alike (s.record e) (t.record e) := { h with }

end Alike

/-- Two sessions that have become `s` and `t` and have told the same since `told` and `told'`. -/
def Grown (told told' : List Event) (s t : Session) : Prop :=
  Alike s t ∧ ∃ es, s.events.toList = told ++ es ∧ t.events.toList = told' ++ es

/-- Two ends of a call, with the same value or the same fault. -/
inductive Ended {α : Type} (told told' : List Event) :
    EStateM.Result Fault Session α → EStateM.Result Fault Session α → Prop
  | ok {s t : Session} (a : α) (h : Grown told told' s t) : Ended told told' (.ok a s) (.ok a t)
  | error {s t : Session} (fault : Fault) (h : Grown told told' s t) :
      Ended told told' (.error fault s) (.error fault t)

def Tied {α : Type} (act : Act α) : Prop := ∀ s t, s.Coherent → Alike s t →
  Ended s.events.toList t.events.toList (act.run s) (act.run t)

section Grown

variable {told told' : List Event} {s t u v : Session}

lemma Alike.grown (h : Alike s t) : Grown s.events.toList t.events.toList s t :=
  ⟨h, [], (List.append_nil _).symm, (List.append_nil _).symm⟩

lemma Grown.trans (h : Grown told told' s t) (h' : Grown s.events.toList t.events.toList u v) :
    Grown told told' u v := by
  obtain ⟨-, es, hs, ht⟩ := h
  obtain ⟨ha, es', hu, hv⟩ := h'
  exact ⟨ha, es ++ es', by rw [hu, hs, List.append_assoc], by rw [hv, ht, List.append_assoc]⟩

lemma Ended.of_grown {α : Type} (h : Grown told told' s t) {x y : EStateM.Result Fault Session α}
    (h' : Ended s.events.toList t.events.toList x y) : Ended told told' x y := by
  cases h' with
  | ok a h' => exact .ok a (h.trans h')
  | error fault h' => exact .error fault (h.trans h')

lemma Alike.grown_finished (h : Alike s t) :
    Grown s.events.toList t.events.toList s.finished t.finished := by
  refine ⟨{ h with
    phase := rfl, pending := rfl, stopRequested := rfl, stopReport := rfl,
    place := fun hp => absurd rfl hp }, s.stopReport.toList.map .line ++ [ready], ?_, ?_⟩
  · rw [toList_finished, List.append_assoc]
  · rw [toList_finished, List.append_assoc, h.stopReport]

lemma Alike.grown_moveTo (h : Alike s t) (hs : s.phase ≠ .idle) (pc : Nat) :
    Grown s.events.toList t.events.toList (s.moveTo pc) (t.moveTo pc) := by
  have ho := (h.place hs).1
  have hm : Alike { s with pc } { t with pc } := { h with place := fun _ => ⟨ho, rfl⟩ }
  by_cases hp : s.order.size ≤ pc
  · rw [moveTo, moveTo, if_pos hp, if_pos (ho ▸ hp)]
    exact hm.grown_finished
  · rw [moveTo, moveTo, if_neg hp, if_neg (ho ▸ hp)]
    exact hm.grown

lemma Alike.grown_halted (h : Alike s t) (n : Int) (d : Diagnostic) :
    Grown s.events.toList t.events.toList (s.halted n d) (t.halted n d) := by
  have hr : Alike { s.record (.line (d.report (some n))) with stepping := false }
      { t.record (.line (d.report (some n))) with stepping := false } := { h with stepping := rfl }
  exact Grown.trans ⟨hr, [.line (d.report (some n))], toList_record s _, toList_record t _⟩
    hr.grown_finished

end Grown

section Tied

variable {α β : Type}

lemma tied_pure (a : α) : Tied (pure a : Act α) := fun _ _ _ h => .ok a h.grown

lemma tied_fail (cause : Cause) : Tied (fail cause : Act α) := fun _ _ _ h => .error _ h.grown

lemma tied_ofExcept (x : Except Fault α) : Tied (ofExcept x) := by
  intro s t _ h
  cases x with
  | ok a => exact .ok a h.grown
  | error fault => exact .error fault h.grown

lemma tied_emit (e : Event) : Tied (emit .passive e) := by
  intro s t _ h
  exact .ok () ⟨h.record e, [e], toList_record s e, toList_record t e⟩

lemma Tied.bind {act : Act α} {next : α → Act β} (ha : Tied act) (hk : Keeps act)
    (hn : ∀ a, Tied (next a)) : Tied (act >>= next) := by
  intro s t hc h
  have hx := ha s t hc h
  have hc' := hk s hc
  rw [after] at hc'
  rw [EStateM.run_bind, EStateM.run_bind]
  generalize act.run s = x at hx hc' ⊢
  generalize act.run t = y at hx ⊢
  cases hx with
  | ok a hg => exact .of_grown hg (hn a _ _ hc' hg.1)
  | error fault hg => exact .error fault hg

lemma Tied.get_bind {next : Session → Act α} (h : ∀ s t, s.Coherent → Alike s t →
    Ended s.events.toList t.events.toList ((next s).run s) ((next t).run t)) :
    Tied (get >>= next) := by
  intro s t hc ha
  exact h s t hc ha

lemma Ended.reporting {told told' : List Event} {s t : Session} {act : Act α}
    {report : Diagnostic → Act α} (h : Ended told told' (act.run s) (act.run t))
    (hc : (after act s).Coherent) (hr : ∀ d, Tied (report d)) :
    Ended told told' ((reporting act report).run s) ((reporting act report).run t) := by
  rw [after] at hc
  rw [run_reporting, run_reporting]
  generalize act.run s = x at h hc ⊢
  generalize act.run t = y at h ⊢
  cases h with
  | ok a hg => exact .ok a hg
  | error fault hg =>
    cases fault with
    | told d => exact .of_grown hg (hr d _ _ hc hg.1)
    | _ => exact .error _ hg

end Tied

lemma settle_ended {s t : Session} (h : Alike s t) (hs : s.phase = .executing) (n : Int)
    (x : Except Fault Effect) : Ended s.events.toList t.events.toList (s.settle n x) (t.settle n x) := by
  obtain ⟨ho, hpc⟩ := h.place (by simp [hs])
  rcases x with fault | ⟨vars, told⟩ | target | ⟨prompt, target⟩
  · cases fault with
    | told d => exact .ok () (h.grown_halted n d)
    | _ => exact .error _ ⟨{ h with stepping := rfl }, [], by simp, by simp⟩
  · have ha : Alike { s.tell told with vars, stepping := false }
        { t.tell told with vars, stepping := false } :=
      { h with vars := rfl, stepping := rfl }
    have hm := ha.grown_moveTo (by simp [tell, hs]) (s.pc + 1)
    simp only [settle, ← hpc]
    exact .ok () (Grown.trans ⟨ha, told, by simp [tell], by simp [tell]⟩ hm)
  · cases hr : resolve? s.order target with
    | none =>
      simp only [settle, hr, ho ▸ hr]
      exact .ok () (h.grown_halted n _)
    | some i =>
      have ha : Alike { s with stepping := false } { t with stepping := false } := { h with stepping := rfl }
      simp only [settle, hr, ho ▸ hr]
      exact .ok () (ha.grown_moveTo (by simp [hs]) i)
  · refine .ok () ⟨{ h with pending := ?_, phase := rfl, stepping := rfl, place := fun _ => ⟨ho, hpc⟩ },
      [.line prompt, .request prompt], ?_, ?_⟩
    · simp [asked, hpc]
    · simp [asked]
    · simp [asked]

lemma tied_step : Tied (step .passive) := by
  intro s t hc h
  by_cases hs : s.phase = .executing
  · obtain ⟨n, stmt, hn, hf⟩ := hc.exists_statement hs
    obtain ⟨ho, hpc⟩ := h.place (by simp [hs])
    have hq := hc.stopRequested
    rw [step_passive hs hq hn hf,
      step_passive (h.phase ▸ hs) (h.stopRequested ▸ hq) (ho ▸ hpc ▸ hn) (h.compiled ▸ hf), ← h.vars]
    exact settle_ended h hs n _
  · rw [step_passive_of_rest hs, step_passive_of_rest (h.phase ▸ hs)]
    exact .ok () h.grown

lemma tied_advanceFrom (done limit : Nat) : Tied (advanceFrom .passive done limit) := by
  induction limit generalizing done with
  | zero => exact tied_pure done
  | succ limit ih =>
    refine Tied.get_bind fun s t hc h => ?_
    rw [h.phase]
    split
    · exact (tied_step.bind keeps_step fun _ => ih (done + 1)) s t hc h
    · exact .ok done h.grown

lemma tied_stop (message : Option String) : Tied (stop .passive message) := by
  intro s t hc h
  cases hs : s.running with
  | false =>
    rw [stop_of_rest hs, stop_of_rest (h.running ▸ hs)]
    exact .ok () h.grown
  | true =>
    have hm : s.stopText message = t.stopText message := by
      simp only [stopText, h.stopReport, h.currentLine]
    rw [stop_passive_of_running hs hc.stepping,
      stop_passive_of_running (h.running ▸ hs) (h.stepping ▸ hc.stepping), ← hm]
    have ha : Alike { s with stopReport := s.stopText message }
        { t with stopReport := s.stopText message } := { h with stopReport := rfl }
    exact .ok () ha.grown_finished

lemma submit_ended {s t : Session} (hc : s.Coherent) (h : Alike s t) (text : String) :
    let shown (s : Session) := if s.phase = .awaiting then s.echoed (.append text) else s
    Ended (shown s).events.toList (shown t).events.toList ((submit .passive text).run s)
      ((submit .passive text).run t) := by
  intro shown
  by_cases hs : s.phase = .awaiting
  · obtain ⟨-, n, prompt, target, -, -, hp⟩ := hc.awaiting hs
    have ht := h.phase ▸ hs
    have he := h.echoed (.append text)
    simp only [shown, if_pos hs, if_pos ht]
    rw [submit_passive hs hp, submit_passive ht (h.pending ▸ hp), accept_passive, accept_passive, ← he.vars]
    cases answer (s.echoed (.append text)).vars target text with
    | error fault => exact .error fault he.grown
    | ok vars =>
      have ha : Alike { s.echoed (.append text) with vars, pending := none, phase := .executing }
          { t.echoed (.append text) with vars, pending := none, phase := .executing } :=
        { he with vars := rfl, pending := rfl, phase := rfl, place := fun _ => h.place (by simp [hs]) }
      exact .ok () (ha.grown_moveTo (by simp) _)
  · have ht : t.phase ≠ .awaiting := h.phase ▸ hs
    simp only [shown, if_neg hs, if_neg ht]
    have hr (u : Session) (hu : u.phase ≠ .awaiting) :
        (submit .passive text).run u = .error (.because .notWaiting) u := by
      simp [submit, hu]
    rw [hr s hs, hr t ht]
    exact .error _ h.grown

lemma tied_storeLine (number : Int) (code : String) : Tied (storeLine number code) := by
  intro s t _ h
  rw [storeLine_run, storeLine_run, ← h.running]
  split_ifs with hs hn
  · exact .error _ h.grown
  · exact .error _ h.grown
  · exact .ok () ⟨{ h with program := by rw [h.program] }, h.grown.2⟩

lemma tied_new : Tied new := by
  intro s t _ h
  rw [new_run, new_run, ← h.running]
  split_ifs with hs
  · exact .error _ h.grown
  · exact .ok () ⟨{ h with program := rfl, compiled := rfl, vars := rfl }, h.grown.2⟩

lemma tied_emitLines (texts : List String) : Tied (emitLines .passive texts) := by
  induction texts with
  | nil => exact tied_pure ()
  | cons text texts ih => exact (tied_emit _).bind (keeps_emit _) fun _ => ih

lemma run_ended {s t : Session} (hc : s.Coherent) (hd : t.Coherent) (hs : s.phase = .idle)
    (ht : t.phase = .idle) (hp : s.program = t.program) (he : s.depth = t.depth) :
    Ended s.events.toList t.events.toList ((run .passive).run s) ((run .passive).run t) := by
  rcases hx : compileLines s.depth s.program with ⟨compiled, none | ⟨n, d⟩⟩
  · rw [run_passive_of_ok hs hx, run_passive_of_ok ht (hp ▸ he ▸ hx)]
    have ha : Alike
        { s with
          vars := {}, compiled, order := (Numbered.numbers compiled).toArray, pc := 0, pending := none,
          stopRequested := false, stopReport := none, phase := .executing }
        { t with
          vars := {}, compiled, order := (Numbered.numbers compiled).toArray, pc := 0, pending := none,
          stopRequested := false, stopReport := none, phase := .executing } :=
      ⟨hp, rfl, rfl, rfl, rfl, rfl, hc.stepping.trans hd.stepping.symm, rfl, he, fun _ => ⟨rfl, rfl⟩⟩
    refine .ok () ?_
    rw [started, started]
    split
    · exact ha.grown_finished
    · exact ha.grown
  · rw [run_passive_of_fault hs hx, run_passive_of_fault ht (hp ▸ he ▸ hx)]
    refine .ok () ⟨⟨hp, rfl, rfl, hs.trans ht.symm, (hc.pending_none hs).trans (hd.pending_none ht).symm,
      hc.stopRequested.trans hd.stopRequested.symm, hc.stepping.trans hd.stepping.symm,
      hc.stopReport.trans hd.stopReport.symm, he, fun hi => absurd hs hi⟩,
      [.line (d.report (some n)), ready], ?_, ?_⟩
    · simp
    · simp

lemma tied_run : Tied (run .passive) := by
  intro s t hc h
  by_cases hs : s.phase = .idle
  · exact run_ended hc (h.coherent hc) hs (h.phase ▸ hs) h.program h.depth
  · rw [run_passive_of_busy hs, run_passive_of_busy (h.phase ▸ hs)]
    exact .ok () h.grown

lemma tied_command (code : String) : Tied (command .passive code) := by
  rw [command]
  split
  · exact (tied_ofExcept _).bind (keeps_ofExcept _) fun number => tied_storeLine number _
  · split
    · exact tied_run
    · refine Tied.get_bind fun s t hc h => ?_
      rw [listing, listing, ← h.program]
      exact ((tied_emitLines _).bind (keeps_emitLines _) fun _ => tied_emit _) s t hc h
    · exact (tied_emit _).bind (keeps_emit _) fun _ => tied_emit _
    · exact tied_new.bind keeps_new fun _ => tied_emit _
    · exact tied_fail _

lemma tied_reportCommand (d : Diagnostic) : Tied (reportCommand .passive d) := by
  refine (tied_emit _).bind (keeps_emit _) fun _ => Tied.get_bind fun s t hc h => ?_
  rw [h.running]
  split
  · exact tied_emit _ s t hc h
  · exact .ok () h.grown

lemma deliver_ended {s t : Session} (hc : s.Coherent) (h : Alike s t) (text : String) :
    let shown (s : Session) := s.echoed (if s.phase = .awaiting then .append text else .line (">" ++ text))
    Ended (shown s).events.toList (shown t).events.toList ((deliver .passive text).run s)
      ((deliver .passive text).run t) := by
  intro shown
  by_cases hs : s.phase = .awaiting
  · have ht := h.phase ▸ hs
    have hx := submit_ended hc h text
    simp only [if_pos hs, if_pos ht] at hx
    simp only [shown, if_pos hs, if_pos ht]
    rw [deliver_of_awaiting hs, deliver_of_awaiting ht]
    exact hx
  · have ht : t.phase ≠ .awaiting := h.phase ▸ hs
    simp only [shown, if_neg hs, if_neg ht]
    rw [deliver_passive hs, deliver_passive ht]
    exact (tied_command _ _ _ (hc.echoed _) (h.echoed _)).reporting (keeps_command _ _ (hc.echoed _))
      tied_reportCommand

end LineBasic.Session
