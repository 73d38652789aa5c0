import LineBasic.Proofs.Session.Sound

/-! What the calls that drive a run leave of a session, and that what was told before has no influence
on them. -/

namespace LineBasic.Session

variable {depth : Nat} {s t : Session}

section Settings

/-- What a session is given at its beginning and no call changes. -/
def settings (s : Session) : Bool × Nat := (s.echo, s.depth)

lemma moveTo_settings (s : Session) (pc : Nat) : (s.moveTo pc).settings = s.settings := by
  rw [moveTo]
  split <;> rfl

lemma Coherent.step_settings (h : s.Coherent) : (after (step .passive) s).settings = s.settings := by
  by_cases hs : s.phase = .executing
  · obtain ⟨n, stmt, hn, hf⟩ := h.exists_statement hs
    simp only [after, step_passive hs h.stopRequested hn hf, settle]
    rcases effect s.vars stmt with fault | ⟨vars, told⟩ | target | ⟨prompt, target⟩
    · cases fault <;> rfl
    · exact moveTo_settings _ _
    · cases hr : resolve? s.order target with
      | none =>
        simp only [hr]
        rfl
      | some i =>
        simp only [hr]
        exact moveTo_settings _ _
    · rfl
  · simp only [after, step_passive_of_rest hs]

variable {c : Bool × Nat}

lemma settings_storeLine (number : Int) (code : String) :
    Preserves (·.settings = c) (storeLine number code) := by
  intro s hs
  simp only [after, storeLine_run]
  split_ifs <;> exact hs

lemma settings_new : Preserves (·.settings = c) new := by
  intro s hs
  simp only [after, new_run]
  split_ifs <;> exact hs

lemma settings_run : Preserves (·.settings = c) (run .passive) := by
  intro s hs
  by_cases hp : s.phase = .idle
  · rcases hc : compileLines s.depth s.program with ⟨compiled, none | ⟨n, d⟩⟩
    · simp only [after, run_passive_of_ok hp hc, started]
      split <;> exact hs
    · simp only [after, run_passive_of_fault hp hc]
      exact hs
  · simpa only [after, run_passive_of_busy hp] using hs

lemma settings_submit (text : String) : Preserves (·.settings = c) (submit .passive text) := by
  intro s hs
  by_cases hp : s.phase = .awaiting
  · cases hq : s.pending with
    | none => simpa [after, submit, hp, hq] using hs
    | some p =>
      simp only [after, submit_passive hp hq, accept_passive]
      cases answer (s.echoed (.append text)).vars p.target text with
      | error fault => exact hs
      | ok vars => exact (moveTo_settings _ _).trans hs
  · simpa [after, submit, hp] using hs

lemma settings_stop (message : Option String) : Preserves (·.settings = c) (stop .passive message) := by
  intro s hs
  cases hr : s.running with
  | false => simpa only [after, stop_of_rest hr] using hs
  | true =>
    simp only [after, stop_of_running hr, finish_passive]
    split_ifs <;> exact hs

lemma Called.settings (hc : Called s t) (h : s.Coherent) : t.settings = s.settings := by
  have hs : Preserves (fun u => u.Coherent ∧ u.settings = s.settings) (Session.step .passive) :=
    fun u hu => ⟨keeps_step u hu.1, hu.1.step_settings.trans hu.2⟩
  exact (hc.preserves (P := fun u => u.Coherent ∧ u.settings = s.settings)
    (fun e => .and (keeps_emit e) fun _ hu => hu)
    (fun n code => .and (keeps_storeLine n code) (settings_storeLine n code))
    (.and keeps_new settings_new) (.and keeps_run settings_run)
    (fun text => .and (keeps_submit text) (settings_submit text)) hs
    (fun message => .and (keeps_stop message) (settings_stop message)) ⟨h, rfl⟩).2

lemma Called.echo_eq (hc : Called s t) (h : s.Coherent) : t.echo = s.echo :=
  congrArg Prod.fst (hc.settings h)

lemma Called.depth_eq (hc : Called s t) (h : s.Coherent) : t.depth = s.depth :=
  congrArg Prod.snd (hc.settings h)

lemma Reachable.depth_eq (h : Reachable depth s) : s.depth = depth := by
  induction h with
  | fresh echo => rfl
  | call h hc ih => exact (hc.depth_eq h.coherent).trans ih

end Settings

lemma Sound.deliver (h : s.Sound) (text : String) : (after (deliver .passive text) s).Sound :=
  ⟨keeps_deliver text s h.coherent, keepsPlain_deliver text s h.plain⟩

lemma Sound.stop (h : s.Sound) (message : Option String) :
    ∃ t, (stop .passive message).run s = .ok () t ∧ t.Sound ∧ t.phase = .idle := by
  have hst : (after (Session.stop .passive message) s).Sound :=
    ⟨keeps_stop message s h.coherent, keepsPlain_stop message s h.plain⟩
  cases hs : s.running with
  | false => exact ⟨s, stop_of_rest hs message, h, h.coherent.idle_of_not_running hs⟩
  | true =>
    have hx := stop_passive_of_running hs h.coherent.stepping message
    rw [after, hx] at hst
    exact ⟨_, hx, hst, rfl⟩

lemma stopText_some (s : Session) {message : String} (hm : message ≠ "") :
    s.stopText (some message) = some ((Diagnostic.of (.halted message) none).report s.currentLine) := by
  simp [stopText]

lemma report_halted (message : String) (n : Int) : (Diagnostic.of (.halted message) none).report (some n) =
    "?" ++ Text.upper message ++ " IN " ++ toString n := rfl

/-- A stop reports its message with the line that the run has come to. -/
lemma Sound.stop_told (h : s.Sound) {message : String} (hm : message ≠ "") {t : Session}
    (ht : (Session.stop .passive (some message)).run s = .ok () t) : t = s ∨ ∃ n : Int,
      s.currentLine = some n ∧ t.events.toList =
        s.events.toList ++ [.line ("?" ++ Text.upper message ++ " IN " ++ toString n), ready] := by
  cases hs : s.running with
  | false =>
    rw [stop_of_rest hs] at ht
    cases ht
    exact .inl rfl
  | true =>
    obtain ⟨n, hn, -⟩ := h.coherent.currentLine hs
    rw [stop_passive_of_running hs h.coherent.stepping] at ht
    cases ht
    refine .inr ⟨n, hn, ?_⟩
    rw [toList_finished, stopText_some s hm, hn, report_halted]
    simp

/-- What is typed starts a run at most, and no run waits from its beginning. -/
lemma deliver_not_awaiting (text : String) : Preserves (·.phase ≠ .awaiting) (deliver .passive text) := by
  refine preserves_deliver (fun e s hs => hs) (preserves_command (fun e s hs => hs) ?_ ?_ ?_) ?_
  · intro n code s hs
    simp only [after, storeLine_run]
    split_ifs <;> exact hs
  · intro s hs
    simp only [after, new_run]
    split_ifs <;> exact hs
  · intro s hs
    by_cases hp : s.phase = .idle
    · rcases hc : compileLines s.depth s.program with ⟨compiled, none | ⟨n, d⟩⟩
      · simp only [after, run_passive_of_ok hp hc, started]
        split_ifs <;> simp [finished]
      · simpa only [after, run_passive_of_fault hp hc] using hs
    · simpa only [after, run_passive_of_busy hp] using hs
  · intro s hs
    simp [after, submit, hs]

section Errors

variable {fault : Fault}

lemma emitLines_passive (texts : List String) (s : Session) :
    (emitLines .passive texts).run s = .ok () (s.tell (texts.map .line)) := by
  induction texts generalizing s with
  | nil => simp [emitLines, tell]
  | cons text texts ih => simp [emitLines, ih, tell, record]

lemma exists_run_passive (s : Session) : ∃ t, (run .passive).run s = .ok () t := by
  by_cases hp : s.phase = .idle
  · rcases hc : compileLines s.depth s.program with ⟨compiled, none | ⟨n, d⟩⟩
    · exact ⟨_, run_passive_of_ok hp hc⟩
    · exact ⟨_, run_passive_of_fault hp hc⟩
  · exact ⟨s, run_passive_of_busy hp⟩

lemma command_error {code : String} (h : (command .passive code).run s = .error fault t) : t = s := by
  rw [command] at h
  split at h
  · rename_i digits body hl
    cases hd : Program.lineNumber digits with
    | error fault => simp_all [lineNumber]
    | ok number =>
      simp only [lineNumber, hd, EStateM.run_bind, run_ofExcept, storeLine_run] at h
      split_ifs at h <;> simp_all
  · split at h
    · obtain ⟨u, hu⟩ := exists_run_passive s
      rw [hu] at h
      cases h
    · simp [emitLines_passive] at h
    · simp at h
    · simp only [EStateM.run_bind, new_run] at h
      split_ifs at h <;> simp_all
    · simp_all

lemma reportCommand_passive (d : Diagnostic) (s : Session) : (reportCommand .passive d).run s =
    .ok () (s.tell (.line (d.report none) :: if s.running then [] else [ready])) := by
  have hs (e : Event) : (s.record e).running = s.running := rfl
  cases hb : s.running <;> simp [reportCommand, hs, hb, ← tell_record, tell_nil]

lemma deliver_error {text : String} (hc : s.Coherent)
    (h : (deliver .passive text).run s = .error fault t) : ∃ e, t = s.echoed e := by
  by_cases hs : s.phase = .awaiting
  · obtain ⟨-, n, prompt, target, -, -, hp⟩ := hc.awaiting hs
    rw [deliver_of_awaiting hs, submit_passive hs hp, accept_passive] at h
    split at h <;> cases h
    exact ⟨_, rfl⟩
  · rw [deliver_passive hs, run_reporting] at h
    split at h
    · cases h
    · rename_i d u hu
      rw [reportCommand_passive] at h
      cases h
    · rename_i fault' u hne hu
      cases h
      exact ⟨_, command_error hu⟩

end Errors

end LineBasic.Session
