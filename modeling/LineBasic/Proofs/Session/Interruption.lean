import LineBasic.Proofs.Session.Stopping

/-! Calls on a host that stops the run once from inside one of them. Stepping returns right after the
statement in progress, with the run over, and only a `RUN` starts another. A stop from inside the echo
of an answer is the exception: the answer is taken all the same, and a run that was reported as stopped
goes on. -/

namespace LineBasic.Session

/-- What the statement that a run has come to tells, without the end of the run that may follow. -/
def tells (s : Session) : List Event :=
  match s.order[s.pc]? with
  | none => []
  | some n =>
    match Numbered.find? n s.compiled with
    | none => []
    | some stmt => s.saying n (effect s.vars stmt)

/-- A run that was stopped during the statement that `s` has come to has left `t`: the statement is
done, the stop is reported, and the run is over. -/
structure Interrupted (message : Option String) (s t : Session) : Prop where
  phase : t.phase = .idle
  pending : t.pending = none
  program : t.program = s.program
  compiled : t.compiled = s.compiled
  vars : t.vars = (after (step .passive) s).vars
  events : t.events.toList = s.events.toList ++ s.tells ++ (s.stopText message).toList.map .line ++ [ready]

def echoing (s : Session) (text : String) : List Event := if s.echo then [.append text] else []

/-- A run that was stopped while `s` shows an answer has left `t`: the stop is reported and the run is
over, and yet it goes on behind the question, with the variables that the answer leaves. -/
structure Resumed (message : Option String) (text : String) (p : Pending) (vars : Variables)
    (s t : Session) : Prop where
  vars : t.vars = vars
  pc : t.pc = p.next
  phase : t.phase = if p.next < s.order.size then .executing else .idle
  events : t.events.toList = s.events.toList ++ s.echoing text ++ (s.stopText message).toList.map .line ++
    [ready] ++ if p.next < s.order.size then [] else [ready]

section Step

variable {host : Host} {when : List Event → Bool} {message : Option String} {s : Session} {n : Int}
  {stmt : Stmt}

lemma tells_eq (hn : s.order[s.pc]? = some n) (hf : Numbered.find? n s.compiled = some stmt) :
    s.tells = s.saying n (effect s.vars stmt) := by
  simp only [tells, hn, hf]

lemma after_step (hs : s.phase = .executing) (hq : s.stopRequested = false) (hr : s.stopReport = none)
    (hn : s.order[s.pc]? = some n) (hf : Numbered.find? n s.compiled = some stmt) :
    let t := after (step .passive) s
    t.vars = (s.spoken n (effect s.vars stmt)).vars ∧
      t.events.toList = s.events.toList ++ s.tells ++ if t.phase = .idle then [ready] else [] := by
  simp only [after, step_passive hs hq hn hf, tells_eq hn hf]
  rcases effect s.vars stmt with fault | ⟨vars, told⟩ | target | ⟨prompt, target⟩
  · cases fault with
    | told d =>
      refine ⟨rfl, ?_⟩
      simp [settle, halted, finished, record, hr, saying]
    | _ => exact ⟨rfl, by simp [settle, saying, hs]⟩
  · have he := moveTo_events (s := { s.tell told with vars, stepping := false }) (s.pc + 1) hs hr
    refine ⟨moveTo_vars _, he.trans ?_⟩
    congr 1
    simp [tell, saying]
  · cases hj : resolve? s.order target with
    | none =>
      simp only [settle, hj]
      exact ⟨rfl, by simp [halted, finished, record, hr, saying, hj]⟩
    | some i =>
      simp only [settle, hj]
      have he := moveTo_events (s := { s with stepping := false }) i hs hr
      exact ⟨moveTo_vars _, by simpa only [saying, hj, List.append_nil] using he⟩
  · exact ⟨rfl, by simp [settle, asked, saying]⟩

lemma interrupted_interrupted (hs : s.phase = .executing) (hq : s.stopRequested = false)
    (hr : s.stopReport = none) (hn : s.order[s.pc]? = some n)
    (hf : Numbered.find? n s.compiled = some stmt) (message : Option String) :
    Interrupted message s (s.interrupted n (effect s.vars stmt) message) := by
  have hframe : (s.spoken n (effect s.vars stmt)).program = s.program ∧
      (s.spoken n (effect s.vars stmt)).compiled = s.compiled := by
    rcases effect s.vars stmt with fault | ⟨vars, told⟩ | target | ⟨prompt, target⟩ <;> exact ⟨rfl, rfl⟩
  refine ⟨rfl, rfl, hframe.1, hframe.2, (after_step hs hq hr hn hf).1.symm, ?_⟩
  rw [interrupted, toList_finished, tells_eq hn hf, ← toList_spoken]

lemma step_of_unheard (hh : host.StopsOnce when message) (hc : s.Coherent) (hs : s.phase = .executing)
    (hw : hears when s.events.toList s.tells = false) : (step host).run s = (step .passive).run s := by
  obtain ⟨n, stmt, hn, hf⟩ := hc.exists_statement hs
  rw [tells_eq hn hf] at hw
  exact step_unheard hs hc.stopRequested hn hf hh hc.stopReport hw

lemma step_of_heard (hh : host.StopsOnce when message) (hc : s.Coherent) (hs : s.phase = .executing)
    (hw : hears when s.events.toList s.tells = true) :
    ∃ t, (step host).run s = .ok () t ∧ Interrupted message s t := by
  obtain ⟨n, stmt, hn, hf⟩ := hc.exists_statement hs
  rw [tells_eq hn hf] at hw
  exact ⟨_, step_heard hs hc.stopRequested hn hf hh hw,
    interrupted_interrupted hs hc.stopRequested hc.stopReport hn hf message⟩

lemma Coherent.after_step_events (hc : s.Coherent) (hs : s.phase = .executing) :
    (after (step .passive) s).events.toList = s.events.toList ++ s.tells ++
      if (after (step .passive) s).phase = .idle then [ready] else [] := by
  obtain ⟨n, stmt, hn, hf⟩ := hc.exists_statement hs
  exact (after_step hs hc.stopRequested hc.stopReport hn hf).2

end Step

/-- The sessions that a run comes through on a listening host. -/
inductive Steps : Nat → Session → Session → Prop
  | refl (s : Session) : Steps 0 s s
  | step {j : Nat} {s t u : Session} (hs : s.phase = .executing) (h : (step .passive).run s = .ok () t)
      (hu : Steps j t u) : Steps (j + 1) s u

section Steps

variable {host : Host} {when : List Event → Bool} {message : Option String} {s t u : Session} {j : Nat}

lemma Coherent.of_step (hc : s.Coherent) (h : (step .passive).run s = .ok () t) : t.Coherent := by
  have ht := keeps_step s hc
  rwa [after, h] at ht

lemma Coherent.events_of_step (hc : s.Coherent) (hs : s.phase = .executing)
    (h : (step .passive).run s = .ok () t) :
    ∃ more, t.events.toList = s.events.toList ++ s.tells ++ more := by
  have ht := hc.after_step_events hs
  rw [after, h] at ht
  exact ⟨_, ht⟩

lemma Steps.events (h : Steps j s u) (hc : s.Coherent) :
    ∃ more, u.events.toList = s.events.toList ++ more := by
  induction h with
  | refl s => exact ⟨[], (List.append_nil _).symm⟩
  | step hs h _ ih =>
    obtain ⟨more, hm⟩ := hc.events_of_step hs h
    obtain ⟨more', hm'⟩ := ih (hc.of_step h)
    exact ⟨_, by rw [hm', hm, List.append_assoc, List.append_assoc]⟩

lemma Host.StopsOnce.hears_past (hh : host.StopsOnce when message) {log es : List Event}
    (h : hears when log es = true) (more told : List Event) :
    hears when (log ++ es ++ more) told = false := by
  induction told generalizing more with
  | nil => rfl
  | cons e told ih =>
    rw [hears, List.append_assoc (log ++ es), ih, hh.when_past h (by simp)]
    rfl

lemma advanceFrom_heard (hh : host.StopsOnce when message) (hc : s.Coherent) (h : Steps j s u)
    (hu : u.phase = .executing) (hw : hears when u.events.toList u.tells = true) {limit : Nat}
    (hl : j < limit) (done : Nat) :
    ∃ t, (advanceFrom host done limit).run s = .ok (done + j + 1) t ∧ Interrupted message u t := by
  induction h generalizing limit done with
  | refl s =>
    obtain ⟨limit, rfl⟩ := Nat.exists_eq_succ_of_ne_zero (Nat.ne_of_gt hl)
    obtain ⟨t, ht, hi⟩ := step_of_heard hh hc hu hw
    refine ⟨t, ?_, hi⟩
    rw [advanceFrom_succ hu ht, advanceFrom_of_rest host (by simp [hi.phase])]
  | @step j s t u hs h hstep ih =>
    obtain ⟨limit, rfl⟩ := Nat.exists_eq_succ_of_ne_zero (Nat.ne_zero_of_lt hl)
    have hct := hc.of_step h
    -- The host stops the run but once, and that is yet to come.
    have hquiet : hears when s.events.toList s.tells = false := by
      obtain ⟨more, hm⟩ := hc.events_of_step hs h
      obtain ⟨more', hm'⟩ := hstep.events hct
      by_contra hn
      have hp := hh.hears_past (Bool.not_eq_false _ ▸ hn) (more ++ more') u.tells
      rw [← List.append_assoc, ← hm, ← hm', hw] at hp
      cases hp
    have hx := (step_of_unheard hh hc hs hquiet).trans h
    obtain ⟨v, hv, hi⟩ := ih hct hu hw (Nat.lt_of_succ_lt_succ hl) (done + 1)
    refine ⟨v, ?_, hi⟩
    rw [advanceFrom_succ hs hx, hv]
    congr 1
    omega

lemma advanceFrom_unheard (hh : host.StopsOnce when message) (hc : s.Coherent) {limit : Nat}
    (hw : ∀ j < limit, ∀ u, Steps j s u → u.phase = .executing → hears when u.events.toList u.tells = false)
    (done : Nat) : (advanceFrom host done limit).run s = (advanceFrom .passive done limit).run s := by
  induction limit generalizing s done with
  | zero => rfl
  | succ limit ih =>
    by_cases hs : s.phase = .executing
    · have hx := step_of_unheard hh hc hs (hw 0 (Nat.succ_pos _) s (.refl s) hs)
      cases hr : (Session.step .passive).run s with
      | ok a t =>
        rw [advanceFrom_succ hs (hx.trans hr), advanceFrom_succ hs hr]
        exact ih (hc.of_step hr) (fun j hj u hu => hw (j + 1) (by omega) u (.step hs hr hu)) (done + 1)
      | error fault t => simp [advanceFrom, hs, hx, hr]
    · rw [advanceFrom_of_rest host hs, advanceFrom_of_rest .passive hs]

end Steps

section Answer

variable {host : Host} {when : List Event → Bool} {message : Option String} {s : Session} {p : Pending}

lemma accept_listening (hf : ∀ t : Session, t.events = s.events → t.stopReport = s.stopReport →
    (finish host).run t = .ok () t.finished) (p : Pending) (text : String) :
    (accept host p text).run s = (accept .passive p text).run s := by
  rw [accept_run, accept_run]
  cases answer s.vars p.target text with
  | error fault => rfl
  | ok vars =>
    have hx := hf { s with vars, pending := none, pc := p.next, phase := .executing } rfl rfl
    simp only [hx, finish_passive]

lemma submit_unheard (hh : host.StopsOnce when message) (hs : s.phase = .awaiting) (hp : s.pending = some p)
    (hr : s.stopReport = none) {text : String} (hw : hears when s.events.toList (s.echoing text) = false) :
    (submit host text).run s = (submit .passive text).run s := by
  have he : if s.echo then (emit host (.append text)).run s = .ok () (s.echoed (.append text))
      else s.echoed (.append text) = s := by
    cases he : s.echo with
    | true =>
      rw [if_pos rfl, echoed_of_true he, emit_run]
      exact hh.listens _ _ (by simpa [toList_record, echoing, he, hears] using hw)
    | false => simp [echoed_of_false he]
  rw [submit_passive hs hp, submit_run hs hp text he]
  refine accept_listening (s := s.echoed (.append text)) (fun t _ ht => ?_) p text
  exact finish_stopping hh (ht.trans hr)

lemma submit_heard (hh : host.StopsOnce when message) (hs : s.phase = .awaiting) (hp : s.pending = some p)
    (hst : s.stepping = false) {text : String} (hw : hears when s.events.toList (s.echoing text) = true) :
    s.echo = true ∧ (submit host text).run s =
      (accept .passive p text).run ((s.record (.append text)).flagged message).finished := by
  cases he : s.echo with
  | false => simp [echoing, he, hears] at hw
  | true =>
    have hw' : when (s.record (.append text)).events.toList = true := by
      simpa [toList_record, echoing, he, hears] using hw
    have hquiet := hh.quiet hw'
    have hemit : (emit host (.append text)).run s =
        .ok () ((s.record (.append text)).flagged message).finished := by
      rw [emit_run, hh.stops _ _ hw']
      exact stop_quiet hquiet (by simp [running, record, hs]) hst
    -- The stop has ended the run by now, and the answer is taken as if it had not.
    have hend : host.Quiet ((s.record (.append text)).flagged message).finished :=
      hquiet.mono ((toList_finished _).trans (List.append_assoc _ _ _))
    refine ⟨rfl, ?_⟩
    rw [submit_run hs hp text (by rw [if_pos he]; exact hemit)]
    refine accept_listening (fun t ht _ => finish_quiet ?_) p text
    exact hend.mono ((congrArg Array.toList ht).trans (List.append_nil _).symm)

lemma submit_resumes (hh : host.StopsOnce when message) (hs : s.phase = .awaiting)
    (hp : s.pending = some p) (hst : s.stepping = false) {text : String}
    (hw : hears when s.events.toList (s.echoing text) = true) {vars : Variables}
    (ha : answer s.vars p.target text = .ok vars) :
    ∃ t, (submit host text).run s = .ok () t ∧ Resumed message text p vars s t := by
  obtain ⟨he, hx⟩ := submit_heard hh hs hp hst hw
  obtain ⟨v, hv⟩ : ∃ v, v = ((s.record (.append text)).flagged message).finished := ⟨_, rfl⟩
  have hev : v.events.toList =
      s.events.toList ++ s.echoing text ++ (s.stopText message).toList.map .line ++ [ready] := by
    rw [hv, toList_finished]
    simp [flagged, record, stopText, currentLine, echoing, he]
  have hr : v.stopReport = none := by
    rw [hv]
    rfl
  have ho : v.order.size = s.order.size := by
    rw [hv]
    rfl
  have ha' : answer v.vars p.target text = .ok vars := by
    rw [hv]
    exact ha
  have hm := moveTo_events (s := { v with vars, pending := none, phase := .executing }) p.next rfl hr
  refine ⟨moveTo { v with vars, pending := none, phase := .executing } p.next, ?_, moveTo_vars _,
    moveTo_pc _, ?_, ?_⟩
  · rw [hx, accept_passive, ← hv, ha']
  · rw [moveTo_phase, ← ho]
  · rw [hm, moveTo_phase, ← ho, ← hev]
    split <;> simp

lemma submit_faults (hh : host.StopsOnce when message) (hs : s.phase = .awaiting)
    (hp : s.pending = some p) (hst : s.stepping = false) {text : String}
    (hw : hears when s.events.toList (s.echoing text) = true) {fault : Fault}
    (ha : answer s.vars p.target text = .error fault) :
    ∃ t, (submit host text).run s = .error fault t ∧ t.phase = .idle ∧ t.pending = none := by
  have hv : ((s.record (.append text)).flagged message).finished.vars = s.vars := rfl
  have hx := (submit_heard hh hs hp hst hw).2
  rw [accept_passive, hv, ha] at hx
  exact ⟨_, hx, rfl, rfl⟩

end Answer

/-- A call that starts nothing on a session that rests. -/
def Rests {α : Type} (act : Act α) : Prop := ∀ s, s.phase = .idle → (after act s).phase = .idle

section Rests

variable {α β : Type} {s t : Session}

lemma Rests.bind {act : Act α} {next : α → Act β} (ha : Rests act) (hn : ∀ a, Rests (next a)) :
    Rests (act >>= next) := fun s hs => after_bind (P := (·.phase = .idle)) (ha s hs) hn

lemma rests_pure (a : α) : Rests (pure a : Act α) := fun _ hs => hs

lemma rests_fail (cause : Cause) : Rests (fail cause : Act α) := fun _ hs => hs

lemma rests_ofExcept (x : Except Fault α) : Rests (ofExcept x) := by
  intro s hs
  cases x <;> exact hs

lemma rests_emit (e : Event) : Rests (emit .passive e) := fun _ hs => hs

lemma rests_storeLine (number : Int) (code : String) : Rests (storeLine number code) := by
  intro s hs
  simp only [after, storeLine_run]
  split_ifs <;> exact hs

lemma rests_new : Rests new := by
  intro s hs
  simp only [after, new_run]
  split_ifs <;> exact hs

lemma rests_loadLine (text : String) : Rests (loadLine text) := by
  rw [loadLine]
  split
  · exact rests_fail _
  · split
    · exact (rests_fail _).bind fun _ => (rests_ofExcept _).bind fun number => rests_storeLine number _
    · exact (rests_ofExcept _).bind fun number => rests_storeLine number _

lemma rests_loadLines (count : Nat) (texts : List String) : Rests (loadLines count texts) := by
  induction texts generalizing count with
  | nil => exact rests_pure count
  | cons text texts ih => exact (rests_loadLine text).bind fun _ => ih (count + 1)

lemma rests_emitLines (texts : List String) : Rests (emitLines .passive texts) := by
  induction texts with
  | nil => exact rests_pure ()
  | cons text texts ih => exact (rests_emit _).bind fun _ => ih

lemma rests_command {code : String} (hr : Text.upper code ≠ "RUN") : Rests (command .passive code) := by
  rw [command]
  split
  · exact (rests_ofExcept _).bind fun number => rests_storeLine number _
  · split
    · exact absurd ‹_› hr
    · intro s hs
      exact ((rests_emitLines s.listing).bind fun _ => rests_emit _) s hs
    · exact (rests_emit _).bind fun _ => rests_emit _
    · exact rests_new.bind fun _ => rests_emit _
    · exact rests_fail _

lemma rests_reportCommand (d : Diagnostic) : Rests (reportCommand .passive d) := by
  refine (rests_emit _).bind fun _ s hs => ?_
  have hr : s.running = false := by simp [running, hs]
  simpa [after, hr, record] using hs

lemma rests_deliver {text : String} (hr : Text.upper (Text.trim text) ≠ "RUN") :
    Rests (deliver .passive text) := by
  intro s hs
  have hd : after (deliver .passive text) s =
      after (reporting (command .passive (Text.trim text)) (reportCommand .passive))
        (s.echoed (.line (">" ++ text))) := by
    rw [after, after, deliver_passive (by simp [hs])]
  rw [hd]
  exact after_reporting (P := (·.phase = .idle)) (rests_command hr _ hs) rests_reportCommand

lemma starts_of_called (hc : Called s t) (hs : s.phase = .idle) (ht : t.phase ≠ .idle) :
    t = after (run .passive) s ∨
    (∃ code, Text.upper code = "RUN" ∧ t = after (command .passive code) s) ∨
    ∃ text, Text.upper (Text.trim text) = "RUN" ∧ t = after (deliver .passive text) s := by
  have he : s.phase ≠ .executing := by simp [hs]
  have hrest {act : Act Unit} (ha : act.run s = .ok () s) : (after act s).phase = .idle := by
    rw [after, ha]
    exact hs
  cases hc with
  | deliver text =>
    by_cases hr : Text.upper (Text.trim text) = "RUN"
    · exact .inr (.inr ⟨text, hr, rfl⟩)
    · exact absurd (rests_deliver hr s hs) ht
  | submit text => exact absurd (by simp [after, submit, hs]) ht
  | command code =>
    by_cases hr : Text.upper code = "RUN"
    · exact .inr (.inl ⟨code, hr, rfl⟩)
    · exact absurd (rests_command hr s hs) ht
  | store number code => exact absurd (rests_storeLine number code s hs) ht
  | load source => exact absurd (rests_loadLines 0 _ s hs) ht
  | list => exact absurd hs ht
  | new => exact absurd (rests_new s hs) ht
  | run => exact .inl rfl
  | step => exact absurd (hrest (step_passive_of_rest he)) ht
  | advance limit => exact absurd (by rw [after, advance, advanceFrom_of_rest .passive he]; exact hs) ht
  | exhaust n => exact absurd (by rw [after, advance, advanceFrom_of_rest .passive he]; exact hs) ht
  | stop message => exact absurd (hrest (stop_of_rest (by simp [running, hs]) message)) ht

end Rests

theorem stop_final_unless_in_echo {depth : Nat} {s : Session} (h : Reachable depth s) {host : Host}
    {when : List Event → Bool} {message : Option String} (hh : host.StopsOnce when message) :
    -- a step ends right after the statement that told the host
    (s.phase = .executing →
      ((after (step .passive) s).events.toList = s.events.toList ++ s.tells ++
        if (after (step .passive) s).phase = .idle then [ready] else []) ∧
      (hears when s.events.toList s.tells = false → (step host).run s = (step .passive).run s) ∧
      (hears when s.events.toList s.tells = true →
        ∃ t, (step host).run s = .ok () t ∧ Interrupted message s t)) ∧
    -- so does a row of steps, whose later statements are not executed
    (∀ limit,
      ((∀ j < limit, ∀ u, Steps j s u → u.phase = .executing → hears when u.events.toList u.tells = false) →
        (advance host limit).run s = (advance .passive limit).run s) ∧
      ∀ j < limit, ∀ u, Steps j s u → u.phase = .executing → hears when u.events.toList u.tells = true →
        ∃ t, (advance host limit).run s = .ok (j + 1) t ∧ Interrupted message u t) ∧
    -- an answer is as on a listening host, unless the stop comes from its echo
    (s.phase = .awaiting → ∀ text, (deliver host text).run s = (submit host text).run s ∧
      (hears when s.events.toList (s.echoing text) = false →
        (submit host text).run s = (submit .passive text).run s) ∧
      (hears when s.events.toList (s.echoing text) = true → ∀ p, s.pending = some p →
        (∀ vars, answer s.vars p.target text = .ok vars →
          ∃ t, (submit host text).run s = .ok () t ∧ Resumed message text p vars s t) ∧
        ∀ fault, answer s.vars p.target text = .error fault →
          ∃ t, (submit host text).run s = .error fault t ∧ t.phase = .idle ∧ t.pending = none)) ∧
    -- what has ended is only started again by a `RUN`
    ∀ t u, t.phase = .idle → Called t u → u.phase ≠ .idle →
      u = after (run .passive) t ∨
      (∃ code, Text.upper code = "RUN" ∧ u = after (command .passive code) t) ∨
      ∃ text, Text.upper (Text.trim text) = "RUN" ∧ u = after (deliver .passive text) t := by
  have hc := h.coherent
  refine ⟨fun hs => ⟨hc.after_step_events hs, step_of_unheard hh hc hs, step_of_heard hh hc hs⟩,
    fun limit => ⟨fun hw => advanceFrom_unheard hh hc hw 0, fun j hj u hu hp hw => ?_⟩,
    fun hs text => ⟨deliver_of_awaiting hs text, fun hw => ?_,
      fun hw p hp => ⟨fun vars ha => ?_, fun fault ha => ?_⟩⟩,
    fun t u ht hu => starts_of_called hu ht⟩
  · simpa only [advance, Nat.zero_add] using advanceFrom_heard hh hc hu hp hw hj 0
  · obtain ⟨-, n, prompt, target, -, -, hp⟩ := hc.awaiting hs
    exact submit_unheard hh hs hp hc.stopReport hw
  · exact submit_resumes hh hs hp hc.stepping hw ha
  · exact submit_faults hh hs hp hc.stepping hw ha

def Host.stopping (when : List Event → Bool) (message : Option String) : Host :=
  ⟨fun _ => do if when (← get).events.toList then stop .passive message⟩

lemma Host.stopping_stopsOnce {when : List Event → Bool}
    (once : ∀ log es, when log = true → es ≠ [] → when (log ++ es) = false) (message : Option String) :
    (Host.stopping when message).StopsOnce when message := by
  have hl (e : Event) (s : Session) (hw : when s.events.toList = false) :
      ((Host.stopping when message).respond e).run s = .ok () s := by
    simp [Host.stopping, hw]
  refine ⟨hl, fun e s hw => ?_, once⟩
  have hx : ((Host.stopping when message).respond e).run s = (stop .passive message).run s := by
    simp [Host.stopping, hw]
  rw [hx]
  cases hs : s.running with
  | false => rw [stop_of_rest hs, stop_of_rest hs]
  | true =>
    have hq : (Host.stopping when message).Quiet (s.flagged message) := by
      intro t e es ht e'
      exact hl e' t (ht ▸ once _ (e :: es) hw (by simp))
    rw [stop_of_running hs, stop_of_running hs, finish_passive, finish_quiet hq]

def Host.stoppingAt (k : Nat) : Host := .stopping (·.length == k) (some "BREAK")

lemma Host.stoppingAt_stopsOnce (k : Nat) :
    (Host.stoppingAt k).StopsOnce (·.length == k) (some "BREAK") := by
  refine Host.stopping_stopsOnce (fun log es hw hne => ?_) _
  have := List.length_pos_of_ne_nil hne
  simp only [beq_iff_eq, List.length_append, beq_eq_false_iff_ne] at hw ⊢
  omega

theorem parrot_interrupted : ∃ t, (step (.stoppingAt 1)).run (after (run .passive) parrot) = .ok () t ∧
    t.phase = .idle ∧ t.events.toList = [.line "? ", .request "? ", .line "?BREAK IN 10", ready] := by
  obtain ⟨t, ht, hi⟩ := ((stop_final_unless_in_echo (parrot_reachable.call .run)
    (Host.stoppingAt_stopsOnce 1)).1 (by decide +kernel)).2.2 (by decide +kernel)
  refine ⟨t, ht, hi.phase, ?_⟩
  rw [hi.events]
  decide +kernel

theorem stop_in_echo_lost : ¬ ∀ (depth : Nat) (s : Session) (host : Host) (when : List Event → Bool)
    (message : Option String) (text : String) (told : List Event), Reachable depth s →
    s.phase = .awaiting → host.StopsOnce when message →
    (after (submit host text) s).events.toList = s.events.toList ++ told →
    hears when s.events.toList told = true → (after (submit host text) s).phase = .idle := by
  intro h
  have hp := h 240 (after (step .passive) (after (run .passive) parrot)) (.stoppingAt 3) (·.length == 3)
    (some "BREAK") "hi" [.append "hi", .line "?BREAK IN 10", ready]
    ((parrot_reachable.call .run).call .step) (by decide +kernel) (Host.stoppingAt_stopsOnce 3)
    (by decide +kernel) (by decide +kernel)
  revert hp
  decide +kernel

end LineBasic.Session
