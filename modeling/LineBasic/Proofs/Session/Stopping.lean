import LineBasic.Proofs.Session.Coherence

/-! A step on a host that stops the run from inside a call that it receives. The statement that told the
host is done to its end, and then the run is over. -/

namespace LineBasic.Session

/-- A host that stops a run once, when what it has been told by then satisfies `when`, and only
listens before and after. -/
structure Host.StopsOnce (host : Host) (when : List Event → Bool) (message : Option String) : Prop where
  listens : ∀ e s, when s.events.toList = false → (host.respond e).run s = .ok () s
  stops : ∀ e s, when s.events.toList = true → (host.respond e).run s = (stop host message).run s
  once : ∀ log es, when log = true → es ≠ [] → when (log ++ es) = false

/-- Whether the host stops the run when it is told `es` after `log`. -/
def hears (when : List Event → Bool) : List Event → List Event → Bool
  | _, [] => false
  | log, e :: es => when (log ++ [e]) || hears when (log ++ [e]) es

/-- The host only listens from here on. -/
def Host.Quiet (host : Host) (s : Session) : Prop :=
  ∀ (t : Session) (e : Event) (es : List Event), t.events.toList = s.events.toList ++ e :: es →
    ∀ e', (host.respond e').run t = .ok () t

/-- What the statement of line `n` tells, without the end of the run that may follow. -/
def saying (s : Session) (n : Int) : Except Fault Effect → List Event
  | .ok (.proceed _ told) => told
  | .ok (.jump target) =>
    match resolve? s.order target with
    | some _ => []
    | none => [.line ((Diagnostic.of .undefinedLine none).report (some n))]
  | .ok (.ask prompt _) => [.line prompt, .request prompt]
  | .error (.told d) => [.line (d.report (some n))]
  | .error _ => []

/-- What the statement of line `n` leaves of the session, before the run moves on or ends. -/
def spoken (s : Session) (n : Int) (x : Except Fault Effect) : Session :=
  let t := s.tell (s.saying n x)
  match x with
  | .ok (.proceed vars _) => { t with vars, pc := s.pc + 1 }
  | .ok (.jump target) => { t with pc := (resolve? s.order target).getD s.pc }
  | .ok (.ask _ target) => { t with pending := some ⟨target, n, s.pc + 1⟩, phase := .awaiting }
  | .error _ => t

def interrupted (s : Session) (n : Int) (x : Except Fault Effect) (message : Option String) : Session :=
  finished { s.spoken n x with stopReport := s.stopText message, stepping := false }

section Emit

variable {host : Host} {when : List Event → Bool} {message : Option String} {s : Session} {e : Event}

lemma emit_run (host : Host) (e : Event) (s : Session) :
    (emit host e).run s = (host.respond e).run (s.record e) := by
  simp [emit]

lemma Host.Quiet.mono {t : Session} {es : List Event} (h : host.Quiet s)
    (ht : t.events.toList = s.events.toList ++ es) : host.Quiet t := by
  intro u e es' hu
  rw [ht, List.append_assoc] at hu
  cases es with
  | nil => exact h u e es' hu
  | cons e' es => exact h u e' _ hu

lemma emit_quiet (h : host.Quiet s) (e : Event) : (emit host e).run s = .ok () (s.record e) := by
  rw [emit_run]
  exact h _ e [] (toList_record s e) e

lemma emits_cons {t : Session} (h : (emit host e).run s = .ok () t) (es : List Event) :
    (emits host (e :: es)).run s = (emits host es).run t := by
  simp [emits, h]

lemma emits_quiet (h : host.Quiet s) (es : List Event) : (emits host es).run s = .ok () (s.tell es) := by
  induction es generalizing s with
  | nil => simp [emits, tell]
  | cons e es ih => rw [emits_cons (emit_quiet h e), ih (h.mono (toList_record s e)), tell_record]

lemma finish_unreported (host : Host) (hs : s.stopReport = none) : (finish host).run s =
    (emit host ready).run { s with phase := .idle, pending := none, stopRequested := false } := by
  simp [finish, hs]

lemma finish_quiet (h : host.Quiet s) : (finish host).run s = .ok () s.finished := by
  cases hs : s.stopReport with
  | none =>
    rw [finish_unreported host hs, emit_quiet]
    · simp [finished, hs, record]
    · exact h
  | some report =>
    have hr : (finish host).run s = (emit host ready).run { s.record (.line report) with
        stopReport := none, phase := .idle, pending := none, stopRequested := false } := by
      simp [finish, hs, emit_quiet h]
    rw [hr, emit_quiet]
    · simp [finished, hs, record]
    · exact h.mono (toList_record s _)

lemma stop_quiet (h : host.Quiet s) (hs : s.running = true) (hp : s.stepping = false) :
    (stop host message).run s = .ok () (s.flagged message).finished := by
  rw [stop_of_running hs, if_neg (by simp [hp])]
  exact finish_quiet (s := s.flagged message) h

lemma Host.StopsOnce.quiet (hh : host.StopsOnce when message) (h : when s.events.toList = true) :
    host.Quiet s := by
  intro t e es ht e'
  exact hh.listens e' t (ht ▸ hh.once _ (e :: es) h (by simp))

lemma Host.StopsOnce.when_past (hh : host.StopsOnce when message) {log es more : List Event}
    (h : hears when log es = true) (hm : more ≠ []) : when (log ++ es ++ more) = false := by
  induction es generalizing log with
  | nil => cases h
  | cons e es ih =>
    rw [List.append_cons log e es]
    rcases Bool.or_eq_true _ _ |>.mp h with hw | hw
    · rw [List.append_assoc (log ++ [e])]
      exact hh.once _ _ hw (by simp [hm])
    · exact ih hw

lemma Host.StopsOnce.quiet_of_hears (hh : host.StopsOnce when message) {log es : List Event}
    (h : hears when log es = true) (hs : s.events.toList = log ++ es) : host.Quiet s := by
  intro t e es' ht e'
  refine hh.listens e' t ?_
  rw [ht, hs]
  exact hh.when_past h (by simp)

lemma emit_of_rest (hh : host.StopsOnce when message) (hs : s.running = false) (e : Event) :
    (emit host e).run s = .ok () (s.record e) := by
  rw [emit_run]
  cases hw : when (s.record e).events.toList with
  | false => exact hh.listens e _ hw
  | true =>
    rw [hh.stops e _ hw]
    exact stop_of_rest (s := s.record e) hs message

lemma finish_stopping (hh : host.StopsOnce when message) (hs : s.stopReport = none) :
    (finish host).run s = .ok () s.finished := by
  rw [finish_unreported host hs, emit_of_rest hh]
  · simp [finished, hs, record]
  · rfl

lemma emit_of_stepping (hh : host.StopsOnce when message) (hs : s.running = true)
    (hp : s.stepping = true) (e : Event) : (emit host e).run s =
      .ok () (if when (s.events.toList ++ [e]) then (s.record e).flagged message else s.record e) := by
  rw [emit_run, ← toList_record]
  cases hw : when (s.record e).events.toList with
  | false => exact hh.listens e _ hw
  | true =>
    rw [hh.stops e _ hw]
    exact (stop_of_running (s := s.record e) hs message).trans (if_pos hp)

/-- The session, with the request that a host has made if it stopped the run while `s` told it `es`. -/
def noting (when : List Event → Bool) (message : Option String) (s : Session) (es : List Event)
    (t : Session) : Session :=
  if hears when s.events.toList es then
    { t with stopRequested := true, stopReport := s.stopText message }
  else t

lemma noting_heard {es : List Event} (hw : hears when s.events.toList es = true) (t : Session) :
    noting when message s es t = { t with stopRequested := true, stopReport := s.stopText message } :=
  if_pos hw

lemma noting_unheard {es : List Event} (hw : hears when s.events.toList es = false) (t : Session) :
    noting when message s es t = t := if_neg (ne_true_of_eq_false hw)

lemma emits_of_stepping (hh : host.StopsOnce when message) (hs : s.running = true)
    (hp : s.stepping = true) (es : List Event) :
    (emits host es).run s = .ok () (noting when message s es (s.tell es)) := by
  induction es generalizing s with
  | nil => simp [emits, noting, hears, tell]
  | cons e es ih =>
    have hfirst := emit_of_stepping hh hs hp e
    cases hw : when (s.events.toList ++ [e]) with
    | true =>
      have hq : host.Quiet ((s.record e).flagged message) := hh.quiet ((toList_record s e).symm ▸ hw)
      rw [if_pos hw] at hfirst
      rw [emits_cons hfirst, emits_quiet hq, noting_heard (by simp [hears, hw]), ← tell_record]
      rfl
    | false =>
      rw [if_neg (ne_true_of_eq_false hw)] at hfirst
      rw [emits_cons hfirst, ih (s := s.record e) hs hp, noting, noting, toList_record, tell_record,
        hears, hw, Bool.false_or]
      rfl

end Emit

def attempt (host : Host) (n : Int) (stmt : Stmt) : Act Bool :=
  reporting (executeAt host n stmt) (reportAt host n)

section Attempt

variable {host : Host} {when : List Event → Bool} {message : Option String} {s : Session} {n : Int}
  {stmt : Stmt}

lemma toList_spoken (s : Session) (n : Int) (x : Except Fault Effect) :
    (s.spoken n x).events.toList = s.events.toList ++ s.saying n x := by
  rcases x with fault | ⟨vars, told⟩ | target | ⟨prompt, target⟩ <;> simp [spoken, tell]

lemma stopReport_of_attempt {settled : Bool} {t : Session} (hs : s.phase = .executing)
    (hq : s.stopRequested = false) (hr : s.stopReport = none)
    (h : (attempt .passive n stmt).run s = .ok settled t) : t.stopReport = none := by
  rw [attempt, run_reporting, executeAt_passive hs hq] at h
  rcases he : effect s.vars stmt with fault | ⟨vars, told⟩ | target | ⟨prompt, target⟩
  · rw [he] at h
    cases fault with
    | told d =>
      cases h
      exact hr
    | _ => cases h
  · rw [he] at h
    cases h
    exact hr
  · cases hj : resolve? s.order target <;> simp only [he, hj] at h <;> cases h <;> exact hr
  · rw [he] at h
    cases h
    exact hr

variable (hh : host.StopsOnce when message) (hs : s.phase = .executing) (hp : s.stepping = true)
  (hn : s.order[s.pc]? = some n)

include hh hs hp

lemma reportAt_stopping (n : Int) (d : Diagnostic) : (reportAt host n d).run s =
    .ok false { noting when message s [.line (d.report (some n))] (s.tell [.line (d.report (some n))]) with
      stopRequested := true } := by
  have he := emits_of_stepping hh (by simp [running, hs]) hp [.line (d.report (some n))]
  simp only [emits, bind_pure_unit] at he
  simp [reportAt, he]

include hn

lemma execute_stopping (stmt : Stmt) : (execute host n stmt).run s =
    match effect s.vars stmt with
    | .ok (.proceed vars told) => .ok none (noting when message s told { s.tell told with vars })
    | .ok (.jump target) => .ok (some target) s
    | .ok (.ask prompt target) => .ok none
        (noting when message s [.line prompt, .request prompt] (s.asked n prompt target))
    | .error fault => .error fault s := by
  rw [execute_run]
  rcases effect s.vars stmt with fault | ⟨vars, told⟩ | target | ⟨prompt, target⟩
  · rfl
  · have he := emits_of_stepping hh (s := { s with vars }) (by simp [running, hs]) hp told
    simp only [he]
    rfl
  · rfl
  · have he := emits_of_stepping hh
      (s := { s with pending := some ⟨target, n, s.pc + 1⟩, phase := .awaiting }) (by simp [running]) hp
      [.line prompt, .request prompt]
    have ht : stopText { s with pending := some ⟨target, n, s.pc + 1⟩, phase := .awaiting } message =
        s.stopText message := by
      simp [stopText, currentLine, hs, hn]
    simp only [he, EStateM.Result.map, noting, ht, asked_eq]

lemma execute_unheard (hw : hears when s.events.toList (s.saying n (effect s.vars stmt)) = false) :
    (execute host n stmt).run s = (execute .passive n stmt).run s := by
  rw [execute_stopping hh hs hp hn, execute_passive]
  rcases he : effect s.vars stmt with fault | ⟨vars, told⟩ | target | ⟨prompt, target⟩
  · rfl
  · rw [he] at hw
    exact congrArg _ (noting_unheard hw _)
  · rfl
  · rw [he] at hw
    exact congrArg _ (noting_unheard hw _)

lemma executeAt_unheard (hq : s.stopRequested = false)
    (hw : hears when s.events.toList (s.saying n (effect s.vars stmt)) = false) :
    (executeAt host n stmt).run s = (executeAt .passive n stmt).run s := by
  simp only [executeAt, EStateM.run_bind, execute_unheard hh hs hp hn hw]
  -- No one has asked for a stop, so that the run does not end before its statement does.
  have ht {jump : Option Int} {t : Session} (hr : (execute .passive n stmt).run s = .ok jump t) :
      t.stopRequested = false := by
    rw [execute_passive] at hr
    split at hr <;> cases hr <;> exact hq
  cases hr : (execute .passive n stmt).run s with
  | error fault t => rfl
  | ok jump t =>
    by_cases ha : t.phase = .awaiting
    · simp [ha, ht hr]
    · simp [ha]

lemma attempt_unheard (hq : s.stopRequested = false)
    (hw : hears when s.events.toList (s.saying n (effect s.vars stmt)) = false) :
    (attempt host n stmt).run s = (attempt .passive n stmt).run s := by
  have hreport {d : Diagnostic} (hd : hears when s.events.toList [.line (d.report (some n))] = false) :
      (reportAt host n d).run s = (reportAt .passive n d).run s := by
    rw [reportAt_stopping hh hs hp, reportAt_passive, noting_unheard hd]
    rfl
  rw [attempt, attempt, run_reporting, run_reporting, executeAt_unheard hh hs hp hn hq hw,
    executeAt_passive hs hq]
  rcases he : effect s.vars stmt with fault | ⟨vars, told⟩ | target | ⟨prompt, target⟩
  · rw [he] at hw
    cases fault with
    | told d => exact hreport hw
    | _ => rfl
  · rfl
  · cases hr : resolve? s.order target with
    | some i => simp only [hr]
    | none =>
      simp only [he, saying, hr] at hw
      simp only [hr]
      exact hreport hw
  · rfl

lemma attempt_heard (hw : hears when s.events.toList (s.saying n (effect s.vars stmt)) = true) :
    let t := { s.spoken n (effect s.vars stmt) with stopRequested := true, stopReport := s.stopText message }
    (attempt host n stmt).run s = if t.phase = .awaiting then .ok true t.finished else .ok false t := by
  intro t
  have hquiet : host.Quiet t := hh.quiet_of_hears hw (toList_spoken s n _)
  have hx := execute_stopping hh hs hp hn stmt
  have hreport {d : Diagnostic} (hd : hears when s.events.toList [.line (d.report (some n))] = true) :
      (reportAt host n d).run s = .ok false { s.tell [.line (d.report (some n))] with
        stopRequested := true, stopReport := s.stopText message } := by
    rw [reportAt_stopping hh hs hp, noting_heard hd]
  rw [attempt, run_reporting]
  -- A question that is stopped ends the run within the statement, all else leaves that to the step.
  rcases he : effect s.vars stmt with fault | ⟨vars, told⟩ | target | ⟨prompt, target⟩
  · cases fault with
    | told d =>
      have ht : t.phase ≠ .awaiting := by simp [t, he, spoken, tell, hs]
      simp only [he, saying] at hw hx
      simp only [executeAt, EStateM.run_bind, hx, hreport hw, if_neg ht]
      simp [t, he, spoken, saying]
    | _ =>
      rw [he] at hw
      cases hw
  · have ht : t.phase ≠ .awaiting := by simp [t, he, spoken, tell, hs]
    simp only [he, saying] at hw hx
    rw [noting_heard hw] at hx
    rw [if_neg ht]
    simp [executeAt, hx, tell, hs, t, he, spoken, saying]
  · have ht : t.phase ≠ .awaiting := by simp [t, he, spoken, tell, hs]
    cases hr : resolve? s.order target with
    | some i =>
      simp only [he, saying, hr] at hw
      cases hw
    | none =>
      simp only [he, saying, hr] at hw hx
      have hj : (executeAt host n stmt).run s = .error (.because .undefinedLine) s := by
        simp [executeAt, hx, hs, hr]
      rw [hj, if_neg ht]
      simp [Fault.because, hreport hw, t, he, spoken, tell, saying, hr]
  · have ht : t.phase = .awaiting := by simp [t, he, spoken]
    have hx' : (execute host n stmt).run s = .ok none t := by
      simp only [he, saying] at hw hx
      rw [hx, noting_heard hw, asked_eq]
      simp [t, he, spoken, tell, saying]
    have hq : t.stopRequested = true := rfl
    rw [if_pos ht]
    clear_value t
    simp [executeAt, hx', ht, hq, finish_quiet hquiet]

end Attempt

section Step

variable {host : Host} {when : List Event → Bool} {message : Option String} {s t : Session} {n : Int}
  {stmt : Stmt} (hs : s.phase = .executing) (hq : s.stopRequested = false)
  (hn : s.order[s.pc]? = some n) (hf : Numbered.find? n s.compiled = some stmt)

include hs hq hn hf

lemma step_of_ok {settled : Bool}
    (hx : (attempt host n stmt).run { s with stepping := true } = .ok settled t) :
    (step host).run s = if settled = false ∧ (t.stopRequested = true ∨ t.order.size ≤ t.pc) then
      (finish host).run { t with stepping := false } else .ok () { t with stepping := false } := by
  rw [attempt] at hx
  rw [step_run hs hq hn hf, EStateM.run_bind, run_ensuring, hx]
  cases settled with
  | true => simp
  | false => by_cases ht : t.stopRequested = true ∨ t.order.size ≤ t.pc <;> simp [atEnd, ht]

lemma step_of_error {fault : Fault}
    (hx : (attempt host n stmt).run { s with stepping := true } = .error fault t) :
    (step host).run s = .error fault { t with stepping := false } := by
  rw [attempt] at hx
  rw [step_run hs hq hn hf, EStateM.run_bind, run_ensuring, hx]

lemma step_unheard (hh : host.StopsOnce when message) (hr : s.stopReport = none)
    (hw : hears when s.events.toList (s.saying n (effect s.vars stmt)) = false) :
    (step host).run s = (step .passive).run s := by
  have hx := attempt_unheard (s := { s with stepping := true }) hh hs rfl hn hq hw
  cases hy : (attempt .passive n stmt).run { s with stepping := true } with
  | error fault t => rw [step_of_error hs hq hn hf (hx.trans hy), step_of_error hs hq hn hf hy]
  | ok settled t =>
    have ht : t.stopReport = none := stopReport_of_attempt (s := { s with stepping := true }) hs hq hr hy
    rw [step_of_ok hs hq hn hf (hx.trans hy), step_of_ok hs hq hn hf hy, finish_passive,
      finish_stopping (s := { t with stepping := false }) hh ht]

lemma step_heard (hh : host.StopsOnce when message)
    (hw : hears when s.events.toList (s.saying n (effect s.vars stmt)) = true) :
    (step host).run s = .ok () (s.interrupted n (effect s.vars stmt) message) := by
  have hx := attempt_heard (s := { s with stepping := true }) hh hs rfl hn hw
  have hsp : spoken { s with stepping := true } n (effect s.vars stmt) =
      { s.spoken n (effect s.vars stmt) with stepping := true } := by
    rcases effect s.vars stmt with fault | ⟨vars, told⟩ | target | ⟨prompt, target⟩ <;> rfl
  simp only [hsp] at hx
  by_cases ht : (s.spoken n (effect s.vars stmt)).phase = .awaiting
  · rw [if_pos ht] at hx
    rw [step_of_ok hs hq hn hf hx, if_neg (by simp)]
    rfl
  · rw [if_neg ht] at hx
    rw [step_of_ok hs hq hn hf hx, if_pos ⟨rfl, .inl rfl⟩, finish_quiet]
    · rfl
    · exact hh.quiet_of_hears hw (toList_spoken s n _)

end Step

end LineBasic.Session
