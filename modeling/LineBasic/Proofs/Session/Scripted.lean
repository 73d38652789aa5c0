import LineBasic.Proofs.Session.Interruption
import LineBasic.Proofs.Session.NestedAnswer
import LineBasic.Session.Script

/-! Hosts with a script. What is done on a scripted host ends as on the host that the script stands for:
one that only listens when the script is used up, one that answers questions, or one that stops the run.
Only the script itself may not be the same then. -/

namespace LineBasic.Session

def bare (s : Session) : Session := { s with script := [] }

def bareEnd {α : Type} : EStateM.Result Fault Session α → EStateM.Result Fault Session α
  | .ok a s => .ok a s.bare
  | .error fault s => .error fault s.bare

/-- How far a script has come, against all that has been told. -/
abbrev Standing := List Reaction → List Event → Prop

def Standing.At (I : Standing) (s : Session) : Prop := I s.script s.events.toList

/-- From where `I` holds both acts end alike, but for the script, and `J` holds then. -/
def Plays {α : Type} (I J : Standing) (act act' : Act α) : Prop :=
  ∀ s, I.At s → bareEnd (act.run s) = act'.run s.bare ∧ J.At (after act s)

variable {I J K : Standing}

section Plays

variable {α β : Type} {act act' : Act α}

lemma Plays.mono (h : Plays I J act act') (hw : J ≤ K) : Plays I K act act' :=
  fun s hs => ⟨(h s hs).1, hw _ _ (h s hs).2⟩

lemma Plays.sup (h : Plays I K act act') (hj : Plays J K act act') : Plays (I ⊔ J) K act act' :=
  fun s hs => hs.elim (h s) (hj s)

lemma plays_pure (a : α) : Plays I I (pure a : Act α) (pure a) := fun _ hs => ⟨rfl, hs⟩

lemma plays_throw (fault : Fault) : Plays I I (throw fault : Act α) (throw fault) :=
  fun _ hs => ⟨rfl, hs⟩

lemma plays_ofExcept (x : Except Fault α) : Plays I I (ofExcept x) (ofExcept x) := by
  cases x with
  | ok a => exact plays_pure a
  | error fault => exact plays_throw fault

lemma plays_modify {f : Session → Session}
    (hf : ∀ s, (f s).bare = f s.bare ∧ (f s).script = s.script ∧ (f s).events = s.events) :
    Plays I I (modify f) (modify f) := by
  intro s hs
  obtain ⟨hb, hr, he⟩ := hf s
  refine ⟨congrArg (EStateM.Result.ok ()) hb, ?_⟩
  change I (f s).script (f s).events.toList
  rw [hr, he]
  exact hs

-- A fault leaves the second act out, so that `K` has to follow from `J` by itself.
lemma Plays.bind_le {next next' : α → Act β} (hw : J ≤ K) (h : Plays I J act act')
    (hn : ∀ a, Plays J K (next a) (next' a)) : Plays I K (act >>= next) (act' >>= next') := by
  intro s hs
  obtain ⟨he, hj⟩ := h s hs
  rw [after] at hj ⊢
  rw [EStateM.run_bind, EStateM.run_bind, ← he]
  generalize act.run s = x at hj ⊢
  cases x with
  | ok a t => exact hn a t hj
  | error fault t => exact ⟨rfl, hw _ _ hj⟩

lemma Plays.bind {next next' : α → Act β} (h : Plays I J act act')
    (hn : ∀ a, Plays J J (next a) (next' a)) : Plays I J (act >>= next) (act' >>= next') :=
  h.bind_le le_rfl hn

lemma Plays.map (h : Plays I J act act') (f : α → β) : Plays I J (f <$> act) (f <$> act') := by
  rw [← bind_pure_comp, ← bind_pure_comp]
  exact h.bind fun a => plays_pure (f a)

lemma Plays.get_bind {next next' : Session → Act α} (hb : ∀ s : Session, next' s.bare = next' s)
    (h : ∀ s, Plays I J (next s) (next' s)) : Plays I J (get >>= next) (get >>= next') := by
  intro s hs
  have hx := h s s hs
  rw [← hb s] at hx
  exact hx

lemma Plays.ensuring {change : Session → Session} (h : Plays I J act act')
    (hc : ∀ s, (change s).bare = change s.bare ∧ (change s).script = s.script ∧
      (change s).events = s.events) : Plays I J (ensuring act change) (ensuring act' change) := by
  intro s hs
  obtain ⟨he, hj⟩ := h s hs
  rw [after] at hj ⊢
  rw [run_ensuring, run_ensuring, ← he]
  generalize act.run s = x at hj ⊢
  have hk (t : Session) (ht : J.At t) : J.At (change t) := by
    obtain ⟨-, hr, he⟩ := hc t
    rwa [Standing.At, hr, he]
  cases x with
  | ok a t => exact ⟨congrArg (EStateM.Result.ok a) (hc t).1, hk t hj⟩
  | error fault t => exact ⟨congrArg (EStateM.Result.error fault) (hc t).1, hk t hj⟩

lemma Plays.reporting {report report' : Diagnostic → Act α} (h : Plays I J act act')
    (hr : ∀ d, Plays J J (report d) (report' d)) :
    Plays I J (reporting act report) (reporting act' report') := by
  intro s hs
  obtain ⟨he, hj⟩ := h s hs
  rw [after] at hj ⊢
  rw [run_reporting, run_reporting, ← he]
  generalize act.run s = x at hj ⊢
  cases x with
  | ok a t => exact ⟨rfl, hj⟩
  | error fault t =>
    cases fault with
    | told d => exact hr d t hj
    | _ => exact ⟨rfl, hj⟩

end Plays

section Calls

variable {host host' : Host}

/-- Whatever is not a question is taken alike. -/
def Tells (I : Standing) (host host' : Host) : Prop :=
  ∀ e : Event, e.kind ≠ .request → Plays I I (emit host e) (emit host' e)

lemma Tells.line (h : Tells I host host') (text : String) :
    Plays I I (emit host (.line text)) (emit host' (.line text)) := h _ (by simp [Event.kind])

lemma Tells.finish (h : Tells I host host') : Plays I I (finish host) (finish host') := by
  have hr : Plays I I
      (do modify ({ · with phase := .idle, pending := none, stopRequested := false }); emit host ready)
      (do modify ({ · with phase := .idle, pending := none, stopRequested := false }); emit host' ready) :=
    .bind (plays_modify fun _ => ⟨rfl, rfl, rfl⟩) fun _ => h.line "Ready"
  refine .get_bind (fun _ => rfl) fun s => ?_
  cases s.stopReport with
  | none => exact hr
  | some report =>
    exact .bind (h.line report) fun _ => .bind (plays_modify fun _ => ⟨rfl, rfl, rfl⟩) fun _ => hr

lemma Tells.compile (h : Tells I host host') : Plays I I (compile host) (compile host') := by
  refine .bind (plays_modify fun _ => ⟨rfl, rfl, rfl⟩) fun _ => .get_bind (fun _ => rfl) fun s => ?_
  refine .bind (plays_modify fun _ => ⟨rfl, rfl, rfl⟩) fun _ => .ensuring ?_ fun _ => ⟨rfl, rfl, rfl⟩
  cases (compileLines s.depth s.program).2 with
  | none => exact plays_pure true
  | some fault => exact .bind (h.line _) fun _ => .bind (h.line "Ready") fun _ => plays_pure false

lemma Tells.run (h : Tells I host host') : Plays I I (run host) (run host') := by
  refine .get_bind (fun _ => rfl) fun s => ?_
  split
  · refine .bind h.compile fun compiled => ?_
    split
    · refine .bind (plays_modify fun _ => ⟨rfl, rfl, rfl⟩) fun _ => .get_bind (fun _ => rfl) fun s => ?_
      split
      · exact h.finish
      · exact plays_pure ()
    · exact plays_pure ()
  · exact plays_pure ()

lemma Tells.stop (h : Tells I host host') (message : Option String) :
    Plays I I (stop host message) (stop host' message) := by
  refine .get_bind (fun _ => rfl) fun s => ?_
  split
  · refine .bind (plays_modify fun _ => ⟨rfl, rfl, rfl⟩) fun _ => ?_
    split
    · exact h.finish
    · exact plays_pure ()
  · exact plays_pure ()

lemma plays_assign (name : String) (v : Value) : Plays I I (assign name v) (assign name v) := by
  refine .get_bind (fun _ => rfl) fun s => .bind (plays_ofExcept _) fun vars => ?_
  exact plays_modify fun _ => ⟨rfl, rfl, rfl⟩

lemma Tells.accept (h : Tells I host host') (p : Pending) (text : String) :
    Plays I I (accept host p text) (accept host' p text) := by
  refine .bind (plays_ofExcept _) fun name => ?_
  have hr (v : Value) : Plays I I
      (do
        assign name v
        modify ({ · with pending := none, pc := p.next, phase := .executing })
        if (← get).atEnd then Session.finish host)
      (do
        assign name v
        modify ({ · with pending := none, pc := p.next, phase := .executing })
        if (← get).atEnd then Session.finish host') := by
    refine .bind (plays_assign name v) fun _ => .bind (plays_modify fun _ => ⟨rfl, rfl, rfl⟩) fun _ => ?_
    refine .get_bind (fun _ => rfl) fun s => ?_
    split
    · exact h.finish
    · exact plays_pure ()
  dsimp only
  split
  · exact .bind (plays_pure _) hr
  · exact .bind ((plays_ofExcept _).map _) hr

lemma Tells.submit (h : Tells I host host') (text : String) :
    Plays I I (submit host text) (submit host' text) := by
  have hf : Plays I I (fail .notWaiting : Act Unit) (fail .notWaiting) := plays_throw _
  refine .get_bind (fun _ => rfl) fun s => ?_
  cases s.phase with
  | awaiting =>
    cases s.pending with
    | none => exact hf
    | some p =>
      dsimp only
      split
      · exact .bind (h _ (by simp [Event.kind])) fun _ => h.accept p text
      · exact h.accept p text
  | _ => exact hf

lemma plays_storeLine (number : Int) (code : String) :
    Plays I I (storeLine number code) (storeLine number code) := by
  intro s hs
  have hr : s.bare.running = s.running := rfl
  rw [after, storeLine_run, storeLine_run, hr]
  generalize Text.trim code = body
  split_ifs <;> exact ⟨rfl, hs⟩

lemma plays_new : Plays I I new new := by
  intro s hs
  have hr : s.bare.running = s.running := rfl
  rw [after, new_run, new_run, hr]
  split_ifs <;> exact ⟨rfl, hs⟩

lemma Tells.emitLines (h : Tells I host host') (texts : List String) :
    Plays I I (emitLines host texts) (emitLines host' texts) := by
  induction texts with
  | nil => exact plays_pure ()
  | cons text texts ih => exact .bind (h.line text) fun _ => ih

lemma Tells.command (h : Tells I host host') (code : String) :
    Plays I I (command host code) (command host' code) := by
  have hc : Plays I I (emit host .clear) (emit host' .clear) := h _ (by simp [Event.kind])
  rw [Session.command, Session.command]
  cases Program.splitLine? code with
  | some line => exact .bind (plays_ofExcept _) fun number => plays_storeLine number _
  | none =>
    dsimp only
    split
    · exact h.run
    · exact .get_bind (fun _ => rfl) fun s => .bind (h.emitLines _) fun _ => h.line "Ready"
    · exact .bind hc fun _ => h.line "Ready"
    · exact .bind plays_new fun _ => h.line "Ready"
    · exact plays_throw _

lemma Tells.reportCommand (h : Tells I host host') (d : Diagnostic) :
    Plays I I (reportCommand host d) (reportCommand host' d) := by
  refine .bind (h.line _) fun _ => .get_bind (fun _ => rfl) fun s => ?_
  split
  · exact h.line "Ready"
  · exact plays_pure ()

lemma Tells.deliver (h : Tells I host host') (text : String) :
    Plays I I (deliver host text) (deliver host' text) := by
  refine .get_bind (fun _ => rfl) fun s => ?_
  split
  · exact h.submit text
  · have hr := (h.command (Text.trim text)).reporting h.reportCommand
    dsimp only
    split
    · exact .bind (h.line _) fun _ => hr
    · exact hr

end Calls

section Step

variable {host host' : Host}

structure Agrees (I J : Standing) (host host' : Host) : Prop where
  tells : Tells I host host'
  then_tells : Tells J host host'
  asks : ∀ prompt, Plays I J (emit host (.request prompt)) (emit host' (.request prompt))
  le : I ≤ J

lemma plays_evaluate (e : Expr) : Plays I I (evaluate e) (evaluate e) :=
  .get_bind (fun _ => rfl) fun _ => plays_ofExcept _

lemma plays_promptText (prompt : Option Expr) : Plays I I (promptText prompt) (promptText prompt) := by
  cases prompt with
  | none => exact plays_pure _
  | some e => exact .bind (plays_evaluate e) fun _ => .bind (plays_ofExcept _) fun _ => plays_pure _

lemma Agrees.execute (h : Agrees I J host host') (n : Int) (stmt : Stmt) :
    Plays I J (execute host n stmt) (execute host' n stmt) := by
  cases stmt with
  | input prompt target =>
    refine .bind_le h.le (plays_promptText prompt) fun shown => ?_
    refine .bind_le h.le (plays_modify fun _ => ⟨rfl, rfl, rfl⟩) fun _ => ?_
    exact .bind_le h.le (h.tells.line shown) fun _ => .bind (h.asks shown) fun _ => plays_pure none
  | print value =>
    refine Plays.mono ?_ h.le
    refine .get_bind (fun _ => rfl) fun s => .bind (plays_ofExcept _) fun v => ?_
    exact .bind (plays_ofExcept _) fun text => .bind (h.tells.line text) fun _ => plays_pure none
  | goto target => exact (plays_pure _).mono h.le
  | assign target value =>
    refine Plays.mono ?_ h.le
    refine .bind (plays_ofExcept _) fun name => .bind (plays_evaluate value) fun v => ?_
    exact .bind (plays_assign name v) fun _ => plays_pure none
  | rem comment => exact (plays_pure none).mono h.le
  | cls => exact Plays.mono (.bind (h.tells _ (by simp [Event.kind])) fun _ => plays_pure none) h.le
  | foreign shape => exact (plays_throw _).mono h.le

lemma plays_resolve (target : Int) : Plays I I (resolve target) (resolve target) := by
  refine .get_bind (fun _ => rfl) fun s => ?_
  cases resolve? s.order target with
  | none => exact plays_throw _
  | some i => exact plays_pure i

lemma Agrees.executeAt (h : Agrees I J host host') (n : Int) (stmt : Stmt) :
    Plays I J (executeAt host n stmt) (executeAt host' n stmt) := by
  refine .bind (h.execute n stmt) fun jump => .get_bind (fun _ => rfl) fun s => ?_
  split
  · refine .get_bind (fun _ => rfl) fun s => ?_
    dsimp only
    split
    · exact .bind h.then_tells.finish fun _ => plays_pure true
    · exact plays_pure true
  · cases jump with
    | none => exact .bind (plays_modify fun _ => ⟨rfl, rfl, rfl⟩) fun _ => plays_pure false
    | some target =>
      refine .bind (plays_resolve target) fun i => ?_
      exact .bind (plays_modify fun _ => ⟨rfl, rfl, rfl⟩) fun _ => plays_pure false

lemma Tells.reportAt (h : Tells I host host') (n : Int) (d : Diagnostic) :
    Plays I I (reportAt host n d) (reportAt host' n d) :=
  .bind (h.line _) fun _ => .bind (plays_modify fun _ => ⟨rfl, rfl, rfl⟩) fun _ => plays_pure false

lemma Agrees.step (h : Agrees I J host host') : Plays I J (step host) (step host') := by
  refine .get_bind (fun _ => rfl) fun s => ?_
  split
  · exact (plays_pure ()).mono h.le
  · cases s.order[s.pc]? with
    | none => exact h.tells.finish.mono h.le
    | some n =>
      cases s.stopRequested with
      | true => exact h.tells.finish.mono h.le
      | false =>
        dsimp only
        cases Numbered.find? n s.compiled with
        | none => exact (plays_throw _).mono h.le
        | some stmt =>
          refine .bind_le h.le (plays_modify fun _ => ⟨rfl, rfl, rfl⟩) fun _ => ?_
          refine .bind (.ensuring ?_ fun _ => ⟨rfl, rfl, rfl⟩) fun settled => ?_
          · exact (h.executeAt n stmt).reporting (h.then_tells.reportAt n)
          split
          · exact plays_pure ()
          · refine .get_bind (fun _ => rfl) fun s => ?_
            split
            · exact h.then_tells.finish
            · exact plays_pure ()

lemma Agrees.perform (h : Agrees I J host host') (action : Action) :
    Plays I J (perform host action) (perform host' action) := by
  cases action with
  | stop message => exact (h.tells.stop message).mono h.le
  | deliver text => exact (h.tells.deliver text).mono h.le
  | step => exact h.step
  | run => exact h.tells.run.mono h.le

end Step

section Rows

variable {host host' : Host} {I : Nat → Standing}

lemma standing_le (h : ∀ k, I (k + 1) ≤ I k) (k n : Nat) : I (k + n) ≤ I k := by
  induction n with
  | zero => exact le_rfl
  | succ n ih => exact (h (k + n)).trans ih

lemma plays_performAll (h : ∀ k, Agrees (I (k + 1)) (I k) host host') (actions : List Action) (k : Nat) :
    Plays (I (k + actions.length)) (I k) (performAll host actions) (performAll host' actions) := by
  induction actions with
  | nil => exact plays_pure ()
  | cons action rest ih =>
    exact .bind_le (standing_le (fun k => (h k).le) k _) ((h _).perform action) fun _ => ih

lemma plays_advanceFrom (h : ∀ k, Agrees (I (k + 1)) (I k) host host') (limit k done : Nat) :
    Plays (I (k + limit)) (I k) (advanceFrom host done limit) (advanceFrom host' done limit) := by
  induction limit generalizing done with
  | zero => exact plays_pure done
  | succ limit ih =>
    have hw := standing_le (fun k => (h k).le) k
    refine .get_bind (fun _ => rfl) fun s => ?_
    split
    · exact .bind_le (hw limit) (h _).step fun _ => ih (done + 1)
    · exact (plays_pure done).mono (hw (limit + 1))

/-- For `n` actions or steps in a row the script of a session makes its host one like `host`. -/
structure Imitates (host : Host) (n : Nat) (s : Session) : Prop where
  performs : ∀ actions : List Action, actions.length ≤ n →
    bareEnd ((performAll .scripted actions).run s) = (performAll host actions).run s.bare
  advances : ∀ limit ≤ n, bareEnd ((advance .scripted limit).run s) = (advance host limit).run s.bare

lemma imitates (h : ∀ k, Agrees (I (k + 1)) (I k) .scripted host) {n : Nat} {s : Session}
    (hs : (I n).At s) : Imitates host n s := by
  constructor
  · intro actions hn
    refine (plays_performAll h actions (n - actions.length) s ?_).1
    rwa [Nat.sub_add_cancel hn]
  · intro limit hn
    refine (plays_advanceFrom h limit (n - limit) 0 s ?_).1
    rwa [Nat.sub_add_cancel hn]

lemma imitates_of_plays {I : Standing} (h : ∀ e, Plays I I (emit .scripted e) (emit host e)) {s : Session}
    (hs : I.At s) (n : Nat) : Imitates host n s :=
  imitates (I := fun _ => I)
    (fun _ => ⟨fun e _ => h e, fun e _ => h e, fun prompt => h (.request prompt), le_rfl⟩) hs

end Rows

section Scripts

variable {s : Session} {e : Event} {text : String} {message : Option String}

lemma react_of_none (n : Nat) (h : takeReaction? e s.script = none) : (react n e).run s = .ok () s := by
  cases n with
  | zero => rfl
  | succ n => simp [react, h]

lemma react_of_some (n : Nat) {actions : List Action} {script : List Reaction}
    (h : takeReaction? e s.script = some (actions, script)) :
    (react (n + 1) e).run s = (performAll ⟨react n⟩ actions).run { s with script } := by
  simp [react, h]

lemma performAll_one (host : Host) (action : Action) : performAll host [action] = perform host action := by
  simp [performAll]

lemma emit_scripted (s : Session) (e : Event) :
    (emit .scripted e).run s = (react (reactionsLeft s.script) e).run (s.record e) := by
  simp [emit, Host.scripted, record]

lemma emit_of_used_up (hs : reactionsLeft s.script = 0) (e : Event) :
    (emit .scripted e).run s = .ok () (s.record e) := by
  rw [emit_scripted, hs]
  rfl

def Standing.usedUp : Standing := fun script _ => reactionsLeft script = 0

lemma usedUp_plays (e : Event) : Plays .usedUp .usedUp (emit .scripted e) (emit .passive e) := by
  intro s hs
  rw [after, emit_of_used_up hs]
  exact ⟨rfl, hs⟩

theorem scripted_used_up (hs : reactionsLeft s.script = 0) (n : Nat) : Imitates .passive n s :=
  imitates_of_plays usedUp_plays hs n

/-- At least `k` questions will still be answered. -/
def Standing.answering (text : String) (k : Nat) : Standing := fun script _ =>
  ∃ n ≥ k, script = [⟨.request, none, [.deliver text], n⟩]

lemma answering_react (n k : Nat) : Tells (.answering text k) ⟨react n⟩ .passive := by
  rintro e he s ⟨m, hm, hr⟩
  have hx : (emit ⟨react n⟩ e).run s = .ok () (s.record e) := by
    rw [emit_run]
    refine react_of_none n ?_
    simp [record, hr, takeReaction?, Reaction.answers, Ne.symm he]
  rw [after, hx]
  exact ⟨rfl, m, hm, hr⟩

lemma answering_agrees (k : Nat) :
    Agrees (.answering text (k + 1)) (.answering text k) .scripted (.answering text) := by
  have ht (k : Nat) : Tells (.answering text k) .scripted (.answering text) := by
    intro e he s hs
    rw [emit_eq (Host.answering_answers text).listens he, after, emit_scripted, ← emit_run ⟨react _⟩]
    exact answering_react _ k e he s hs
  have hw : Standing.answering text (k + 1) ≤ .answering text k := by
    rintro script log ⟨n, hn, hr⟩
    exact ⟨n, by omega, hr⟩
  refine ⟨ht _, ht k, ?_, hw⟩
  rintro prompt s ⟨m, hm, hr⟩
  obtain ⟨n, rfl⟩ : ∃ n, m = n + 1 := ⟨m - 1, by omega⟩
  have htake : takeReaction? (.request prompt) (s.record (.request prompt)).script =
      some ([.deliver text], [⟨.request, none, [.deliver text], n⟩]) := by
    simp [record, hr, takeReaction?, Reaction.answers, Event.kind]
  have hx : (emit .scripted (.request prompt)).run s =
      (deliver ⟨react n⟩ text).run { s.record (.request prompt) with
        script := [⟨.request, none, [.deliver text], n⟩] } := by
    rw [emit_scripted, hr, reactionsLeft, reactionsLeft, react_of_some n htake, performAll_one]
    rfl
  rw [after, hx, emit_request (Host.answering_answers text)]
  exact (answering_react n k).deliver text _ ⟨n, by omega, rfl⟩

theorem scripted_answering {n : Nat} (hs : s.script = [⟨.request, none, [.deliver text], n⟩]) :
    Imitates (.answering text) n s := imitates answering_agrees ⟨n, le_rfl, hs⟩

variable {r : Reaction} {k : Nat}

/-- The last event is the first one that `r` waits for, those of the first `k` places apart. -/
def isFirst (r : Reaction) (k : Nat) (log : List Event) : Bool :=
  match (log.drop k).reverse with
  | [] => false
  | e :: before => Reaction.answers r e && !before.any (Reaction.answers r)

lemma isFirst_append {log : List Event} (hk : k ≤ log.length) (e : Event) :
    isFirst r k (log ++ [e]) = (Reaction.answers r e && !(log.drop k).any (Reaction.answers r)) := by
  simp [isFirst, List.drop_append_of_le_length hk]

lemma any_of_isFirst {log : List Event} (h : isFirst r k log = true) :
    k ≤ log.length ∧ (log.drop k).any (Reaction.answers r) = true := by
  rw [isFirst] at h
  split at h
  · cases h
  · rename_i e before hl
    have hx : log.drop k = before.reverse ++ [e] := by simpa using congrArg List.reverse hl
    refine ⟨?_, ?_⟩
    · by_contra hk
      simp [List.drop_eq_nil_of_le (Nat.le_of_not_le hk)] at hx
    · rw [hx]
      simp [(Bool.and_eq_true_iff.mp h).1]

lemma isFirst_once (log es : List Event) (h : isFirst r k log = true) (hes : es ≠ []) :
    isFirst r k (log ++ es) = false := by
  obtain ⟨hk, ha⟩ := any_of_isFirst h
  obtain ⟨es, e, rfl⟩ := List.eq_nil_or_concat' es |>.resolve_left hes
  rw [← List.append_assoc, isFirst_append (by simp; omega), List.drop_append_of_le_length hk]
  simp [ha]

def Standing.stopped (r : Reaction) (k : Nat) : Standing := fun script log =>
  k ≤ log.length ∧ (log.drop k).any (Reaction.answers r) = true ∧ reactionsLeft script = 0

def Standing.unstopped (r : Reaction) (k : Nat) : Standing := fun script log =>
  k ≤ log.length ∧ (log.drop k).any (Reaction.answers r) = false ∧ script = [r]

lemma stopped_record (h : Standing.At (.stopped r k) s) (e : Event) :
    Standing.At (.stopped r k) (s.record e) := by
  obtain ⟨hk, ha, hr⟩ := h
  rw [Standing.At, Standing.stopped, toList_record, List.drop_append_of_le_length hk, List.length_append]
  exact ⟨hk.trans (Nat.le_add_right _ _), by simp [ha], hr⟩

lemma stopped_tells : Tells (.stopped r k) .passive .passive := fun e _ _ hs => ⟨rfl, stopped_record hs e⟩

lemma emit_stopping (s : Session) (e : Event) : (emit (.stopping (isFirst r k) message) e).run s =
    if isFirst r k (s.events.toList ++ [e]) then (stop .passive message).run (s.record e)
    else .ok () (s.record e) := by
  rw [emit_run, ← toList_record]
  split_ifs with h <;> simp [Host.stopping, h]

lemma stopped_plays (e : Event) : Plays (.stopped r k) (.stopped r k) (emit .scripted e)
    (emit (.stopping (isFirst r k) message) e) := by
  intro s hs
  obtain ⟨hk, hn, hr⟩ := id hs
  have hf : isFirst r k (s.bare.events.toList ++ [e]) = false := by
    refine (isFirst_append hk e).trans ?_
    simp [hn]
  rw [after, emit_of_used_up hr, emit_stopping, hf]
  exact ⟨rfl, stopped_record hs e⟩

lemma unstopped_plays (ha : r.actions = [.stop message]) (ht : r.times = 1) (e : Event) :
    Plays (.unstopped r k) (.stopped r k ⊔ .unstopped r k) (emit .scripted e)
      (emit (.stopping (isFirst r k) message) e) := by
  rintro s ⟨hk, hn, hr⟩
  have hf : isFirst r k (s.bare.events.toList ++ [e]) = Reaction.answers r e := by
    refine (isFirst_append hk e).trans ?_
    simp [hn]
  have hk' : k ≤ (s.record e).events.toList.length := by
    rw [toList_record, List.length_append]
    exact hk.trans (Nat.le_add_right _ _)
  have hany : ((s.record e).events.toList.drop k).any (Reaction.answers r) = Reaction.answers r e := by
    rw [toList_record, List.drop_append_of_le_length hk]
    simp [hn]
  have htake : takeReaction? e (s.record e).script =
      if Reaction.answers r e then some ([.stop message], [{ r with times := 0 }]) else none := by
    change takeReaction? e s.script = _
    simp [hr, takeReaction?, ha, ht]
  rw [emit_stopping, hf, after, emit_scripted]
  cases he : Reaction.answers r e with
  | false =>
    rw [react_of_none _ (htake.trans (if_neg (by simp [he])))]
    exact ⟨rfl, .inr ⟨hk', hany.trans he, hr⟩⟩
  | true =>
    have hl : reactionsLeft s.script = 1 := by rw [hr, reactionsLeft, reactionsLeft, ht]
    have hpassive : Host.mk (react 0) = .passive := rfl
    rw [hl, react_of_some 0 (htake.trans (if_pos he)), performAll_one, hpassive]
    refine (stopped_tells.stop message).mono le_sup_left _ ⟨hk', hany.trans he, ?_⟩
    rfl

theorem scripted_stopping (hs : s.script = [r]) (ha : r.actions = [.stop message]) (ht : r.times = 1) :
    (Host.stopping (isFirst r s.events.size) message).StopsOnce (isFirst r s.events.size) message ∧
    ∀ n, Imitates (.stopping (isFirst r s.events.size) message) n s := by
  let I : Standing := .stopped r s.events.size ⊔ .unstopped r s.events.size
  refine ⟨Host.stopping_stopsOnce isFirst_once message, imitates_of_plays (I := I) (fun e => ?_) ?_⟩
  · exact ((stopped_plays e).mono le_sup_left).sup (unstopped_plays ha ht e)
  · have hl : s.events.toList.drop s.events.size = [] := List.drop_eq_nil_of_le (by simp)
    exact Or.inr ⟨by simp, by simp [hl], hs⟩

end Scripts

end LineBasic.Session
