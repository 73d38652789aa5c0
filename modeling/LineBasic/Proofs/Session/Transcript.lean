import LineBasic.Proofs.Session.Alike
import LineBasic.Proofs.Session.Calls

/-! Transcripts of the calls that are made on a session: what each of them tells beside the text that
it repeats, and what it leaves. Once a run is started, two sessions with the same program have the
same transcripts, whatever they have been used for before. -/

namespace LineBasic.Session

inductive Call
  | run
  | step
  | advance (limit : Int)
  | exhaust
  | deliver (text : String)
  | submit (text : String)
  | stop (message : Option String)

namespace Call

/-- What a call does. Stepping without a limit does some number `n` of steps. -/
def act (n : Nat) : Call → Act Unit
  | run => Session.run .passive
  | step => Session.step .passive
  | advance limit => discard (Session.advance .passive limit.toNat)
  | exhaust => discard (Session.advance .passive n)
  | deliver text => Session.deliver .passive text
  | submit text => Session.submit .passive text
  | stop message => Session.stop .passive message

/-- What a session shows of the text that it is given. -/
def shown (s : Session) : Call → List Event
  | deliver text =>
    if s.echo then [if s.phase = .awaiting then .append text else .line (">" ++ text)] else []
  | submit text => if s.echo ∧ s.phase = .awaiting then [.append text] else []
  | _ => []

end Call

def Ends (act : Act Unit) (s : Session) : Option Fault → Session → Prop
  | none, t => act.run s = .ok () t
  | some fault, t => act.run s = .error fault t

structure Entry where
  fault : Option Fault
  told : List Event
  phase : Phase
  vars : Variables
  compiled : Numbered Stmt
  line : Option Int

inductive Transcript : Session → List Call → List Entry → Prop
  | nil (s : Session) : Transcript s [] []
  | call {s t : Session} {c : Call} {cs : List Call} {n : Nat} {fault : Option Fault} {told : List Event}
      {log : List Entry} (ha : Ends (c.act n) s fault t)
      (hx : c = .exhaust → fault = none → t.phase ≠ .executing)
      (ht : t.events.toList = s.events.toList ++ c.shown s ++ told) (h : Transcript t cs log) :
      Transcript s (c :: cs) (⟨fault, told, t.phase, t.vars, t.compiled, t.currentLine⟩ :: log)

variable {s t u : Session} {c : Call} {cs : List Call} {log : List Entry}

lemma keeps_act (n : Nat) (c : Call) : Keeps (c.act n) := by
  cases c with
  | run => exact keeps_run
  | step => exact keeps_step
  | advance limit => exact (keeps_advanceFrom 0 _).bind fun _ => keeps_pure ()
  | exhaust => exact (keeps_advanceFrom 0 n).bind fun _ => keeps_pure ()
  | deliver text => exact keeps_deliver text
  | submit text => exact keeps_submit text
  | stop message => exact keeps_stop message

lemma Ends.coherent {act : Act Unit} {fault : Option Fault} (h : Ends act s fault t) (hk : Keeps act)
    (hc : s.Coherent) : t.Coherent := by
  have ht := hk s hc
  cases fault <;> simpa only [after, show act.run s = _ from h] using ht

lemma exists_ends (act : Act Unit) (s : Session) : ∃ fault t, Ends act s fault t := by
  cases hr : act.run s with
  | ok a t => exact ⟨none, t, hr⟩
  | error fault t => exact ⟨some fault, t, hr⟩

def Agree (n : Nat) (c : Call) (s t : Session) : Prop :=
  Ended (s.events.toList ++ c.shown s) (t.events.toList ++ c.shown t) ((c.act n).run s) ((c.act n).run t)

lemma Alike.agree (hc : s.Coherent) (h : Alike s t) (n : Nat) (c : Call) : Agree n c s t := by
  have silent {act : Act Unit} (ha : Tied act) :
      Ended (s.events.toList ++ []) (t.events.toList ++ []) (act.run s) (act.run t) := by
    simpa only [List.append_nil] using ha s t hc h
  cases c with
  | run => exact silent tied_run
  | step => exact silent tied_step
  | advance limit =>
    exact silent ((tied_advanceFrom 0 _).bind (keeps_advanceFrom 0 _) fun _ => tied_pure ())
  | exhaust => exact silent ((tied_advanceFrom 0 n).bind (keeps_advanceFrom 0 n) fun _ => tied_pure ())
  | deliver text =>
    have hd := deliver_ended hc h text
    simp only [toList_echoed] at hd
    exact hd
  | submit text =>
    have hd := submit_ended hc h text
    by_cases hs : s.phase = .awaiting
    · have ht := h.phase ▸ hs
      simp only [if_pos hs, if_pos ht, toList_echoed] at hd
      simpa only [Agree, Call.act, Call.shown, hs, ht, and_true] using hd
    · have ht : t.phase ≠ .awaiting := h.phase ▸ hs
      simp only [if_neg hs, if_neg ht] at hd
      simpa only [Agree, Call.act, Call.shown, hs, ht, and_false, if_false, List.append_nil] using hd
  | stop message => exact silent (tied_stop message)

lemma run_agree (hc : s.Coherent) (hd : t.Coherent) (hs : s.phase = .idle) (ht : t.phase = .idle)
    (hp : s.program = t.program) (hx : s.depth = t.depth) (n : Nat)
    (h : c = .run ∨ c = .deliver "RUN") : Agree n c s t := by
  rcases h with rfl | rfl
  · simpa only [Agree, Call.act, Call.shown, List.append_nil] using run_ended hc hd hs ht hp hx
  · have he := run_ended (hc.echoed (.line (">" ++ "RUN"))) (hd.echoed (.line (">" ++ "RUN"))) hs ht hp
      hx
    have hr := he.reporting (keeps_run _ (hc.echoed _)) tied_reportCommand
    simp only [toList_echoed] at hr
    have hw : Phase.idle ≠ .awaiting := by simp
    simp only [Agree, Call.act, Call.shown, hs, ht, if_neg hw]
    rw [deliver_passive (hs ▸ hw), deliver_passive (ht ▸ hw), command_run]
    exact hr

lemma Agree.symm {n : Nat} (h : Agree n c s t) : Agree n c t s := by
  rw [Agree] at h ⊢
  generalize (c.act n).run s = x at h ⊢
  generalize (c.act n).run t = y at h ⊢
  cases h with
  | ok a hg =>
    obtain ⟨ha, es, hs, ht⟩ := hg
    exact .ok a ⟨ha.symm, es, ht, hs⟩
  | error fault hg =>
    obtain ⟨ha, es, hs, ht⟩ := hg
    exact .error fault ⟨ha.symm, es, ht, hs⟩

lemma Agree.ends {n : Nat} {fault : Option Fault} (h : Agree n c s t) (hu : Ends (c.act n) s fault u) :
    ∃ v told, Ends (c.act n) t fault v ∧ Alike u v ∧
      u.events.toList = s.events.toList ++ c.shown s ++ told ∧
      v.events.toList = t.events.toList ++ c.shown t ++ told := by
  rw [Agree] at h
  cases fault with
  | none =>
    rw [show (c.act n).run s = .ok () u from hu] at h
    generalize hy : (c.act n).run t = y at h
    cases h with
    | ok a hg =>
      obtain ⟨ha, told, hs, ht⟩ := hg
      exact ⟨_, told, hy, ha, hs, ht⟩
  | some fault =>
    rw [show (c.act n).run s = .error fault u from hu] at h
    generalize hy : (c.act n).run t = y at h
    cases h with
    | error _ hg =>
      obtain ⟨ha, told, hs, ht⟩ := hg
      exact ⟨_, told, hy, ha, hs, ht⟩

lemma Transcript.of_agree (hc : s.Coherent) (ha : ∀ n, Agree n c s t)
    (hn : ∀ {u v : Session} {log : List Entry}, u.Coherent → Alike u v → Transcript u cs log →
      Transcript v cs log) (h : Transcript s (c :: cs) log) : Transcript t (c :: cs) log := by
  cases h with
  | call hr hx ht h =>
    obtain ⟨v, told, hv, hl, hs', ht'⟩ := (ha _).ends hr
    obtain rfl : told = _ := List.append_cancel_left (hs'.symm.trans ht)
    rw [hl.phase, hl.vars, hl.compiled, hl.currentLine]
    exact .call hv (hl.phase ▸ hx) ht' (hn (hr.coherent (keeps_act _ _) hc) hl h)

lemma Transcript.of_alike (hc : s.Coherent) (h : Alike s t) (hl : Transcript s cs log) :
    Transcript t cs log := by
  induction cs generalizing s t log with
  | nil =>
    cases hl
    exact .nil t
  | cons c cs ih => exact hl.of_agree hc (h.agree hc · c) ih

lemma run_discard {α : Type} (act : Act α) (s : Session) :
    (discard act).run s = (act.run s).map fun _ => () := EStateM.run_map ..

/-- Stepping has ended by itself, and a larger limit changes nothing. -/
def Settled : EStateM.Result Fault Session Nat → Prop
  | .ok _ t => t.phase ≠ .executing
  | .error _ _ => True

lemma advanceFrom_settled {host : Host} {done n m : Nat} (h : Settled ((advanceFrom host done n).run s))
    (h' : Settled ((advanceFrom host done m).run s)) :
    (advanceFrom host done n).run s = (advanceFrom host done m).run s := by
  induction n generalizing s done m with
  | zero => rw [advanceFrom_of_rest host h, advanceFrom_of_rest host h]
  | succ n ih =>
    by_cases hs : s.phase = .executing
    · cases m with
      | zero => exact absurd hs h'
      | succ m =>
        cases hr : (step host).run s with
        | ok a t =>
          rw [advanceFrom_succ hs hr] at h h' ⊢
          rw [advanceFrom_succ hs hr]
          exact ih h h'
        | error fault t => simp [advanceFrom, hs, hr]
    · rw [advanceFrom_of_rest host hs, advanceFrom_of_rest host hs]

lemma Ends.settled {act : Act Nat} {fault : Option Fault} (h : Ends (discard act) s fault t)
    (ht : fault = none → t.phase ≠ .executing) : Settled (act.run s) := by
  cases fault <;> rw [Ends, run_discard] at h <;> cases hr : act.run s <;> rw [hr] at h <;> cases h
  · exact ht rfl
  · trivial

lemma ends_unique {n m : Nat} {fault fault' : Option Fault} (h : Ends (c.act n) s fault t)
    (ht : c = .exhaust → fault = none → t.phase ≠ .executing) (h' : Ends (c.act m) s fault' u)
    (hu : c = .exhaust → fault' = none → u.phase ≠ .executing) : fault = fault' ∧ t = u := by
  have hx : (c.act n).run s = (c.act m).run s := by
    cases c with
    | exhaust =>
      have hs := advanceFrom_settled (h.settled (ht rfl)) (h'.settled (hu rfl))
      simp only [Call.act, run_discard, advance, hs]
    | _ => rfl
  cases fault <;> cases fault' <;> simp only [Ends] at h h' <;> rw [h, h'] at hx <;> cases hx <;>
    exact ⟨rfl, rfl⟩

lemma Transcript.unique {log' : List Entry} (h : Transcript s cs log) (h' : Transcript s cs log') :
    log = log' := by
  induction h generalizing log' with
  | nil s =>
    cases h'
    rfl
  | call ha hx ht _ ih =>
    cases h' with
    | call ha' hx' ht' h' =>
      obtain ⟨rfl, rfl⟩ := ends_unique ha hx ha' hx'
      obtain rfl := List.append_cancel_left (ht.symm.trans ht')
      rw [ih h']

lemma exists_transcript (hc : s.Coherent) (hx : .exhaust ∉ cs) : ∃ log, Transcript s cs log := by
  induction cs generalizing s with
  | nil => exact ⟨[], .nil s⟩
  | cons c cs ih =>
    obtain ⟨hc', hcs⟩ := not_or.mp (mt List.mem_cons.mpr hx)
    obtain ⟨fault, t, ht⟩ := exists_ends (c.act 0) s
    obtain ⟨-, told, -, -, he, -⟩ := ((Alike.refl s).agree hc 0 c).ends ht
    obtain ⟨log, hl⟩ := ih (ht.coherent (keeps_act 0 c) hc) hcs
    exact ⟨_, .call ht (fun h => absurd h.symm hc') he hl⟩

theorem run_determined_by_program {depth : Nat} (h : Reachable depth s) (h' : Reachable depth t)
    (hs : s.phase = .idle) (ht : t.phase = .idle) (hp : s.program = t.program) (hr : c = .run ∨ c = .deliver "RUN") :
    (∀ cs log, Transcript s (c :: cs) log ↔ Transcript t (c :: cs) log) ∧
    (∀ cs log log', Transcript s (c :: cs) log → Transcript t (c :: cs) log' → log = log') ∧
    ∀ cs, .exhaust ∉ cs → ∃ log, Transcript s (c :: cs) log := by
  have hc := h.coherent
  have hd := h'.coherent
  have hx := h.depth_eq.trans h'.depth_eq.symm
  have hst {cs : List Call} {log : List Entry} (hl : Transcript s (c :: cs) log) :
      Transcript t (c :: cs) log :=
    hl.of_agree hc (run_agree hc hd hs ht hp hx · hr) Transcript.of_alike
  refine ⟨fun cs log => ⟨hst, fun hl => ?_⟩, fun cs log log' hl hl' => (hst hl).unique hl', fun cs hx => ?_⟩
  · exact hl.of_agree hd (fun n => (run_agree hc hd hs ht hp hx n hr).symm) Transcript.of_alike
  · refine exists_transcript hc fun hm => ?_
    rcases List.mem_cons.mp hm with rfl | hm
    · simp at hr
    · exact hx hm

/-- The program of `parrot` in a session that shows no answers and has run it to its end. -/
def spent : Session :=
  after (step .passive) <| after (submit .passive "old") <| after (step .passive) <|
    after (run .passive) <| after (load "10 INPUT A$\n20 PRINT A$") { echo := false }

lemma spent_reachable : Reachable 240 spent :=
  (Reachable.fresh false).call (.load _) |>.call .run |>.call .step |>.call (.submit _) |>.call .step

theorem spent_repeats_parrot : spent.pc ≠ parrot.pc ∧ spent.vars.size ≠ parrot.vars.size ∧
    ∃ log, Transcript parrot [.deliver "RUN", .step, .deliver "hi", .step, .stop none] log ∧
      Transcript spent [.deliver "RUN", .step, .deliver "hi", .step, .stop none] log := by
  refine ⟨by decide +kernel, by decide +kernel, ?_⟩
  have hp : parrot.program = spent.program := by decide +kernel
  obtain ⟨hiff, -, hex⟩ := run_determined_by_program parrot_reachable spent_reachable (by decide +kernel)
    (by decide +kernel) hp (.inr rfl)
  obtain ⟨log, hl⟩ := hex [.step, .deliver "hi", .step, .stop none] (by simp)
  exact ⟨log, hl, (hiff _ _).mp hl⟩

end LineBasic.Session
