import LineBasic.Proofs.Session.Interjection
import LineBasic.Proofs.Session.Transcript
import LineBasic.Proofs.Token.LetterCase

/-! Programs that differ in letter case only. They compile to the same, and since a run reads what was
compiled and not the program, they run alike. -/

namespace LineBasic.Session

variable {s t : Session} {p p' : Program}

/-- The same line numbers, with codes that differ at most in the case of the letters in their words. -/
def Respelled (p p' : Program) : Prop :=
  List.Forall₂ (fun a b => a.1 = b.1 ∧ Token.Recased a.2.toList b.2.toList) p p'

lemma compileLine_recased (depth : Nat) {code code' : String} (h : Token.Recased code.toList code'.toList) (n : Int) :
    Parse.compileLine depth code n = Parse.compileLine depth code' n := by
  rw [Parse.compileLine, Parse.compileLine, Token.scan_recased h n]

lemma Respelled.compileLines_eq (h : Respelled p p') (depth : Nat) : compileLines depth p = compileLines depth p' := by
  induction h with
  | nil => rfl
  | @cons a b p p' hab _ ih =>
    obtain ⟨n, code⟩ := a
    obtain ⟨m, code'⟩ := b
    obtain ⟨rfl, hc⟩ : n = m ∧ Token.Recased code.toList code'.toList := hab
    simp only [compileLines, compileLine_recased depth hc, ih]

section WithProgram

def withProgram (s : Session) (p : Program) : Session := { s with program := p }

def endWithProgram (p : Program) : EStateM.Result Fault Session Unit → EStateM.Result Fault Session Unit
  | .ok a s => .ok a (s.withProgram p)
  | .error fault s => .error fault (s.withProgram p)

/-- The call does not look at the program. -/
def Unmindful (act : Act Unit) (s : Session) : Prop :=
  ∀ p, (s.withProgram p).Coherent → act.run (s.withProgram p) = endWithProgram p (act.run s)

lemma moveTo_withProgram {u : Session} (h : u = s.withProgram p) (pc : Nat) :
    .ok () (u.moveTo pc) = endWithProgram p (.ok () (s.moveTo pc)) := by
  subst h
  refine congrArg (EStateM.Result.ok ()) ?_
  by_cases hp : s.order.size ≤ pc
  · rw [moveTo, moveTo, if_pos hp]
    exact if_pos hp
  · rw [moveTo, moveTo, if_neg hp]
    exact if_neg hp

lemma after_withProgram {act : Act Unit} {u : Session} (h : act.run u = endWithProgram p (act.run s)) :
    after act u = (after act s).withProgram p := by
  rw [after, after, h]
  cases act.run s <;> rfl

variable (s p)

lemma started_withProgram (compiled : Numbered Stmt) :
    (s.withProgram p).started compiled = (s.started compiled).withProgram p := by
  rw [started, started]
  split <;> rfl

lemma settle_withProgram (n : Int) (x : Except Fault Effect) :
    (s.withProgram p).settle n x = endWithProgram p (s.settle n x) := by
  rcases x with fault | ⟨vars, told⟩ | target | ⟨prompt, target⟩
  · cases fault <;> rfl
  · exact moveTo_withProgram (by rfl) _
  · rw [settle, settle, show (s.withProgram p).order = s.order from rfl]
    cases resolve? s.order target with
    | none => rfl
    | some i => exact moveTo_withProgram (by rfl) i
  · rfl

lemma step_unmindful : Unmindful (step .passive) s := by
  intro p h
  by_cases hs : s.phase = .executing
  · obtain ⟨n, stmt, hn, hf⟩ := h.exists_statement hs
    rw [step_passive (s := s) hs h.stopRequested hn hf,
      step_passive (s := s.withProgram p) hs h.stopRequested hn hf]
    exact settle_withProgram s p n _
  · rw [step_passive_of_rest hs, step_passive_of_rest (s := s.withProgram p) hs]
    rfl

lemma stop_unmindful (message : Option String) : Unmindful (stop .passive message) s := by
  intro p h
  cases hs : s.running with
  | false =>
    rw [stop_of_rest hs, stop_of_rest (s := s.withProgram p) hs]
    rfl
  | true =>
    rw [stop_passive_of_running (s := s) hs h.stepping,
      stop_passive_of_running (s := s.withProgram p) hs h.stepping]
    rfl

lemma answer_unmindful (hs : s.phase = .awaiting) (text : String) :
    Unmindful (deliver .passive text) s := by
  intro p h
  obtain ⟨-, n, prompt, target, -, -, hp⟩ := h.awaiting hs
  rw [deliver_of_awaiting (s := s) hs, deliver_of_awaiting (s := s.withProgram p) hs,
    submit_passive (s := s) hs hp, submit_passive (s := s.withProgram p) hs hp, accept_passive,
    accept_passive]
  have hv : ((s.withProgram p).echoed (.append text)).vars = (s.echoed (.append text)).vars := rfl
  rw [hv]
  cases answer (s.echoed (.append text)).vars target text with
  | error fault => rfl
  | ok vars => exact moveTo_withProgram (by rfl) _

lemma run_withProgram (hs : s.phase = .idle)
    (hp : compileLines s.depth p = compileLines s.depth s.program) :
    (run .passive).run (s.withProgram p) = endWithProgram p ((run .passive).run s) := by
  rcases hc : compileLines s.depth s.program with ⟨compiled, none | ⟨n, d⟩⟩
  · rw [run_passive_of_ok hs hc, run_passive_of_ok (s := s.withProgram p) hs (hp.trans hc)]
    exact congrArg (EStateM.Result.ok ()) (started_withProgram s p compiled)
  · rw [run_passive_of_fault hs hc, run_passive_of_fault (s := s.withProgram p) hs (hp.trans hc)]
    rfl

lemma after_deliver_run (hs : s.phase = .idle) :
    after (deliver .passive "RUN") s = after (run .passive) (s.echoed (.line ">RUN")) := by
  have hq : ">" ++ "RUN" = ">RUN" := by decide
  obtain ⟨t, ht⟩ := exists_run_passive (s.echoed (.line ">RUN"))
  rw [after, after, deliver_passive (by simp [hs]), run_reporting, command_run, hq, ht]

lemma after_deliver_run_withProgram (hs : s.phase = .idle)
    (hp : compileLines s.depth p = compileLines s.depth s.program) :
    after (deliver .passive "RUN") (s.withProgram p) =
      (after (deliver .passive "RUN") s).withProgram p := by
  rw [after_deliver_run s hs, after_deliver_run (s.withProgram p) hs]
  exact after_withProgram (run_withProgram (s.echoed (.line ">RUN")) p hs hp)

end WithProgram

namespace Loop

variable {l m : Loop}

lemma call_cases (l : Loop) : l.call = step .passive ∨ l.call = stop .passive (some "BREAK") ∨
    (l.session.phase = .awaiting ∧ ∃ text, l.call = deliver .passive text) ∨ l.call = pure () := by
  cases hs : l.session.phase with
  | executing => exact .inl (call_executing hs)
  | awaiting =>
    cases ha : l.answers with
    | nil => exact .inr (.inl (call_unanswered hs ha))
    | cons text rest => exact .inr (.inr (.inl ⟨rfl, text, call_awaiting hs ha⟩))
  | idle | compiling => exact .inr (.inr (.inr (by rw [call, hs])))

lemma call_eq (hs : l.session.phase = m.session.phase) (ha : l.answers = m.answers) : l.call = m.call := by
  rw [call, call, hs, ha]

lemma call_unmindful (l : Loop) : Unmindful l.call l.session := by
  rcases l.call_cases with hc | hc | ⟨hs, text, hc⟩ | hc <;> rw [hc]
  · exact step_unmindful _
  · exact stop_unmindful _ _
  · exact answer_unmindful _ hs text
  · exact fun p _ => rfl

lemma call_abreast (h : Abreast l.session t) :
    Grown l.session.events.toList t.events.toList (after l.call l.session) (after l.call t) ∧
      Abreast (after l.call l.session) (after l.call t) := by
  rcases l.call_cases with hc | hc | ⟨-, text, hc⟩ | hc <;> rw [hc]
  · exact ⟨h.grown .step, h.call .step⟩
  · have hg := (tied_stop (some "BREAK") l.session t h.sound.coherent h.alike).after
    have he {v : Session} (hv : v.Sound) := (Called.stop (s := v) (some "BREAK")).echo_eq hv.coherent
    obtain ⟨u, hu, hsound, -⟩ := h.sound.stop (some "BREAK")
    refine ⟨hg, ?_, hg.1, (he h.sound).trans (h.echo.trans (he h.right).symm)⟩
    rwa [after, hu]
  · exact ⟨h.grown (.deliver text), h.call (.deliver text)⟩
  · exact ⟨h.alike.grown, h⟩

/-- Two loops at the same place, which have told the same since `told` and `told'`. -/
structure Matches (told told' : List Event) (l m : Loop) : Prop where
  told : ∃ es, l.session.events.toList = told ++ es ∧ m.session.events.toList = told' ++ es
  vars : l.session.vars = m.session.vars
  compiled : l.session.compiled = m.session.compiled
  phase : l.session.phase = m.session.phase
  answers : l.answers = m.answers

lemma next_abreast (h : Abreast l.session (m.session.withProgram p)) (ha : l.answers = m.answers) :
    Grown l.session.events.toList m.session.events.toList l.next.session (m.next.session.withProgram p) ∧
      Abreast l.next.session (m.next.session.withProgram p) ∧ l.next.answers = m.next.answers := by
  have hs : l.session.phase = m.session.phase := h.alike.phase
  have hc : l.call = m.call := call_eq hs ha
  have hl : l.next.session = after m.call l.session := congrArg (after · l.session) hc
  -- The loops are compared as if both had the program `p`, which no call of a run notices.
  obtain ⟨hg, hn⟩ := call_abreast h
  rw [hc, after_withProgram (m.call_unmindful p h.right.coherent)] at hg hn
  rw [hl]
  exact ⟨hg, hn, by simp only [next, hs, ha]⟩

lemma iterate_grown {told told' : List Event} (h : Abreast l.session (m.session.withProgram p))
    (ha : l.answers = m.answers) (hg : Grown told told' l.session (m.session.withProgram p)) (k : Nat) :
    Grown told told' (next^[k] l).session ((next^[k] m).session.withProgram p) ∧
      (next^[k] l).answers = (next^[k] m).answers := by
  induction k generalizing l m with
  | zero => exact ⟨hg, ha⟩
  | succ k ih =>
    obtain ⟨hn, hab, han⟩ := next_abreast h ha
    exact ih hab han (hg.trans hn)

end Loop

lemma start_abreast (hs : s.Sound) (ht : t.Sound) (hi : s.phase = .idle) (hj : t.phase = .idle)
    (he : s.echo = t.echo) (hx : s.depth = t.depth) (hp : Respelled s.program t.program) :
    let u := after (deliver .passive "RUN") s
    let v := (after (deliver .passive "RUN") t).withProgram s.program
    Grown s.events.toList t.events.toList u v ∧ Abreast u v := by
  intro u v
  have hc := ht.coherent
  have hd : (t.withProgram s.program).Coherent :=
    .of_idle hs.coherent.ascending hc.stopRequested hc.stepping hc.stopReport hj (hc.pending_none hj)
  have hv : v = after (deliver .passive "RUN") (t.withProgram s.program) :=
    (after_deliver_run_withProgram t s.program hj (hp.compileLines_eq t.depth)).symm
  have hg : Grown s.events.toList t.events.toList u v := by
    have hr : Agree 0 (.deliver "RUN") s (t.withProgram s.program) :=
      run_agree hs.coherent hd hi hj rfl hx 0 (.inr rfl)
    have hw : Call.shown s (.deliver "RUN") = Call.shown (t.withProgram s.program) (.deliver "RUN") := by
      simp only [Call.shown, withProgram, he, hi, hj]
    obtain ⟨ha, es, hu, hv'⟩ := hr.after
    rw [List.append_assoc] at hu hv'
    rw [hw] at hu
    rw [hv]
    exact ⟨ha, _, hu, hv'⟩
  refine ⟨hg, hs.deliver "RUN", hg.1, ?_⟩
  exact ((Called.deliver "RUN").echo_eq hs.coherent).trans
    (he.trans ((Called.deliver "RUN").echo_eq ht.coherent).symm)

/-- The case of the letters in its words makes no difference to how a line is scanned, to what a program
compiles to, and to any state of a run. -/
theorem letter_case_irrelevant :
    (∀ source source' : String, Token.Recased source.toList source'.toList →
      ∀ n, Token.scan source n = Token.scan source' n) ∧
    (∀ depth p p', Respelled p p' → compileLines depth p = compileLines depth p') ∧
    ∀ depth s t, Reachable depth s → Reachable depth t → s.phase = .idle → t.phase = .idle →
      s.echo = t.echo → Respelled s.program t.program → ∀ answers k,
        Loop.Matches s.events.toList t.events.toList
        (Loop.next^[k] (.start s answers)) (Loop.next^[k] (.start t answers)) := by
  refine ⟨fun source source' h n => Token.scan_recased h n, fun depth p p' h => h.compileLines_eq depth, ?_⟩
  intro depth s t hs ht hi hj he hp answers k
  obtain ⟨hg, ha⟩ := start_abreast hs.sound ht.sound hi hj he (hs.depth_eq.trans ht.depth_eq.symm) hp
  obtain ⟨hk, hak⟩ := Loop.iterate_grown (l := .start s answers) (m := .start t answers) ha rfl hg k
  exact ⟨hk.2, hk.1.vars, hk.1.compiled, hk.1.phase, hak⟩

/-- A program that repeats who answers it. -/
def greeter : Session := after (storeLine 30 "REM Bye") <| after (storeLine 20 "PRINT A$") <|
  after (storeLine 10 "INPUT \"Who\"; A$") {}

/-- The program of `greeter` in other letters. -/
def drowsyGreeter : Session := after (storeLine 30 "Rem Bye") <| after (storeLine 20 "print a$") <|
  after (storeLine 10 "Input \"Who\"; a$") {}

lemma greeter_reachable : Reachable 240 greeter :=
  (Reachable.fresh true).call (.store _ _) |>.call (.store _ _) |>.call (.store _ _)

lemma drowsyGreeter_reachable : Reachable 240 drowsyGreeter :=
  (Reachable.fresh true).call (.store _ _) |>.call (.store _ _) |>.call (.store _ _)

open Token in
lemma greeter_respelled : Respelled greeter.program drowsyGreeter.program := by
  have hg : greeter.program = [(10, "INPUT \"Who\"; A$"), (20, "PRINT A$"), (30, "REM Bye")] := by
    decide +kernel
  have hd : drowsyGreeter.program = [(10, "Input \"Who\"; a$"), (20, "print a$"), (30, "Rem Bye")] := by
    decide +kernel
  have word (w w' : List Char) {c : Char} {cs cs' : List Char} (hl : ∃ c ∈ w.head?, isLetter c = true)
      (hw : w.all isWordPart = true) (hu : w.map Char.toUpper = w'.map Char.toUpper)
      (hr : w.map Char.toUpper ≠ ['R', 'E', 'M']) (hc : isWordPart c = false)
      (h : Recased (c :: cs) (c :: cs')) : Recased (w ++ c :: cs) (w' ++ c :: cs') := by
    refine .word ⟨hl, List.all_eq_true.mp hw⟩ hu ?_ (.inl hr) h
    rintro d ⟨⟩
    exact hc
  have name : Recased ['A', '$'] ['a', '$'] :=
    word ['A'] ['a'] ⟨'A', rfl, rfl⟩ rfl rfl (by decide) rfl (.other rfl (by decide) .nil)
  have text : Recased "\"Who\"; A$".toList "\"Who\"; a$".toList :=
    .text (by decide : '"' ∉ "Who".toList) (.other rfl (by decide) (.other rfl (by decide) name))
  rw [hg, hd]
  refine .cons ⟨rfl, ?_⟩ (.cons ⟨rfl, ?_⟩ (.cons ⟨rfl, ?_⟩ .nil))
  · exact word ['I', 'N', 'P', 'U', 'T'] ['I', 'n', 'p', 'u', 't'] ⟨'I', rfl, rfl⟩ rfl rfl (by decide) rfl
      (.other rfl (by decide) text)
  · exact word ['P', 'R', 'I', 'N', 'T'] ['p', 'r', 'i', 'n', 't'] ⟨'P', rfl, rfl⟩ rfl rfl (by decide) rfl
      (.other rfl (by decide) name)
  · show Recased ("REM".toList ++ " Bye".toList) ("Rem".toList ++ " Bye".toList)
    refine .remark rfl rfl ?_
    rintro d ⟨⟩
    exact ⟨rfl, by decide⟩

theorem greeters_run_alike : greeter.program ≠ drowsyGreeter.program ∧
    Respelled greeter.program drowsyGreeter.program ∧
    Loop.Matches greeter.events.toList drowsyGreeter.events.toList
      (Loop.next^[4] (.start greeter ["you"])) (Loop.next^[4] (.start drowsyGreeter ["you"])) ∧
    (Loop.next^[4] (.start drowsyGreeter ["you"])).session.events.toList =
      [.line ">RUN", .line "Who ", .request "Who ", .append "you", .line "you", ready] := by
  refine ⟨by decide +kernel, greeter_respelled, ?_, by decide +kernel⟩
  exact letter_case_irrelevant.2.2 240 greeter drowsyGreeter greeter_reachable drowsyGreeter_reachable
    (by decide +kernel) (by decide +kernel) (by decide +kernel) greeter_respelled ["you"] 4

end LineBasic.Session
