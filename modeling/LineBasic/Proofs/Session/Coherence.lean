import LineBasic.Proofs.Session.Lines
import LineBasic.Proofs.Session.Passive

/-! What holds of a session between any two calls, in whatever order they come and whether or not
they meet a fault. Of line numbers with more than `Fault.digitLimit` digits, which only `storeLine` takes,
this says where they are kept, and not that they could be listed or reported. -/

namespace LineBasic.Session

def after {α : Type} (act : Act α) (s : Session) : Session :=
  match act.run s with
  | .ok _ s => s
  | .error _ s => s

/-- What one call leaves of a session whose host only listens. Stepping without a limit leaves
something only if some number of steps ends the run, makes it wait or meets a fault. -/
inductive Called (s : Session) : Session → Prop
  | deliver (text : String) : Called s (after (deliver .passive text) s)
  | submit (text : String) : Called s (after (submit .passive text) s)
  | command (code : String) : Called s (after (command .passive code) s)
  | store (number : Int) (code : String) : Called s (after (storeLine number code) s)
  | load (source : String) : Called s (after (load source) s)
  | list : Called s s
  | new : Called s (after new s)
  | run : Called s (after (run .passive) s)
  | step : Called s (after (step .passive) s)
  | advance (limit : Int) : Called s (after (advance .passive limit.toNat) s)
  | exhaust (n : Nat) (h : ∀ k t, (Session.advance .passive n).run s = .ok k t → t.phase ≠ .executing) :
      Called s (after (Session.advance .passive n) s)
  | stop (message : Option String) : Called s (after (stop .passive message) s)

inductive Reachable (depth : Nat) : Session → Prop
  | fresh (echo : Bool) : Reachable depth { echo, depth }
  | call {s t : Session} (h : Reachable depth s) (hc : Called s t) : Reachable depth t

def Loaded (s : Session) : Prop :=
  compileLines s.depth s.program = (s.compiled, none) ∧ s.order = (Numbered.numbers s.compiled).toArray

def Parked (s : Session) : Prop :=
  ∃ n prompt target, s.order[s.pc]? = some n ∧
    Numbered.find? n s.compiled = some (.input prompt target) ∧ s.pending = some ⟨target, n, s.pc + 1⟩

def Placed (s : Session) : Prop :=
  match s.phase with
  | .idle => s.pending = none
  | .compiling => False
  | .executing => s.Loaded ∧ s.pending = none ∧ s.pc < s.order.size
  | .awaiting => s.Loaded ∧ s.Parked

structure Coherent (s : Session) : Prop where
  ascending : s.program.Ascending
  stopRequested : s.stopRequested = false
  stepping : s.stepping = false
  stopReport : s.stopReport = none
  placed : s.Placed

variable {depth : Nat} {s : Session}

lemma Coherent.of_idle (h : s.program.Ascending) (hq : s.stopRequested = false) (hs : s.stepping = false)
    (hr : s.stopReport = none) (hp : s.phase = .idle) (hn : s.pending = none) : s.Coherent := by
  refine ⟨h, hq, hs, hr, ?_⟩
  simp only [Placed, hp]
  exact hn

lemma Coherent.pending_none (h : s.Coherent) (hs : s.phase = .idle) : s.pending = none := by
  have hp := h.placed
  simpa only [Placed, hs] using hp

lemma Coherent.executing (h : s.Coherent) (hs : s.phase = .executing) :
    s.Loaded ∧ s.pending = none ∧ s.pc < s.order.size := by
  have hp := h.placed
  simpa only [Placed, hs] using hp

lemma Coherent.awaiting (h : s.Coherent) (hs : s.phase = .awaiting) : s.Loaded ∧ s.Parked := by
  have hp := h.placed
  simpa only [Placed, hs] using hp

lemma Coherent.idle_of_not_running (h : s.Coherent) (hs : s.running = false) : s.phase = .idle := by
  have hp := h.placed
  cases hph : s.phase with
  | idle => rfl
  | compiling => simp [Placed, hph] at hp
  | executing => simp [running, hph] at hs
  | awaiting => simp [running, hph] at hs

lemma Coherent.record (h : s.Coherent) (e : Event) : (s.record e).Coherent := { h with }

lemma finished_coherent (h : s.program.Ascending) (hs : s.stepping = false) : s.finished.Coherent :=
  .of_idle h rfl hs rfl rfl rfl


lemma halted_coherent (h : s.program.Ascending) {n : Int} {d : Diagnostic} : (s.halted n d).Coherent :=
  finished_coherent h rfl

lemma moveTo_coherent (h : s.program.Ascending) (hq : s.stopRequested = false) (hs : s.stepping = false)
    (hr : s.stopReport = none) (he : s.phase = .executing) (hl : s.Loaded) (hn : s.pending = none)
    {pc : Nat} : (s.moveTo pc).Coherent := by
  rw [moveTo]
  split
  · exact finished_coherent h hs
  · rename_i hp
    refine ⟨h, hq, hs, hr, ?_⟩
    simp only [Placed, he]
    exact ⟨hl, hn, Nat.lt_of_not_le hp⟩

lemma Coherent.exists_statement (h : s.Coherent) (hs : s.phase = .executing) :
    ∃ n stmt, s.order[s.pc]? = some n ∧ Numbered.find? n s.compiled = some stmt := by
  obtain ⟨hl, -, hp⟩ := h.executing hs
  have hn := Array.getElem?_eq_getElem hp
  obtain ⟨stmt, hf⟩ :=
    Numbered.exists_find? (compileLines_ascending h.ascending hl.1) (mem_numbers_of_order hl.2 hn)
  exact ⟨_, stmt, hn, hf⟩

lemma after_bind {α β : Type} {act : Act α} {next : α → Act β} {P : Session → Prop}
    (ha : P (after act s)) (hn : ∀ a t, P t → P (after (next a) t)) : P (after (act >>= next) s) := by
  simp only [after, EStateM.run_bind] at ha ⊢
  cases hr : act.run s with
  | ok a t =>
    rw [hr] at ha
    exact hn a t ha
  | error fault t =>
    rw [hr] at ha
    exact ha

lemma after_reporting {α : Type} {act : Act α} {report : Diagnostic → Act α} {P : Session → Prop}
    (ha : P (after act s)) (hr : ∀ d t, P t → P (after (report d) t)) :
    P (after (reporting act report) s) := by
  simp only [after, run_reporting] at ha ⊢
  cases hx : act.run s with
  | ok a t =>
    rw [hx] at ha
    exact ha
  | error fault t =>
    rw [hx] at ha
    cases fault with
    | told d => exact hr d t ha
    | _ => exact ha

def Keeps {α : Type} (act : Act α) : Prop := ∀ s, s.Coherent → (after act s).Coherent

section Keeps

variable {α β : Type}

lemma Keeps.of_run {act : Act α} (h : ∀ s, s.Coherent → ∃ a t, act.run s = .ok a t ∧ t.Coherent) :
    Keeps act := by
  intro s hs
  obtain ⟨a, t, hr, ht⟩ := h s hs
  simpa only [after, hr] using ht

lemma keeps_pure (a : α) : Keeps (pure a : Act α) := fun _ hs => hs

lemma keeps_get : Keeps (get : Act Session) := fun _ hs => hs

lemma keeps_fail (cause : Cause) : Keeps (fail cause : Act α) := fun _ hs => hs

lemma keeps_ofExcept (x : Except Fault α) : Keeps (ofExcept x) := by
  intro s hs
  cases x with
  | ok a => exact hs
  | error fault => exact hs

lemma keeps_emit (e : Event) : Keeps (emit .passive e) := fun _ hs => hs.record e

lemma Keeps.bind {act : Act α} {next : α → Act β} (ha : Keeps act) (hn : ∀ a, Keeps (next a)) :
    Keeps (act >>= next) := fun s hs => after_bind (ha s hs) hn

lemma Keeps.reporting {act : Act α} {report : Diagnostic → Act α} (ha : Keeps act)
    (hr : ∀ d, Keeps (report d)) : Keeps (reporting act report) := fun s hs => after_reporting (ha s hs) hr

end Keeps

lemma started_coherent {compiled : Numbered Stmt} (h : s.Coherent)
    (hc : compileLines s.depth s.program = (compiled, none)) : (s.started compiled).Coherent := by
  cases compiled with
  | nil => exact finished_coherent h.ascending h.stepping
  | cons => exact ⟨h.ascending, rfl, h.stepping, rfl, ⟨hc, rfl⟩, rfl, Nat.zero_lt_succ _⟩

lemma keeps_run : Keeps (run .passive) := by
  refine .of_run fun s h => ?_
  by_cases hs : s.phase = .idle
  · rcases hc : compileLines s.depth s.program with ⟨compiled, none | ⟨n, d⟩⟩
    · exact ⟨(), _, run_passive_of_ok hs hc, started_coherent h hc⟩
    · exact ⟨(), _, run_passive_of_fault hs hc,
        .of_idle h.ascending h.stopRequested h.stepping h.stopReport hs (h.pending_none hs)⟩
  · exact ⟨(), s, run_passive_of_busy hs, h⟩

lemma step_passive_of_rest (hs : s.phase ≠ .executing) : (step .passive).run s = .ok () s := by
  simp [step, hs]

lemma keeps_step : Keeps (step .passive) := by
  intro s h
  by_cases hs : s.phase = .executing
  · obtain ⟨hl, hn, hp⟩ := h.executing hs
    obtain ⟨n, stmt, hi, hf⟩ := h.exists_statement hs
    simp only [after, step_passive hs h.stopRequested hi hf, settle]
    rcases he : effect s.vars stmt with fault | ⟨vars, told⟩ | target | ⟨prompt, target⟩
    · cases fault with
      | told d => exact halted_coherent h.ascending
      | _ => exact { h with stepping := rfl }
    · exact moveTo_coherent (s := { s.tell told with vars, stepping := false }) h.ascending
        h.stopRequested rfl h.stopReport hs hl hn
    · cases hr : resolve? s.order target with
      | none =>
        simp only [hr]
        exact halted_coherent h.ascending
      | some i =>
        simp only [hr]
        exact moveTo_coherent (s := { s with stepping := false }) h.ascending h.stopRequested rfl
          h.stopReport hs hl hn
    · obtain ⟨source, rfl, -⟩ := effect_ask he
      exact ⟨h.ascending, h.stopRequested, rfl, h.stopReport, hl, n, source, target, hi, hf, rfl⟩
  · simpa only [after, step_passive_of_rest hs] using h

lemma keeps_advanceFrom (done limit : Nat) : Keeps (advanceFrom .passive done limit) := by
  induction limit generalizing done with
  | zero => exact keeps_pure done
  | succ limit ih =>
    refine keeps_get.bind fun t => ?_
    split
    · exact keeps_step.bind fun _ => ih (done + 1)
    · exact keeps_pure done

lemma keeps_stop (message : Option String) : Keeps (stop .passive message) := by
  refine .of_run fun s h => ?_
  cases hs : s.running with
  | false => exact ⟨(), s, stop_of_rest hs message, h⟩
  | true =>
    exact ⟨(), _, stop_passive_of_running hs h.stepping message, finished_coherent h.ascending h.stepping⟩

lemma Coherent.echoed (h : s.Coherent) (e : Event) : (s.echoed e).Coherent := { h with }

lemma keeps_submit (text : String) : Keeps (submit .passive text) := by
  intro s h
  by_cases hs : s.phase = .awaiting
  · obtain ⟨hl, n, prompt, target, -, -, hp⟩ := h.awaiting hs
    simp only [after, submit_passive hs hp, accept_passive]
    cases answer (s.echoed (.append text)).vars target text with
    | error fault => exact h.echoed _
    | ok vars =>
      exact moveTo_coherent
        (s := { s.echoed (.append text) with vars, pending := none, phase := .executing })
        h.ascending h.stopRequested h.stepping h.stopReport rfl hl rfl
  · simpa [after, submit, hs] using h

lemma keeps_storeLine (number : Int) (code : String) : Keeps (storeLine number code) := by
  intro s h
  simp only [after, storeLine_run]
  split_ifs with hs hn
  · exact h
  · exact h
  · have hi := h.idle_of_not_running (by simpa using hs)
    exact .of_idle (Program.store_ascending h.ascending _ _) h.stopRequested h.stepping h.stopReport hi
      (h.pending_none hi)

lemma keeps_new : Keeps new := by
  intro s h
  simp only [after, new_run]
  split_ifs with hs
  · exact h
  · have hi := h.idle_of_not_running (by simpa using hs)
    exact .of_idle List.Pairwise.nil h.stopRequested h.stepping h.stopReport hi (h.pending_none hi)

lemma keeps_loadLine (text : String) : Keeps (loadLine text) := by
  rw [loadLine]
  split
  · exact keeps_fail _
  · split
    · exact (keeps_fail _).bind fun _ => (keeps_ofExcept _).bind fun number => keeps_storeLine number _
    · exact (keeps_ofExcept _).bind fun number => keeps_storeLine number _

lemma keeps_loadLines (count : Nat) (texts : List String) : Keeps (loadLines count texts) := by
  induction texts generalizing count with
  | nil => exact keeps_pure count
  | cons text texts ih => exact (keeps_loadLine text).bind fun _ => ih (count + 1)

lemma keeps_emitLines (texts : List String) : Keeps (emitLines .passive texts) := by
  induction texts with
  | nil => exact keeps_pure ()
  | cons text texts ih => exact (keeps_emit _).bind fun _ => ih

lemma keeps_command (code : String) : Keeps (command .passive code) := by
  rw [command]
  split
  · exact (keeps_ofExcept _).bind fun number => keeps_storeLine number _
  · split
    · exact keeps_run
    · exact keeps_get.bind fun t => (keeps_emitLines _).bind fun _ => keeps_emit _
    · exact (keeps_emit _).bind fun _ => keeps_emit _
    · exact keeps_new.bind fun _ => keeps_emit _
    · exact keeps_fail _

lemma keeps_reportCommand (d : Diagnostic) : Keeps (reportCommand .passive d) := by
  refine (keeps_emit _).bind fun _ => keeps_get.bind fun t => ?_
  split
  · exact keeps_emit _
  · exact keeps_pure ()

lemma keeps_deliver (text : String) : Keeps (deliver .passive text) := by
  refine keeps_get.bind fun t => ?_
  split
  · exact keeps_submit text
  · have hc := (keeps_command (Text.trim text)).reporting keeps_reportCommand
    split
    · exact (keeps_emit _).bind fun _ => hc
    · exact hc

lemma Called.coherent {t : Session} (hc : Called s t) (h : s.Coherent) : t.Coherent := by
  cases hc with
  | deliver text => exact keeps_deliver text s h
  | submit text => exact keeps_submit text s h
  | command code => exact keeps_command code s h
  | store number code => exact keeps_storeLine number code s h
  | load source => exact keeps_loadLines 0 _ s h
  | list => exact h
  | new => exact keeps_new s h
  | run => exact keeps_run s h
  | step => exact keeps_step s h
  | advance limit => exact keeps_advanceFrom 0 _ s h
  | exhaust n => exact keeps_advanceFrom 0 n s h
  | stop message => exact keeps_stop message s h

lemma Reachable.coherent (h : Reachable depth s) : s.Coherent := by
  induction h with
  | fresh echo => exact .of_idle List.Pairwise.nil rfl rfl rfl rfl rfl
  | call _ hc ih => exact hc.coherent ih

/-- What callers may rely on between any two calls. -/
structure Consistent (s : Session) : Prop where
  settled : s.phase = .idle ∨ s.phase = .executing ∨ s.phase = .awaiting
  pending_iff : s.pending.isSome ↔ s.phase = .awaiting
  nonempty : s.running → s.order ≠ #[]
  ascending : s.running → s.order.toList.Pairwise (· < ·)
  stored : s.running → s.order.toList = Numbered.numbers s.program
  compiled : s.running → s.order.toList = Numbered.numbers s.compiled
  parsed : s.running → ∀ n stmt, Numbered.find? n s.compiled = some stmt →
    ∃ code ts, Numbered.find? n s.program = some code ∧ Token.scan code n = .ok ts ∧
      Parse.parse ts = .ok stmt
  executing : s.phase = .executing → s.pc < s.order.size
  awaiting : s.phase = .awaiting → ∃ n prompt target, s.order[s.pc]? = some n ∧
    Numbered.find? n s.compiled = some (.input prompt target) ∧ s.pending = some ⟨target, n, s.pc + 1⟩
  current : s.running → ∃ n code, s.currentLine = some n ∧ Numbered.find? n s.program = some code

lemma Coherent.loaded (h : s.Coherent) (hs : s.running = true) : s.Loaded := by
  rcases (by simpa [running] using hs : s.phase = .executing ∨ s.phase = .awaiting) with hp | hp
  · exact (h.executing hp).1
  · exact (h.awaiting hp).1

lemma Coherent.currentLine (h : s.Coherent) (hs : s.running = true) :
    ∃ n, s.currentLine = some n ∧ s.order[s.pc]? = some n := by
  rcases (by simpa [running] using hs : s.phase = .executing ∨ s.phase = .awaiting) with hp | hp
  · obtain ⟨n, -, hn, -⟩ := h.exists_statement hp
    exact ⟨n, by simpa [Session.currentLine, hp] using hn, hn⟩
  · obtain ⟨-, n, prompt, target, hn, -, hq⟩ := h.awaiting hp
    exact ⟨n, by simp [Session.currentLine, hp, hq], hn⟩

lemma Loaded.order_toList (h : s.Loaded) : s.order.toList = Numbered.numbers s.program := by
  rw [h.2, List.toList_toArray, compileLines_numbers h.1]

lemma Coherent.pending_iff (h : s.Coherent) : s.pending.isSome ↔ s.phase = .awaiting := by
  have hp := h.placed
  cases hs : s.phase with
  | idle => simp [h.pending_none hs]
  | compiling => simp [Placed, hs] at hp
  | executing => simp [(h.executing hs).2.1]
  | awaiting =>
    obtain ⟨-, n, prompt, target, -, -, hq⟩ := h.awaiting hs
    simp [hq]

theorem reachable_consistent (h : Reachable depth s) : s.Consistent := by
  have hc := h.coherent
  have hl (hs : s.running = true) := (hc.loaded hs).order_toList
  refine ⟨?_, hc.pending_iff, ?_, ?_, hl, ?_, ?_, fun hs => (hc.executing hs).2.2,
    fun hs => (hc.awaiting hs).2, ?_⟩
  · have hp := hc.placed
    cases hs : s.phase <;> simp [Placed, hs] at hp ⊢
  · intro hs he
    obtain ⟨n, -, hn⟩ := hc.currentLine hs
    simp [he] at hn
  · intro hs
    rw [hl hs]
    exact hc.ascending
  · intro hs
    rw [hl hs, compileLines_numbers (hc.loaded hs).1]
  · intro hs n stmt hf
    obtain ⟨code, hf', hk⟩ := compileLines_find? hc.ascending (hc.loaded hs).1 hf
    obtain ⟨ts, ht, hp⟩ := Parse.compileLine_ok hk
    exact ⟨code, ts, hf', ht, hp⟩
  · intro hs
    obtain ⟨n, hn, ho⟩ := hc.currentLine hs
    have hm : n ∈ Numbered.numbers s.program := by
      rw [← hl hs]
      exact List.mem_of_getElem? (Array.getElem?_toList ▸ ho)
    obtain ⟨code, hf⟩ := Numbered.exists_find? hc.ascending hm
    exact ⟨n, code, hn, hf⟩

def parrot : Session := after (storeLine 20 "PRINT A$") (after (storeLine 10 "INPUT A$") {})

lemma parrot_reachable : Reachable 240 parrot :=
  ((Reachable.fresh true).call (.store 10 "INPUT A$")).call (.store 20 "PRINT A$")

lemma ofAnswer_hi : ∃ x, Value.ofAnswer "hi" = .ok x := by
  have hl : Number.leading? "hi".toList = none := by decide +kernel
  exact ⟨0.0, by simp only [Value.ofAnswer, hl]⟩

theorem parrot_asks_consistent : (after (step .passive) (after (run .passive) parrot)).phase = .awaiting ∧
    (after (step .passive) (after (run .passive) parrot)).Consistent :=
  ⟨by decide +kernel, reachable_consistent ((parrot_reachable.call .run).call .step)⟩

end LineBasic.Session
