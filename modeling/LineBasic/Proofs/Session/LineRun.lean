import LineBasic.Proofs.Session.Coherence

/-! Running a program by its line numbers alone: a line is left for the least line past it or for
the line that it jumps to, with no places, phases or bookkeeping in between. A session tells the
same events and keeps the same variables, however long it runs. -/

namespace LineBasic

/-- A run is at a line, at the question that a line asks for a variable, or over. -/
inductive Place
  | line (n : Int)
  | question (n : Int) (name : String)
  | ended

structure LineRun where
  place : Place
  vars : Variables
  told : List Event

namespace LineRun

variable (code : Numbered Stmt)

def next? (n : Int) : Option Int := (code.numbers.filter (n < ·)).min?

def enter (r : LineRun) : Option Int → LineRun
  | some n => { r with place := .line n }
  | none => { r with place := .ended, told := r.told ++ [.line "Ready"] }

def fault (r : LineRun) (n : Int) (message : String) : LineRun :=
  { r with
    place := .ended
    told := r.told ++ [.line ("?" ++ message ++ " IN " ++ toString n), .line "Ready"] }

def start : LineRun := enter ⟨.ended, {}, []⟩ code.numbers.min?

def shown? (vars : Variables) (e : Expr) : Option String :=
  (e.eval vars).toOption.bind fun v => v.printed.toOption

def prompt? (vars : Variables) : Option Expr → Option String
  | none => some "? "
  | some e => (shown? vars e).map (· ++ " ")

def assigned? (vars : Variables) (name : String) (e : Expr) : Option Variables :=
  (e.eval vars).toOption.bind fun v => (vars.set name v).toOption

/-- Executes the statement of line `n`. What no line of text compiles to is left alone. -/
def execute (r : LineRun) (n : Int) : Stmt → LineRun
  | .print e =>
    match shown? r.vars e with
    | some text => enter { r with told := r.told ++ [.line text] } (next? code n)
    | none => r.fault n "TYPE MISMATCH"
  | .assign (.var name) e =>
    match assigned? r.vars name e with
    | some vars => enter { r with vars } (next? code n)
    | none => r.fault n "TYPE MISMATCH"
  | .rem _ => r.enter (next? code n)
  | .cls => enter { r with told := r.told ++ [.clear] } (next? code n)
  | .goto m =>
    if m ∈ code.numbers then { r with place := .line m } else r.fault n "UNDEFINED LINE NUMBER"
  | .input prompt (.var name) =>
    match prompt? r.vars prompt with
    | some text => { r with place := .question n name, told := r.told ++ [.line text, .request text] }
    | none => r.fault n "TYPE MISMATCH"
  | .assign .. | .input .. | .foreign _ => r

def step (r : LineRun) (n : Int) : LineRun :=
  match code.find? n with
  | some stmt => r.execute code n stmt
  | none => r

def value? (name text : String) : Option Value :=
  if isTextName name then some (.text text) else (Value.ofAnswer text).toOption.map .number

def answer (echo : Bool) (r : LineRun) (n : Int) (name text : String) : LineRun :=
  match (value? name text).bind fun v => (r.vars.set name v).toOption with
  | some vars =>
    enter { r with vars, told := r.told ++ if echo then [.append text] else [] } (next? code n)
  | none => r

def run (echo : Bool) : Nat → List String → LineRun → LineRun
  | 0, _, r => r
  | k + 1, answers, r =>
    match r.place, answers with
    | .line n, answers => run echo k answers (r.step code n)
    | .question n name, text :: rest => run echo k rest (r.answer code echo n name text)
    | .question .., [] | .ended, _ => r

end LineRun

namespace Session

/-- Steps a run that goes on and answers one that waits, `k` times as far as there are answers. -/
def drive (host : Host) : Nat → List String → Act Unit
  | 0, _ => return
  | k + 1, answers => do
    match (← get).phase, answers with
    | .executing, answers =>
      step host
      drive host k answers
    | .awaiting, text :: rest =>
      deliver host text
      drive host k rest
    | _, _ => return

def Stands (s : Session) : Place → Prop
  | .line n => s.phase = .executing ∧ s.order[s.pc]? = some n
  | .question n name => s.phase = .awaiting ∧ s.order[s.pc]? = some n ∧
      s.pending = some ⟨.var name, n, s.pc + 1⟩
  | .ended => s.phase = .idle

/-- A session of the compiled lines that agrees with a run by line numbers on its variables and on
what was told since `told`. -/
structure Mirrors (code : Numbered Stmt) (echo : Bool) (told : List Event) (s : Session)
    (r : LineRun) : Prop where
  compiled : s.compiled = code
  order : s.order = (Numbered.numbers code).toArray
  stopRequested : s.stopRequested = false
  stopReport : s.stopReport = none
  echo : s.echo = echo
  vars : s.vars = r.vars
  plain : r.vars.Plain
  events : s.events.toList = told ++ r.told

def Follows (code : Numbered Stmt) (echo : Bool) (told : List Event) (s : Session) (r : LineRun) : Prop :=
  Mirrors code echo told s r ∧ s.Stands r.place

variable {code : Numbered Stmt} {echo : Bool} {told : List Event} {s : Session} {r : LineRun}

lemma finished_follows (h : Mirrors code echo told s r) :
    Follows code echo told s.finished (r.enter none) := by
  refine ⟨{ h with stopRequested := rfl, stopReport := rfl, events := ?_ }, rfl⟩
  simp [finished, h.stopReport, h.events, LineRun.enter, ready]

lemma moveTo_follows (h : Mirrors code echo told s r) (hs : s.phase = .executing) (pc : Nat) :
    Follows code echo told (s.moveTo pc) (r.enter s.order[pc]?) := by
  rw [moveTo]
  split
  · rename_i hp
    rw [Array.getElem?_eq_none hp]
    exact finished_follows { h with }
  · rename_i hp
    rw [Array.getElem?_eq_getElem (Nat.lt_of_not_le hp)]
    exact ⟨{ h with }, hs, Array.getElem?_eq_getElem _⟩

lemma halted_follows (h : Mirrors code echo told s r) {n : Int} {d : Diagnostic} {message : String}
    (hd : d.message = message) : Follows code echo told (s.halted n d) (r.fault n message) := by
  subst hd
  refine ⟨{ h with stopRequested := rfl, stopReport := rfl, events := ?_ }, rfl⟩
  simp [halted, finished, record, h.stopReport, h.events, LineRun.fault, ready, Diagnostic.report]

lemma message_typeMismatch : (Diagnostic.of .typeMismatch none).message = "TYPE MISMATCH" := by
  decide +kernel

lemma message_undefinedLine : (Diagnostic.of .undefinedLine none).message = "UNDEFINED LINE NUMBER" := by
  decide +kernel

lemma Mirrors.order_pairwise (h : Mirrors code echo told s r) (hc : code.Ascending) :
    s.order.toList.Pairwise (· < ·) := by
  rw [h.order, List.toList_toArray]
  exact hc

lemma Mirrors.next? (h : Mirrors code echo told s r) (hc : code.Ascending) {i : Nat} {n : Int}
    (hn : s.order[i]? = some n) : s.order[i + 1]? = LineRun.next? code n := by
  rw [h.order, List.getElem?_toArray] at hn ⊢
  exact (min?_filter_lt hc hn).symm

lemma proceed_follows (h : Mirrors code echo told s r) (hc : code.Ascending) (hs : s.phase = .executing)
    {n : Int} (hn : s.order[s.pc]? = some n) {vars : Variables} (hv : vars.Plain) (es : List Event) :
    Follows code echo told (moveTo { s.tell es with vars, stepping := false } (s.pc + 1))
      (LineRun.enter { r with vars, told := r.told ++ es } (LineRun.next? code n)) := by
  have hm : Mirrors code echo told { s.tell es with vars, stepping := false }
      { r with vars, told := r.told ++ es } := by
    refine { h with vars := rfl, plain := hv, events := ?_ }
    simp [tell, h.events]
  rw [← h.next? hc hn]
  exact moveTo_follows hm hs (s.pc + 1)

lemma shown?_cases {vars : Variables} {e : Expr} (he : e.Plain) (hv : vars.Plain) :
    (∃ v text, e.eval vars = .ok v ∧ v.printed = .ok text ∧ LineRun.shown? vars e = some text) ∨
      (e.eval vars = .error (.because .typeMismatch) ∧ LineRun.shown? vars e = none) := by
  rcases he.eval hv with ⟨v, hp, hev⟩ | hev
  · obtain ⟨text, ht⟩ := hp.printed
    exact .inl ⟨v, text, hev, ht, by simp [LineRun.shown?, hev, ht, Except.toOption]⟩
  · exact .inr ⟨hev, by simp [LineRun.shown?, hev, Except.toOption]⟩

inductive Matches (code : Numbered Stmt) (r : LineRun) (n : Int) : Except Fault Effect → LineRun → Prop
  | proceed {vars : Variables} {es : List Event} (hv : vars.Plain) :
      Matches code r n (.ok (.proceed vars es))
        (LineRun.enter { r with vars, told := r.told ++ es } (LineRun.next? code n))
  | jump {m : Int} : Matches code r n (.ok (.jump m))
      (if m ∈ code.numbers then { r with place := .line m } else r.fault n "UNDEFINED LINE NUMBER")
  | ask {text name : String} : Matches code r n (.ok (.ask text (.var name)))
      { r with place := .question n name, told := r.told ++ [.line text, .request text] }
  | mismatch : Matches code r n (.error (.because .typeMismatch)) (r.fault n "TYPE MISMATCH")

lemma matches_execute {n : Int} {stmt : Stmt} (hv : r.vars.Plain) (hp : stmt.Plain) :
    Matches code r n (effect r.vars stmt) (r.execute code n stmt) := by
  cases stmt with
  | print e =>
    rcases shown?_cases hp hv with ⟨v, text, hev, ht, hs⟩ | ⟨hev, hs⟩
    · simp only [effect, hev, ok_bind, ht, LineRun.execute, hs]
      exact .proceed hv
    · simp only [effect, hev, LineRun.execute, hs]
      exact .mismatch
  | goto m => exact .jump
  | assign target e =>
    obtain ⟨⟨name, rfl⟩, he⟩ := hp
    rcases he.eval hv with ⟨v, hpv, hev⟩ | hev
    · obtain ⟨vars, hset, hvars⟩ := hv.set name hpv
      have hx : LineRun.execute code r n (.assign (.var name) e) =
          LineRun.enter { r with vars, told := r.told ++ [] } (LineRun.next? code n) := by
        simp [LineRun.execute, LineRun.assigned?, hev, hset, Except.toOption]
      rw [hx]
      simp only [effect, nameOf, Expr.name?, hev, hset, ok_bind]
      exact .proceed hvars
    · simp only [effect, nameOf, Expr.name?, hev, ok_bind, LineRun.execute, LineRun.assigned?,
        Except.toOption]
      exact .mismatch
  | rem comment =>
    have hx : Matches code r n (.ok (.proceed r.vars []))
        (LineRun.enter { r with told := r.told ++ [] } (LineRun.next? code n)) := .proceed hv
    rwa [List.append_nil] at hx
  | cls => exact .proceed hv
  | input prompt target =>
    obtain ⟨⟨name, rfl⟩, he⟩ := hp
    cases prompt with
    | none => exact .ask
    | some e =>
      rcases shown?_cases (he e rfl) hv with ⟨v, text, hev, ht, hs⟩ | ⟨hev, hs⟩
      · simp only [effect, promptOf, hev, ok_bind, ht, LineRun.execute, LineRun.prompt?, hs]
        exact .ask
      · simp only [effect, promptOf, hev, LineRun.execute, LineRun.prompt?, hs]
        exact .mismatch
  | foreign shape => cases hp

lemma jump_follows (h : Mirrors code echo told s r) (hc : code.Ascending) (hs : s.phase = .executing)
    (n m : Int) : ∃ t, s.settle n (.ok (.jump m)) = .ok () t ∧ Follows code echo told t
      (if m ∈ code.numbers then { r with place := .line m } else r.fault n "UNDEFINED LINE NUMBER") := by
  have hres {i : Nat} : resolve? s.order m = some i ↔ s.order[i]? = some m :=
    resolve?_eq_some_iff (h.order_pairwise hc)
  cases hr : resolve? s.order m with
  | some i =>
    have hi := hres.mp hr
    have hm : Mirrors code echo told { s with stepping := false } r := { h with }
    have hf := moveTo_follows hm hs i
    simp only [hi, LineRun.enter] at hf
    simp only [settle, hr, if_pos (mem_numbers_of_order h.order hi)]
    exact ⟨_, rfl, hf⟩
  | none =>
    have hm : m ∉ code.numbers := by
      intro hm
      obtain ⟨i, hi⟩ := List.getElem?_of_mem hm
      have hi' := hres.mpr (by rw [h.order, List.getElem?_toArray, hi])
      simp [hr] at hi'
    simp only [settle, hr, if_neg hm]
    exact ⟨_, rfl, halted_follows h message_undefinedLine⟩

lemma settle_follows (h : Mirrors code echo told s r) (hc : code.Ascending) (hs : s.phase = .executing)
    {n : Int} (hn : s.order[s.pc]? = some n) {x : Except Fault Effect} {r' : LineRun}
    (hx : Matches code r n x r') : ∃ t, s.settle n x = .ok () t ∧ Follows code echo told t r' := by
  cases hx with
  | proceed hv => exact ⟨_, rfl, proceed_follows h hc hs hn hv _⟩
  | jump => exact jump_follows h hc hs n _
  | ask =>
    refine ⟨_, rfl, { h with events := ?_ }, rfl, hn, rfl⟩
    simp [asked, h.events]
  | mismatch => exact ⟨_, rfl, halted_follows h message_typeMismatch⟩

lemma step_follows (h : Follows code echo told s r) (hc : code.Ascending)
    (hp : ∀ n stmt, code.find? n = some stmt → stmt.Plain) {n : Int} (hr : r.place = .line n) :
    ∃ t, (step .passive).run s = .ok () t ∧ Follows code echo told t (r.step code n) := by
  obtain ⟨hm, hst⟩ := h
  rw [hr] at hst
  obtain ⟨hs, hn⟩ := hst
  obtain ⟨stmt, hf⟩ := Numbered.exists_find? hc (mem_numbers_of_order hm.order hn)
  rw [step_passive hs hm.stopRequested hn (hm.compiled ▸ hf), hm.vars]
  simp only [LineRun.step, hf]
  exact settle_follows hm hc hs hn (matches_execute hm.plain (hp n stmt hf))

lemma Mirrors.echoed (h : Mirrors code echo told s r) (e : Event) :
    Mirrors code echo told (s.echoed e) { r with told := r.told ++ if echo then [e] else [] } := by
  refine { h with events := ?_ }
  cases he : echo <;> simp [Session.echoed, h.echo, he, h.events]

lemma answer_follows (h : Follows code echo told s r) (hc : code.Ascending) {n : Int} {name text : String}
    (hr : r.place = .question n name) (ht : ∃ x, Value.ofAnswer text = .ok x) :
    ∃ t, (deliver .passive text).run s = .ok () t ∧
      Follows code echo told t (r.answer code echo n name text) := by
  obtain ⟨hm, hst⟩ := h
  rw [hr] at hst
  obtain ⟨hs, hn, hp⟩ := hst
  obtain ⟨x, hx⟩ := ht
  obtain ⟨v, hv⟩ : ∃ v : Value, v = if isTextName name then .text text else .number x := ⟨_, rfl⟩
  have hplain : v.Plain := by
    rw [hv]
    split <;> trivial
  have hval : LineRun.value? name text = some v := by
    rw [hv]
    cases hn : isTextName name <;> simp [LineRun.value?, hn, hx, Except.toOption]
  obtain ⟨vars, hset, hvars⟩ := hm.plain.set name hplain
  rw [deliver_of_awaiting hs, submit_passive hs hp, accept_passive]
  have he := hm.echoed (.append text)
  rw [he.vars, answer_var hx, ← hv, hset]
  simp only [LineRun.answer, hval, Option.bind_some, hset, Except.toOption]
  refine ⟨_, rfl, ?_⟩
  rw [← hm.next? hc hn]
  refine moveTo_follows (s := { s.echoed (.append text) with vars, pending := none, phase := .executing })
    ?_ rfl (s.pc + 1)
  exact { he with vars := rfl, plain := hvars }

lemma drive_follows (h : Follows code echo told s r) (hc : code.Ascending)
    (hp : ∀ n stmt, code.find? n = some stmt → stmt.Plain) (k : Nat) {answers : List String}
    (ha : ∀ text ∈ answers, ∃ x, Value.ofAnswer text = .ok x) :
    ∃ t, (drive .passive k answers).run s = .ok () t ∧
      Follows code echo told t (r.run code echo k answers) := by
  induction k generalizing s r answers with
  | zero => exact ⟨s, rfl, h⟩
  | succ k ih =>
    cases hr : r.place with
    | line n =>
      obtain ⟨t, ht, hf⟩ := step_follows h hc hp hr
      have hst := h.2
      rw [hr] at hst
      obtain ⟨u, hu, hf'⟩ := ih hf ha
      exact ⟨u, by simp [drive, hst.1, ht, hu], by simpa [LineRun.run, hr] using hf'⟩
    | question n name =>
      have hst := h.2
      rw [hr] at hst
      cases answers with
      | nil => exact ⟨s, by simp [drive, hst.1], by simpa [LineRun.run, hr] using h⟩
      | cons text rest =>
        obtain ⟨hx, hrest⟩ := List.forall_mem_cons.mp ha
        obtain ⟨t, ht, hf⟩ := answer_follows h hc hr hx
        obtain ⟨u, hu, hf'⟩ := ih hf hrest
        exact ⟨u, by simp [drive, hst.1, ht, hu], by simpa [LineRun.run, hr] using hf'⟩
    | ended =>
      have hst : s.phase = .idle := by
        have hst := h.2
        rwa [hr] at hst
      exact ⟨s, by simp [drive, hst], by simpa [LineRun.run, hr] using h⟩

lemma started_follows (s : Session) (hc : code.Ascending) :
    Follows code s.echo s.events.toList (s.started code) (LineRun.start code) := by
  -- A run starts by a move to its first place, which ends it if there is none.
  have hs : s.started code = moveTo { s with
      vars := {}
      compiled := code
      order := (Numbered.numbers code).toArray
      pc := 0
      pending := none
      stopRequested := false
      stopReport := none
      phase := .executing } 0 := by
    cases code <;> simp [started, moveTo, Numbered.numbers]
  have hfirst : (Numbered.numbers code).min? = (Numbered.numbers code).toArray[0]? := by
    rw [min?_eq_head? hc, List.head?_eq_getElem?, List.getElem?_toArray]
  rw [hs, LineRun.start, hfirst]
  refine moveTo_follows ?_ ?_ 0
  · refine ⟨rfl, rfl, rfl, rfl, rfl, rfl, ?_, (List.append_nil _).symm⟩
    intro b hb
    cases hb
  · rfl

lemma run_drive_follows (hp : s.program.Ascending) (hs : s.phase = .idle)
    (hc : compileLines s.depth s.program = (code, none)) (k : Nat) {answers : List String}
    (ha : ∀ text ∈ answers, ∃ x, Value.ofAnswer text = .ok x) :
    ∃ t, (do run .passive; drive .passive k answers).run s = .ok () t ∧
      Follows code s.echo s.events.toList t ((LineRun.start code).run code s.echo k answers) := by
  have hca := compileLines_ascending hp hc
  -- Stored lines are read from text, so that the only faults of a run are the two it reports.
  have hplain : ∀ n stmt, code.find? n = some stmt → stmt.Plain := by
    intro n stmt hf
    obtain ⟨text, -, hl⟩ := compileLines_find? hp hc hf
    exact Parse.compileLine_plain hl
  obtain ⟨t, ht, hf⟩ := drive_follows (started_follows s hca) hca hplain k ha
  exact ⟨t, by simp [run_passive_of_ok hs hc, ht], hf⟩

lemma command_run (host : Host) : command host (Text.trim "RUN") = run host := by
  have ht : Text.trim "RUN" = "RUN" := by decide +kernel
  have hl : Program.splitLine? "RUN" = none := by decide +kernel
  have hu : Text.upper "RUN" = "RUN" := by decide +kernel
  rw [ht]
  simp [command, hl, hu]

lemma deliver_run (hs : s.phase = .idle) (hc : compileLines s.depth s.program = (code, none)) :
    (deliver .passive "RUN").run s = (run .passive).run (s.echoed (.line ">RUN")) := by
  have hr := run_passive_of_ok (s := s.echoed (.line ">RUN")) hs hc
  have hq : ">" ++ "RUN" = ">RUN" := by decide
  rw [deliver_passive (by simp [hs]), run_reporting, command_run, hq, hr]

theorem run_refines_line_numbers {depth : Nat} (h : Reachable depth s) (hs : s.phase = .idle)
    (hc : compileLines s.depth s.program = (code, none)) (k : Nat) {answers : List String}
    (ha : ∀ text ∈ answers, ∃ x, Value.ofAnswer text = .ok x) :
    let r := (LineRun.start code).run code s.echo k answers
    (∃ t, (do run .passive; drive .passive k answers).run s = .ok () t ∧ t.vars = r.vars ∧
      t.events.toList = s.events.toList ++ r.told ∧ t.Stands r.place) ∧
    ∃ t, (do deliver .passive "RUN"; drive .passive k answers).run s = .ok () t ∧ t.vars = r.vars ∧
      t.events.toList = s.events.toList ++ (if s.echo then [.line ">RUN"] else []) ++ r.told ∧
      t.Stands r.place := by
  have hp := h.coherent.ascending
  constructor
  · obtain ⟨t, ht, hm, hst⟩ := run_drive_follows hp hs hc k ha
    exact ⟨t, ht, hm.vars, hm.events, hst⟩
  · obtain ⟨t, ht, hm, hst⟩ := run_drive_follows (s := s.echoed (.line ">RUN")) hp hs hc k ha
    refine ⟨t, ?_, hm.vars, ?_, hst⟩
    · rwa [EStateM.run_bind, deliver_run hs hc, ← EStateM.run_bind]
    · rw [hm.events]
      cases he : s.echo <;> simp [echoed, he]

theorem parrot_refines : ∃ t, (do run .passive; drive .passive 3 ["hi"]).run parrot = .ok () t ∧
    t.events.toList = [.line "? ", .request "? ", .append "hi", .line "hi", .line "Ready"] := by
  have hc : compileLines parrot.depth parrot.program = ((compileLines parrot.depth parrot.program).1, none) :=
    Prod.ext rfl (Option.isNone_iff_eq_none.mp (by decide +kernel))
  have ha : ∀ text ∈ ["hi"], ∃ x, Value.ofAnswer text = .ok x := by
    intro text hm
    obtain rfl := List.mem_singleton.mp hm
    exact ofAnswer_hi
  obtain ⟨t, ht, -, he, -⟩ := (run_refines_line_numbers parrot_reachable (by decide +kernel) hc 3 ha).1
  refine ⟨t, ht, ?_⟩
  rw [he]
  decide +kernel

end Session

end LineBasic
