import LineBasic.Proofs.Tree.Sentence
import LineBasic.Session.Command
import Mathlib

/-! Calls on a session whose host only listens, as plain changes of the session. -/

namespace LineBasic.Session

open Grammar (bind_ok)

@[simp] lemma ok_bind {α β : Type} (a : α) (f : α → Except Fault β) : (Except.ok a >>= f) = f a := rfl

@[simp] lemma error_bind {α β : Type} (fault : Fault) (f : α → Except Fault β) :
    (Except.error fault >>= f) = .error fault := rfl

@[simp] lemma pure_eq_ok {α : Type} (a : α) : (pure a : Except Fault α) = .ok a := rfl

@[simp] lemma emit_passive (e : Event) (s : Session) : (emit .passive e).run s = .ok () (s.record e) := rfl

@[simp] lemma run_fail {α : Type} (cause : Cause) (s : Session) :
    (fail cause : Act α).run s = .error (.because cause) s := rfl

@[simp] lemma run_ofExcept {α : Type} (x : Except Fault α) (s : Session) :
    (ofExcept x).run s = match x with
      | .ok a => .ok a s
      | .error fault => .error fault s := by
  cases x <;> rfl

@[simp] lemma run_ensuring {α : Type} (act : Act α) (change : Session → Session) (s : Session) :
    (ensuring act change).run s = match act.run s with
      | .ok a s => .ok a (change s)
      | .error fault s => .error fault (change s) := rfl

@[simp] lemma run_reporting {α : Type} (act : Act α) (report : Diagnostic → Act α) (s : Session) :
    (reporting act report).run s = match act.run s with
      | .ok a s => .ok a s
      | .error (.told d) s => (report d).run s
      | .error fault s => .error fault s := rfl

@[simp] lemma run_resolve (target : Int) (s : Session) :
    (resolve target).run s = match resolve? s.order target with
      | some i => .ok i s
      | none => .error (.because .undefinedLine) s := by
  cases hr : resolve? s.order target <;> simp [resolve, hr]

lemma toList_record (s : Session) (e : Event) : (s.record e).events.toList = s.events.toList ++ [e] :=
  Array.toList_push

def finished (s : Session) : Session :=
  { s with
    phase := .idle
    pending := none
    stopRequested := false
    stopReport := none
    events := (s.stopReport.elim s.events (s.events.push <| .line ·)).push ready }

lemma toList_finished (s : Session) :
    s.finished.events.toList = s.events.toList ++ s.stopReport.toList.map .line ++ [ready] := by
  cases hs : s.stopReport <;> simp [finished, hs]

lemma finish_passive (s : Session) : (finish .passive).run s = .ok () s.finished := by
  cases hs : s.stopReport with
  | none => simp [finish, hs, finished, record]
  | some report => simp [finish, hs, finished, record]

lemma compile_passive (s : Session) : (compile .passive).run s =
    match compileLines s.depth s.program with
    | (compiled, none) => .ok true { s with vars := {}, compiled, phase := .idle }
    | (compiled, some (n, d)) => .ok false { s with
        vars := {}
        compiled
        phase := .idle
        events := (s.events.push (.line (d.report (some n)))).push ready } := by
  rcases hc : compileLines s.depth s.program with ⟨compiled, none | ⟨n, d⟩⟩
  · simp [compile, hc]
  · simp [compile, hc, record]

def started (s : Session) (compiled : Numbered Stmt) : Session :=
  let s := { s with
    vars := {}
    compiled
    order := (Numbered.numbers compiled).toArray
    pc := 0
    pending := none
    stopRequested := false
    stopReport := none
    phase := .executing }
  if compiled.isEmpty then s.finished else s

lemma run_passive_of_ok {s : Session} {compiled : Numbered Stmt} (hs : s.phase = .idle)
    (hc : compileLines s.depth s.program = (compiled, none)) :
    (run .passive).run s = .ok () (s.started compiled) := by
  cases compiled with
  | nil => simp [run, hs, compile_passive, hc, finish_passive, started, Numbered.numbers]
  | cons => simp [run, hs, compile_passive, hc, started, Numbered.numbers]

lemma run_passive_of_fault {s : Session} {compiled : Numbered Stmt} {n : Int} {d : Diagnostic}
    (hs : s.phase = .idle) (hc : compileLines s.depth s.program = (compiled, some (n, d))) :
    (run .passive).run s = .ok () { s with
      vars := {}
      compiled
      events := (s.events.push (.line (d.report (some n)))).push ready } := by
  simp [run, hs, compile_passive, hc]

lemma run_passive_of_busy {s : Session} (hs : s.phase ≠ .idle) : (run .passive).run s = .ok () s := by
  simp [run, hs]

/-- What a statement does to a run that has come to it. -/
inductive Effect
  | proceed (vars : Variables) (told : List Event)
  | jump (target : Int)
  | ask (prompt : String) (target : Expr)

def promptOf (vars : Variables) : Option Expr → Except Fault String
  | none => .ok "? "
  | some e => do
    let v ← e.eval vars
    let text ← v.printed
    return text ++ " "

def effect (vars : Variables) : Stmt → Except Fault Effect
  | .print e => do
    let v ← e.eval vars
    let text ← v.printed
    return .proceed vars [.line text]
  | .goto target => .ok (.jump target)
  | .assign target e => do
    let name ← nameOf target "name"
    let v ← e.eval vars
    let vars ← vars.set name v
    return .proceed vars []
  | .rem _ => .ok (.proceed vars [])
  | .cls => .ok (.proceed vars [.clear])
  | .input prompt target => do
    let text ← promptOf vars prompt
    return .ask text target
  | .foreign shape => .error (.unknownStatement shape.listed)

lemma effect_ask {vars : Variables} {stmt : Stmt} {text : String} {target : Expr}
    (h : effect vars stmt = .ok (.ask text target)) :
    ∃ prompt, stmt = .input prompt target ∧ promptOf vars prompt = .ok text := by
  cases stmt with
  | input prompt e =>
    obtain ⟨shown, hp, h₁⟩ := bind_ok h
    cases h₁
    exact ⟨prompt, rfl, hp⟩
  | print e =>
    obtain ⟨v, -, h₁⟩ := bind_ok h
    obtain ⟨shown, -, h₂⟩ := bind_ok h₁
    cases h₂
  | assign e e' =>
    obtain ⟨name, -, h₁⟩ := bind_ok h
    obtain ⟨v, -, h₂⟩ := bind_ok h₁
    obtain ⟨w, -, h₃⟩ := bind_ok h₂
    cases h₃
  | goto n => cases h
  | rem c => cases h
  | cls => cases h
  | foreign shape => cases h

def tell (s : Session) (es : List Event) : Session := { s with events := s.events ++ es.toArray }

lemma tell_nil (s : Session) : s.tell [] = s := by simp [tell]

lemma tell_record (s : Session) (e : Event) (es : List Event) :
    (s.record e).tell es = s.tell (e :: es) := by
  simp [tell, record]

lemma tell_tell (s : Session) (es es' : List Event) : (s.tell es).tell es' = s.tell (es ++ es') := by
  simp [tell]

lemma toList_tell (s : Session) (es : List Event) :
    (s.tell es).events.toList = s.events.toList ++ es := by
  simp [tell]

def asked (s : Session) (n : Int) (prompt : String) (target : Expr) : Session :=
  { s with
    pending := some ⟨target, n, s.pc + 1⟩
    phase := .awaiting
    events := (s.events.push (.line prompt)).push (.request prompt) }

lemma asked_eq (s : Session) (n : Int) (prompt : String) (target : Expr) : s.asked n prompt target =
    tell { s with pending := some ⟨target, n, s.pc + 1⟩, phase := .awaiting }
      [.line prompt, .request prompt] := rfl

lemma promptText_run (prompt : Option Expr) (s : Session) : (promptText prompt).run s =
    match promptOf s.vars prompt with
    | .ok text => .ok text s
    | .error fault => .error fault s := by
  cases prompt with
  | none => rfl
  | some e =>
    cases he : e.eval s.vars with
    | error fault => simp [promptText, evaluate, promptOf, he]
    | ok v =>
      cases hv : v.printed <;>
        simp [promptText, evaluate, shown, promptOf, he, hv]

def emits (host : Host) : List Event → Act Unit
  | [] => return
  | e :: es => do
    emit host e
    emits host es

lemma emits_passive (es : List Event) (s : Session) : (emits .passive es).run s = .ok () (s.tell es) := by
  induction es generalizing s with
  | nil => simp [emits, tell]
  | cons e es ih => simp [emits, ih, tell, record]

/-- A statement changes the session first and then tells its host. -/
lemma execute_run (host : Host) (n : Int) (stmt : Stmt) (s : Session) : (execute host n stmt).run s =
    match effect s.vars stmt with
    | .ok (.proceed vars told) => ((emits host told).run { s with vars }).map fun _ => none
    | .ok (.jump target) => .ok (some target) s
    | .ok (.ask prompt target) => ((emits host [.line prompt, .request prompt]).run
        { s with pending := some ⟨target, n, s.pc + 1⟩, phase := .awaiting }).map fun _ => none
    | .error fault => .error fault s := by
  cases stmt with
  | print e =>
    cases he : e.eval s.vars with
    | error fault => simp [execute, evaluate, effect, he]
    | ok v =>
      cases hv : v.printed with
      | error fault => simp [execute, evaluate, shown, effect, he, hv]
      | ok text => simp [execute, evaluate, shown, effect, he, hv, emits]
  | goto target => rfl
  | assign target e =>
    cases hn : nameOf target "name" with
    | error fault => simp [execute, effect, hn]
    | ok name =>
      cases he : e.eval s.vars with
      | error fault => simp [execute, evaluate, effect, hn, he]
      | ok v =>
        cases hv : s.vars.set name v <;>
          simp [execute, evaluate, assign, effect, hn, he, hv, emits]
  | rem comment => simp [execute, effect, emits]
  | cls => simp [execute, effect, emits]
  | input prompt target =>
    cases hp : promptOf s.vars prompt with
    | error fault => simp [execute, promptText_run, effect, hp]
    | ok text =>
      cases hl : (emit host (.line text)).run
          { s with pending := some ⟨target, n, s.pc + 1⟩, phase := .awaiting } with
      | error fault t => simp [execute, promptText_run, effect, hp, emits, hl, EStateM.Result.map]
      | ok a t => simp [execute, promptText_run, effect, hp, emits, hl]
  | foreign shape => rfl

lemma execute_passive (n : Int) (stmt : Stmt) (s : Session) : (execute .passive n stmt).run s =
    match effect s.vars stmt with
    | .ok (.proceed vars told) => .ok none { s.tell told with vars }
    | .ok (.jump target) => .ok (some target) s
    | .ok (.ask prompt target) => .ok none (s.asked n prompt target)
    | .error fault => .error fault s := by
  rw [execute_run]
  rcases effect s.vars stmt with fault | ⟨vars, told⟩ | target | ⟨prompt, target⟩
  · rfl
  · simp [emits_passive, tell]
  · rfl
  · simp [emits_passive, asked_eq]

def moveTo (s : Session) (pc : Nat) : Session :=
  if s.order.size ≤ pc then finished { s with pc } else { s with pc }

section MoveTo

variable {s : Session} (pc : Nat)

lemma moveTo_pc : (s.moveTo pc).pc = pc := by
  rw [moveTo]
  split <;> rfl

lemma moveTo_phase : (s.moveTo pc).phase = if pc < s.order.size then s.phase else .idle := by
  rw [moveTo]
  split
  · rw [if_neg (by omega)]
    rfl
  · rw [if_pos (by omega)]

lemma moveTo_stopRequested (hq : s.stopRequested = false) : (s.moveTo pc).stopRequested = false := by
  rw [moveTo]
  split
  · rfl
  · exact hq

lemma moveTo_vars : (s.moveTo pc).vars = s.vars := by
  rw [moveTo]
  split <;> rfl

lemma moveTo_compiled : (s.moveTo pc).compiled = s.compiled := by
  rw [moveTo]
  split <;> rfl

lemma moveTo_program : (s.moveTo pc).program = s.program := by
  rw [moveTo]
  split <;> rfl

lemma moveTo_events (hs : s.phase = .executing) (hr : s.stopReport = none) :
    (s.moveTo pc).events.toList =
      s.events.toList ++ if (s.moveTo pc).phase = .idle then [ready] else [] := by
  rw [moveTo]
  split
  · simp [finished, hr]
  · simp [hs]

end MoveTo

def halted (s : Session) (n : Int) (d : Diagnostic) : Session :=
  finished { s.record (.line (d.report (some n))) with stepping := false }

/-- What a step makes of the effect of the statement of line `n`, on a listening host. -/
def settle (s : Session) (n : Int) : Except Fault Effect → EStateM.Result Fault Session Unit
  | .ok (.proceed vars told) => .ok () (moveTo { s.tell told with vars, stepping := false } (s.pc + 1))
  | .ok (.jump target) =>
    match resolve? s.order target with
    | some i => .ok () (moveTo { s with stepping := false } i)
    | none => .ok () (s.halted n (.of .undefinedLine none))
  | .ok (.ask prompt target) => .ok () { s.asked n prompt target with stepping := false }
  | .error (.told d) => .ok () (s.halted n d)
  | .error fault => .error fault { s with stepping := false }

lemma reportAt_passive (n : Int) (d : Diagnostic) (s : Session) : (reportAt .passive n d).run s =
    .ok false { s.record (.line (d.report (some n))) with stopRequested := true } := by
  simp [reportAt, record]

lemma executeAt_passive {n : Int} {stmt : Stmt} {s : Session} (hs : s.phase = .executing)
    (hq : s.stopRequested = false) : (executeAt .passive n stmt).run s =
    match effect s.vars stmt with
    | .ok (.proceed vars told) => .ok false { s.tell told with vars, pc := s.pc + 1 }
    | .ok (.jump target) =>
      match resolve? s.order target with
      | some i => .ok false { s with pc := i }
      | none => .error (.because .undefinedLine) s
    | .ok (.ask prompt target) => .ok true (s.asked n prompt target)
    | .error fault => .error fault s := by
  rcases he : effect s.vars stmt with fault | ⟨vars, told⟩ | target | ⟨prompt, target⟩
  · simp [executeAt, execute_passive, he]
  · simp [executeAt, execute_passive, he, tell, hs]
  · cases hr : resolve? s.order target <;> simp [executeAt, execute_passive, he, hs, hr]
  · simp [executeAt, execute_passive, he, asked, hq]

lemma step_run {host : Host} {n : Int} {stmt : Stmt} {s : Session} (hs : s.phase = .executing)
    (hq : s.stopRequested = false) (hn : s.order[s.pc]? = some n)
    (hf : Numbered.find? n s.compiled = some stmt) : (step host).run s = (do
      let settled ← ensuring (reporting (executeAt host n stmt) (reportAt host n))
        ({ · with stepping := false })
      if settled then return
      let s ← get
      if s.stopRequested || s.atEnd then finish host).run { s with stepping := true } := by
  generalize hu : { s with stepping := true } = u
  simp only [step, EStateM.run_bind, EStateM.run_get]
  rw [if_neg (by simp [hs])]
  simp only [hn, hq, hf]
  subst hu
  rfl

lemma step_passive {n : Int} {stmt : Stmt} {s : Session} (hs : s.phase = .executing)
    (hq : s.stopRequested = false) (hn : s.order[s.pc]? = some n)
    (hf : Numbered.find? n s.compiled = some stmt) :
    (step .passive).run s = s.settle n (effect s.vars stmt) := by
  rw [step_run hs hq hn hf]
  rcases he : effect s.vars stmt with fault | ⟨vars, told⟩ | target | ⟨prompt, target⟩
  · cases fault with
    | told d =>
      simp [executeAt_passive, hs, hq, he, reportAt_passive, finish_passive, settle, halted, finished,
        record]
    | _ => simp [executeAt_passive, hs, hq, he, settle]
  · by_cases hp : s.order.size ≤ s.pc + 1 <;>
      simp [executeAt_passive, hs, hq, he, finish_passive, settle, moveTo, atEnd, tell, hp, finished]
  · cases hr : resolve? s.order target with
    | none =>
      simp [executeAt_passive, hs, hq, he, hr, Fault.because, reportAt_passive, finish_passive, settle,
        halted, finished, record]
    | some i =>
      by_cases hp : s.order.size ≤ i <;>
        simp [executeAt_passive, hs, hq, he, hr, finish_passive, settle, moveTo, atEnd, hp, finished]
  · simp [executeAt_passive, hs, hq, he, settle, asked]

lemma advanceFrom_of_rest (host : Host) {s : Session} (hs : s.phase ≠ .executing) (done limit : Nat) :
    (advanceFrom host done limit).run s = .ok done s := by
  cases limit with
  | zero => rfl
  | succ limit => simp [advanceFrom, hs]

lemma advanceFrom_succ {host : Host} {s t : Session} (hs : s.phase = .executing)
    (h : (step host).run s = .ok () t) (done limit : Nat) :
    (advanceFrom host done (limit + 1)).run s = (advanceFrom host (done + 1) limit).run t := by
  simp [advanceFrom, hs, h]

def stopText (s : Session) (message : Option String) : Option String :=
  match message with
  | none | some "" => s.stopReport
  | some message => some ((Diagnostic.of (.halted message) none).report s.currentLine)

def flagged (s : Session) (message : Option String) : Session :=
  { s with stopRequested := true, stopReport := s.stopText message }

lemma stop_of_rest {host : Host} {s : Session} (hs : s.running = false) (message : Option String) :
    (stop host message).run s = .ok () s := by
  simp [stop, hs]

lemma stop_of_running {host : Host} {s : Session} (hs : s.running = true) (message : Option String) :
    (stop host message).run s =
      if s.stepping then .ok () (s.flagged message) else (finish host).run (s.flagged message) := by
  cases hp : s.stepping <;> cases message with
  | none => simp [stop, hs, hp, flagged, stopText]
  | some message => by_cases hm : message = "" <;> simp [stop, hs, hp, flagged, stopText, hm]

lemma stop_passive_of_running {s : Session} (hs : s.running = true) (hq : s.stepping = false)
    (message : Option String) :
    (stop .passive message).run s = .ok () (finished { s with stopReport := s.stopText message }) := by
  rw [stop_of_running hs, if_neg (by simp [hq]), finish_passive]
  rfl

def answer (vars : Variables) (target : Expr) (text : String) : Except Fault Variables := do
  let name ← nameOf target "is_string"
  let value ← if isTextName name then .ok (Value.text text) else (Value.ofAnswer text).map Value.number
  vars.set name value

lemma answer_var {text : String} {x : Float} (hx : Value.ofAnswer text = .ok x) (vars : Variables)
    (name : String) : answer vars (.var name) text =
      vars.set name (if isTextName name then .text text else .number x) := by
  cases hn : isTextName name <;> simp [answer, nameOf, Expr.name?, hn, hx, Except.map]

def echoed (s : Session) (e : Event) : Session :=
  { s with events := if s.echo then s.events.push e else s.events }

lemma echoed_of_true {s : Session} (h : s.echo = true) (e : Event) : s.echoed e = s.record e := by
  simp [echoed, h, record]

lemma echoed_of_false {s : Session} (h : s.echo = false) (e : Event) : s.echoed e = s := by
  have he : (if s.echo then s.events.push e else s.events) = s.events := by simp [h]
  simp only [echoed, he]

lemma toList_echoed (s : Session) (e : Event) :
    (s.echoed e).events.toList = s.events.toList ++ if s.echo then [e] else [] := by
  cases he : s.echo <;> simp [echoed, he]

lemma assign_run (name : String) (v : Value) (s : Session) : (assign name v).run s =
    match s.vars.set name v with
    | .ok vars => .ok () { s with vars }
    | .error fault => .error fault s := by
  cases hv : s.vars.set name v <;> simp [assign, hv]

def accept (host : Host) (p : Pending) (text : String) : Act Unit := do
  let name ← ofExcept (nameOf p.target "is_string")
  let value ← if isTextName name then pure (Value.text text)
    else Value.number <$> ofExcept (Value.ofAnswer text)
  assign name value
  modify ({ · with pending := none, pc := p.next, phase := .executing })
  if (← get).atEnd then finish host

lemma accept_run (host : Host) (p : Pending) (text : String) (s : Session) : (accept host p text).run s =
    match answer s.vars p.target text with
    | .ok vars =>
      if s.order.size ≤ p.next then
        (finish host).run { s with vars, pending := none, pc := p.next, phase := .executing }
      else .ok () { s with vars, pending := none, pc := p.next, phase := .executing }
    | .error fault => .error fault s := by
  have hm : ∀ t : Session, (do
      modify ({ · with pending := none, pc := p.next, phase := .executing })
      if (← get).atEnd then finish host : Act Unit).run t =
        if t.order.size ≤ p.next then
          (finish host).run { t with pending := none, pc := p.next, phase := .executing }
        else .ok () { t with pending := none, pc := p.next, phase := .executing } := by
    intro t
    by_cases hn : t.order.size ≤ p.next <;> simp [atEnd, hn]
  cases hn : nameOf p.target "is_string" with
  | error fault => simp [accept, hn, answer]
  | ok name =>
    cases ht : isTextName name with
    | true =>
      cases hv : s.vars.set name (.text text) <;> simp [accept, hn, ht, hv, assign_run, answer, hm]
    | false =>
      cases hx : Value.ofAnswer text with
      | error fault => simp [accept, hn, ht, hx, answer, Except.map]
      | ok x =>
        cases hv : s.vars.set name (.number x) <;>
          simp [accept, hn, ht, hx, hv, assign_run, answer, Except.map, hm]

lemma accept_passive (p : Pending) (text : String) (s : Session) : (accept .passive p text).run s =
    match answer s.vars p.target text with
    | .ok vars => .ok () (moveTo { s with vars, pending := none, phase := .executing } p.next)
    | .error fault => .error fault s := by
  rw [accept_run]
  cases answer s.vars p.target text with
  | error fault => rfl
  | ok vars => by_cases hn : s.order.size ≤ p.next <;> simp [moveTo, finish_passive, hn]

lemma submit_run {host : Host} {s t : Session} {p : Pending} (hs : s.phase = .awaiting)
    (hp : s.pending = some p) (text : String)
    (ht : if s.echo then (emit host (.append text)).run s = .ok () t else t = s) :
    (submit host text).run s = (accept host p text).run t := by
  cases he : s.echo with
  | true =>
    rw [he, if_pos rfl] at ht
    simp [submit, accept, hs, hp, he, ht]
  | false =>
    obtain rfl : t = s := by simpa [he] using ht
    simp [submit, accept, hs, hp, he]

lemma submit_passive {s : Session} {p : Pending} (hs : s.phase = .awaiting) (hp : s.pending = some p)
    (text : String) :
    (submit .passive text).run s = (accept .passive p text).run (s.echoed (.append text)) := by
  refine submit_run hs hp text ?_
  cases he : s.echo with
  | true => simp [echoed_of_true he]
  | false => simp [echoed_of_false he]

lemma storeLine_run (number : Int) (code : String) (s : Session) : (storeLine number code).run s =
    if s.running then .error (.because .editWhileRunning) s
    else if number ≤ 0 then .error (.because (.lineNotPositive number)) s
    else .ok () { s with program := s.program.store number (Text.trim code) } := by
  by_cases hs : s.running
  · simp [storeLine, hs]
  · by_cases hn : number ≤ 0 <;> simp [storeLine, hs, hn]

lemma new_run (s : Session) : new.run s =
    if s.running then .error (.because .editWhileRunning) s
    else .ok () { s with program := [], compiled := [], vars := {} } := by
  by_cases hs : s.running <;> simp [new, hs]

lemma deliver_of_awaiting {host : Host} {s : Session} (hs : s.phase = .awaiting) (text : String) :
    (deliver host text).run s = (submit host text).run s := by
  simp [deliver, hs]

lemma deliver_passive {s : Session} (hs : s.phase ≠ .awaiting) (text : String) :
    (deliver .passive text).run s =
      (reporting (command .passive (Text.trim text)) (reportCommand .passive)).run
        (s.echoed (.line (">" ++ text))) := by
  cases he : s.echo with
  | true => simp [deliver, hs, he, echoed_of_true]
  | false => simp [deliver, hs, he, echoed_of_false]

end LineBasic.Session
