import LineBasic.Session.Basic
import LineBasic.Tree.Parse

/-! Running a program: compiling it, executing one statement at a time, waiting for answers and
stopping. -/

namespace LineBasic.Session

variable (host : Host)

def finish : Act Unit := do
  if let some report := (← get).stopReport then
    emit host (.line report)
    modify ({ · with stopReport := none })
  modify ({ · with phase := .idle, pending := none, stopRequested := false })
  emit host ready

/-- The compiled lines of a program up to its first faulty one. -/
def compileLines (depth : Nat) : Program → Numbered Stmt × Option (Int × Diagnostic)
  | [] => ([], none)
  | (n, code) :: rest =>
    match Parse.compileLine depth code n with
    | .error d => ([], some (n, d))
    | .ok s =>
      let (compiled, fault) := compileLines depth rest
      ((n, s) :: compiled, fault)

def compile : Act Bool := do
  modify ({ · with phase := .compiling, vars := {}, compiled := [] })
  let s ← get
  let (compiled, fault) := compileLines s.depth s.program
  modify ({ · with compiled })
  ensuring (match fault with
    | none => return true
    | some (n, d) => do
      emit host (.line (d.report (some n)))
      emit host ready
      return false) ({ · with phase := .idle })

def run : Act Unit := do
  if (← get).phase = .idle then
    if ← compile host then
      modify fun s => { s with
        order := (Numbered.numbers s.compiled).toArray
        pc := 0
        pending := none
        stopRequested := false
        stopReport := none
        phase := .executing }
      if (← get).order.isEmpty then finish host

/-- The first place from `low` on, and before `high`, whose line number is not below `target`. -/
def bisect (order : Array Int) (target : Int) (low high : Nat) : Nat :=
  if low < high then
    let mid := (low + high) / 2
    match order[mid]? with
    | some n =>
      if n < target then bisect order target (mid + 1) high else bisect order target low mid
    | none => low
  else low
termination_by high - low

def resolve? (order : Array Int) (target : Int) : Option Nat :=
  let i := bisect order target 0 order.size
  if order[i]? = some target then some i else none

def resolve (target : Int) : Act Nat := do
  match resolve? (← get).order target with
  | some i => return i
  | none => fail .undefinedLine

def evaluate (e : Expr) : Act Value := do ofExcept (e.eval (← get).vars)

def assign (name : String) (v : Value) : Act Unit := do
  let vars ← ofExcept ((← get).vars.set name v)
  modify ({ · with vars })

def shown (v : Value) : Act String := ofExcept v.printed

def promptText : Option Expr → Act String
  | none => return "? "
  | some e => do
    let text ← shown (← evaluate e)
    return text ++ " "

/-- Executes a statement and tells which line to jump to, if any. -/
def execute (number : Int) : Stmt → Act (Option Int)
  | .print value => do
    let text ← shown (← evaluate value)
    emit host (.line text)
    return none
  | .goto target => return some target
  | .assign target value => do
    let name ← ofExcept (nameOf target "name")
    assign name (← evaluate value)
    return none
  | .rem _ => return none
  | .cls => do
    emit host .clear
    return none
  | .input prompt target => do
    let prompt ← promptText prompt
    modify fun s => { s with pending := some ⟨target, number, s.pc + 1⟩, phase := .awaiting }
    emit host (.line prompt)
    emit host (.request prompt)
    return none
  | .foreign shape => throw (.unknownStatement shape.listed)

/-- Executes a statement and moves on, unless that is left to the answer of an `INPUT`. Tells
whether the step is over. -/
def executeAt (number : Int) (statement : Stmt) : Act Bool := do
  let jump ← execute host number statement
  if (← get).phase = .awaiting then
    if (← get).stopRequested then finish host
    return true
  match jump with
  | none => modify fun s => { s with pc := s.pc + 1 }
  | some target =>
    let pc ← resolve target
    modify ({ · with pc })
  return false

def reportAt (number : Int) (d : Diagnostic) : Act Bool := do
  emit host (.line (d.report (some number)))
  modify ({ · with stopRequested := true })
  return false

def atEnd (s : Session) : Bool := s.order.size ≤ s.pc

def step : Act Unit := do
  let s ← get
  if s.phase ≠ .executing then return
  match s.order[s.pc]?, s.stopRequested with
  | some number, false =>
    match Numbered.find? number s.compiled with
    | none => throw (.missingLine number)
    | some statement =>
      modify ({ · with stepping := true })
      let settled ← ensuring (reporting (executeAt host number statement) (reportAt host number))
        ({ · with stepping := false })
      if settled then return
      let s ← get
      if s.stopRequested || s.atEnd then finish host
  | _, _ => finish host

def advanceFrom (done : Nat) : Nat → Act Nat
  | 0 => return done
  | limit + 1 => do
    if (← get).phase = .executing then
      step host
      advanceFrom (done + 1) limit
    else return done

/-- Steps until a run ends, waits or has done `limit` steps; tells how many it did. -/
def advance (limit : Nat) : Act Nat := advanceFrom host 0 limit

/-- Ends a run, inside a step as soon as the statement is done. A message is reported. -/
def stop (message : Option String) : Act Unit := do
  let s ← get
  if s.running then
    let report := match message with
      | none | some "" => s.stopReport
      | some message => some ((Diagnostic.of (.halted message) none).report s.currentLine)
    modify ({ · with stopRequested := true, stopReport := report })
    if !s.stepping then finish host

def submit (text : String) : Act Unit := do
  let s ← get
  match s.phase, s.pending with
  | .awaiting, some pending =>
    if s.echo then emit host (.append text)
    let name ← ofExcept (nameOf pending.target "is_string")
    let value ← if isTextName name then pure (Value.text text)
      else Value.number <$> ofExcept (Value.ofAnswer text)
    assign name value
    modify ({ · with pending := none, pc := pending.next, phase := .executing })
    if (← get).atEnd then finish host
  | _, _ => fail .notWaiting

end LineBasic.Session
