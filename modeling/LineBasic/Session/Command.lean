import LineBasic.Session.Run
import LineBasic.Text.Lines

/-! Commands: editing the program, loading and listing it, and what the user types. -/

namespace LineBasic.Session

variable (host : Host)

/-- Stores a line, or deletes it if the code is blank. -/
def storeLine (number : Int) (code : String) : Act Unit := do
  if (← get).running then fail .editWhileRunning
  if number ≤ 0 then fail (.lineNotPositive number)
  modify fun s => { s with program := s.program.store number (Text.trim code) }

def lineNumber (digits : List Nat) : Act Int := ofExcept (Program.lineNumber digits)

def loadLine (text : String) : Act Unit :=
  match Program.splitLine? text with
  | none => fail (.badProgramLine text)
  | some (digits, body) => do
    if Text.trim body = "" then fail (.badProgramLine text)
    storeLine (← lineNumber digits) body

def loadLines (count : Nat) : List String → Act Nat
  | [] => return count
  | text :: rest => do
    loadLine text
    loadLines (count + 1) rest

/-- Stores every line of a program text that is not blank and tells how many there were. -/
def load (source : String) : Act Nat :=
  loadLines 0 (((Text.lines source).map Text.trim).filter (· ≠ ""))

def listing (s : Session) : List String := s.program.listing

def new : Act Unit := do
  if (← get).running then fail .editWhileRunning
  modify ({ · with program := [], compiled := [], vars := {} })

def emitLines : List String → Act Unit
  | [] => return
  | text :: rest => do
    emit host (.line text)
    emitLines rest

def command (code : String) : Act Unit := do
  match Program.splitLine? code with
  | some (digits, body) => storeLine (← lineNumber digits) body
  | none =>
    match Text.upper code with
    | "RUN" => run host
    | "LIST" =>
      emitLines host (← get).listing
      emit host ready
    | "CLS" =>
      emit host .clear
      emit host ready
    | "NEW" =>
      new
      emit host ready
    | _ => fail (.unknownCommand code)

def reportCommand (d : Diagnostic) : Act Unit := do
  emit host (.line (d.report none))
  if !(← get).running then emit host ready

/-- Takes one line of user text: the answer to an `INPUT` that waits, or else a command. -/
def deliver (text : String) : Act Unit := do
  let s ← get
  if s.phase = .awaiting then submit host text
  else
    if s.echo then emit host (.line (">" ++ text))
    reporting (command host (Text.trim text)) (reportCommand host)

end LineBasic.Session
