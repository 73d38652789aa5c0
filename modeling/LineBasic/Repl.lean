import LineBasic.Console
import LineBasic.Session.Command
import LineBasic.Settings

/-! The command loop. It asks for commands while nothing runs; a program that was started is run in
batches of statements, and its `INPUT`s are answered, until it ends. -/

namespace LineBasic

namespace Repl

inductive Input
  | line (text : String)
  | interrupt
  | endOfInput
deriving DecidableEq

/-- A line as it was read, without its line feed; an empty one tells the end of the input. -/
def Input.ofRead (text : String) : Input :=
  match text.toList.reverse with
  | [] => .endOfInput
  | '\n' :: cs => .line (.ofList cs.reverse)
  | cs => .line (.ofList cs.reverse)

inductive Stage
  | command
  | driving
  | ended (fault : Option Fault)

inductive Want
  | command
  | answer
  | batch
  | nothing
deriving DecidableEq

end Repl

structure Repl where
  settings : Settings
  session : Session
  console : Console
  stage : Repl.Stage := .command
  batchSize : Nat := 500
  batches : Nat := 0

namespace Repl

open Session (Host Act)

def showEvents (session : Session) (console : Console) : Session × Console :=
  ({ session with events := #[] }, console.handleAll session.events.toList)

def askCommand (r : Repl) : Repl :=
  { r with console := r.console.finishLine.write r.settings.prompt.spoken, stage := .command }

/-- Greets the user. Only a text can be shown as the banner, while any prompt can. -/
def start (settings : Settings) (session : Session) (console : Console) : Repl :=
  match settings.banner with
  | .text banner =>
    let console := (console.handle (.line banner)).handle Session.ready
    askCommand { settings, session, console }
  | _ => { settings, session, console, stage := .ended (some .wrongType) }

def finishLine (r : Repl) : Repl := { r with console := r.console.finishLine }

def close (r : Repl) (farewell : String) : Repl :=
  { r with console := r.console.write farewell, stage := .ended none }

def leave (r : Repl) : Repl := r.finishLine.close "\nExiting My-BASIC.\n"

def act {α : Type} (r : Repl) (call : Act α) (next : Repl → Repl) : Repl :=
  match call r.session with
  | .ok _ session =>
    let (session, console) := showEvents session r.console
    next { r with session, console }
  | .error fault session =>
    let (session, console) := showEvents session r.console
    { r with session, console, stage := .ended (some fault) }

def proceed (r : Repl) : Repl :=
  if r.session.running then { r with stage := .driving } else r.askCommand

def deliver (r : Repl) (text : String) : Repl :=
  act { r with console := r.console.inputReceived } (Session.deliver .passive text) proceed

/-- The words that end the loop, in any letter case. No letter beyond ASCII has one of their
letters as its small form. -/
def isFarewell (text : String) : Bool :=
  let word := text.toList.map Char.toLower
  word == "exit".toList || word == "quit".toList

def command (r : Repl) (text : String) : Repl :=
  let word := Text.trim text
  if isFarewell word then r.close "Exiting My-BASIC.\n"
  else if word = "" then { r with console := r.console.inputReceived }.askCommand
  else r.deliver text

def breakOff (r : Repl) (next : Repl → Repl) : Repl :=
  act r.finishLine (Session.stop .passive (some "BREAK")) next

def want (r : Repl) : Want :=
  match r.stage with
  | .command => .command
  | .ended _ => .nothing
  | .driving => if r.session.phase = .awaiting then .answer else .batch

def feed (r : Repl) (input : Input) : Repl :=
  match r.want, input with
  | .command, .line text => r.command text
  | .command, _ => r.leave
  | .answer, .line text => r.deliver text
  | .answer, .interrupt => r.breakOff proceed
  | .answer, .endOfInput => r.breakOff leave
  | _, _ => r

def runBatch (r : Repl) (interrupted : Bool) : Repl :=
  let r := { r with batches := r.batches + 1 }
  if interrupted then r.breakOff proceed
  else act r (Session.advance .passive r.batchSize) proceed

/-- Plays the loop on given inputs, for at most `patience` rounds. The batches with the given
numbers are interrupted. -/
def play (interruptions : List Nat) (inputs : List Input) (r : Repl) : Nat → Repl
  | 0 => r
  | patience + 1 =>
    match r.want, inputs with
    | .nothing, _ => r
    | .batch, _ =>
      play interruptions inputs (r.runBatch (interruptions.contains (r.batches + 1))) patience
    | _, [] => play interruptions [] (r.feed .endOfInput) patience
    | _, input :: rest => play interruptions rest (r.feed input) patience

end Repl

end LineBasic
