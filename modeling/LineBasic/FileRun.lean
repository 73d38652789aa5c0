import LineBasic.Repl
import LineBasic.Runner

/-! Running a program to its end without a command loop. The answers to its `INPUT`s are read line
by line from a stream, and the run goes on beside the reading. -/

namespace LineBasic

namespace FileRun

/-- What one reading of the stream yields. An answer is late if the time of the wait is up before
it comes. -/
inductive Answer
  | line (text : String)
  | late
  | endOfInput

def Answer.ofRead (text : String) : Answer := if text = "" then .endOfInput else .line text

inductive Stage
  | driving
  | closing
  | ended (outcome : Runner.Outcome)

inductive Want
  | answer
  | round
  | nothing
deriving DecidableEq

end FileRun

structure FileRun where
  runner : Runner
  console : Console := {}
  /-- Whether the answers are typed on the terminal that shows the output. -/
  terminal : Bool
  stage : FileRun.Stage := .driving

namespace FileRun

def update (f : FileRun) (runner : Runner) : FileRun :=
  let (session, console) := Repl.showEvents runner.session f.console
  { f with runner := { runner with session }, console }

def want (f : FileRun) : Want :=
  match f.stage with
  | .driving =>
    if f.runner.client = .free && f.runner.active && f.runner.requested then .answer else .round
  | .closing => .round
  | .ended _ => .nothing

def finish (f : FileRun) : FileRun :=
  match f.runner.outcome?.getD .finished with
  | .finished => { f with console := f.console.finishLine, stage := .ended .finished }
  | outcome => { f with stage := .ended outcome }

/-- Lets the next job be done, or time pass. A client that has nothing to wait for looks out until
the run asks for input or has ended. -/
def round (f : FileRun) : FileRun :=
  match f.stage with
  | .driving =>
    if f.runner.client ≠ .free then f.update (f.runner.advance .passive)
    else if f.runner.active then f.update f.runner.lookOut
    else { f with stage := .closing }
  | .closing => if f.runner.active then f.update (f.runner.advance .passive) else f.finish
  | .ended _ => f

def cancelPatience : Nat := 16

def submit (f : FileRun) (text : String) : FileRun :=
  match f.runner.submit .passive text with
  | (.ok _, runner) => f.update runner
  | (.error fault, runner) =>
    { f.update (runner.cancel.2.join .passive cancelPatience) with stage := .ended (.failed fault) }

def start (session : Session) (limit : Runner.Limit) (terminal : Bool) : FileRun :=
  submit { runner := { session, limit }, terminal } "RUN"

/-- The terminal has begun a new line itself when an answer was typed on it. -/
def lineRead (f : FileRun) : FileRun :=
  { f with console := if f.terminal then f.console.inputReceived else f.console.finishLine }

def isLineEnding (c : Char) : Bool := c == '\r' || c == '\n'

def feed (f : FileRun) : Answer → FileRun
  | .line text => f.lineRead.submit (.ofList (Text.trimEndBy isLineEnding text.toList))
  | .late => { f with stage := .closing }
  | .endOfInput =>
    let f := f.lineRead
    { f.update (f.runner.stop .passive).2 with stage := .closing }

def play (answers : List Answer) (f : FileRun) : Nat → FileRun
  | 0 => f
  | patience + 1 =>
    match f.want, answers with
    | .nothing, _ => f
    | .round, _ => play answers f.round patience
    | .answer, [] => play [] (f.feed .endOfInput) patience
    | .answer, a :: rest => play rest (f.feed a) patience

def outcome? (f : FileRun) : Option Runner.Outcome :=
  match f.stage with
  | .ended outcome => some outcome
  | _ => none

end FileRun

end LineBasic
