import LineBasic.Program
import LineBasic.Session.Event
import LineBasic.Tree.Eval

/-! Sessions: a stored program, its compiled form, its variables, and how far a run has come. A call on
a session keeps what was changed before it met a fault. -/

namespace LineBasic

inductive Phase
  | idle
  | compiling
  | executing
  | awaiting
deriving DecidableEq, Inhabited

structure Pending where
  target : Expr
  line : Int
  next : Nat

inductive Action
  | stop (message : Option String)
  | deliver (text : String)
  | step
  | run

/-- A host's reaction to events of a kind, and of a text if one is given. -/
structure Reaction where
  kind : Event.Kind
  text : Option String
  actions : List Action
  times : Nat

structure Session where
  program : Program := []
  compiled : Numbered Stmt := []
  vars : Variables := {}
  phase : Phase := .idle
  pending : Option Pending := none
  /-- The place in `order` of the statement to execute next. -/
  pc : Nat := 0
  order : Array Int := #[]
  stopRequested : Bool := false
  stepping : Bool := false
  stopReport : Option String := none
  echo : Bool := true
  /-- How deep the parentheses of a line may be nested. It stands for the room that is left to the
  parser where the session is used, and nothing rests on its value. -/
  depth : Nat := 240
  events : Array Event := #[]
  script : List Reaction := []

namespace Session

abbrev Act := EStateM Fault Session

/-- Who a session tells its events, and what happens inside that call. -/
structure Host where
  respond : Event → Act Unit

def Host.passive : Host := ⟨fun _ => pure ()⟩

def running (s : Session) : Bool := s.phase = .executing || s.phase = .awaiting

def currentLine (s : Session) : Option Int :=
  match s.phase, s.pending with
  | .awaiting, some pending => some pending.line
  | .awaiting, none | .executing, _ => s.order[s.pc]?
  | _, _ => none

def record (s : Session) (e : Event) : Session := { s with events := s.events.push e }

def emit (host : Host) (e : Event) : Act Unit := do
  modify (record · e)
  host.respond e

def ready : Event := .line "Ready"

def ofExcept {α : Type} : Except Fault α → Act α
  | .ok a => pure a
  | .error fault => throw fault

def fail {α : Type} (cause : Cause) : Act α := throw (.because cause)

def nameOf (target : Expr) (member : String) : Except Fault String :=
  match target.name? with
  | some name => .ok name
  | none => .error (.noAttribute target.typeName member)

def Pending.name (pending : Pending) : Except Fault String := nameOf pending.target "name"

def ensuring {α : Type} (act : Act α) (change : Session → Session) : Act α := fun s =>
  match act s with
  | .ok a s => .ok a (change s)
  | .error fault s => .error fault (change s)

/-- Hands a diagnostic on to `report`; other faults pass. -/
def reporting {α : Type} (act : Act α) (report : Diagnostic → Act α) : Act α := fun s =>
  match act s with
  | .ok a s => .ok a s
  | .error (.told d) s => report d s
  | .error fault s => .error fault s

end Session

end LineBasic
