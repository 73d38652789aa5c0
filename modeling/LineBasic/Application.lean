import LineBasic.Arguments
import LineBasic.FileRun
import LineBasic.Text.Utf8

/-! The program as it is started from a shell: what its arguments and its environment lead to, how
a program file is loaded, and what goes on then. -/

namespace LineBasic.Application

inductive Plan
  | help
  | misuse (m : Arguments.Misuse)
  | badSettings (p : Settings.Problem)
  | interact (settings : Settings)
  | program (path : String) (run : Bool) (settings : Settings)

def configure (args : Arguments) (s : Settings) : Settings :=
  { s with
    inputTimeout := args.inputTimeout.getD s.inputTimeout
    prompt := (args.prompt.map Value.text).getD s.prompt
    logLevel := if args.verbose then .text "DEBUG" else s.logLevel }

def plan (argv : List String) (lookup : String → Option String) : Plan :=
  match Arguments.parse argv with
  | .error m => .misuse m
  | .ok .help => .help
  | .ok (.start args) =>
    match Settings.ofEnvironment lookup with
    | .error p => .badSettings p
    | .ok s =>
      match args.source with
      | none => .interact (configure args s)
      | some path => .program path args.run (configure args s)

def Plan.path? : Plan → Option String
  | .program path .. => some path
  | _ => none

inductive Refusal
  | unreadable (reason : String)
  | badPath
  | malformed (m : Text.Utf8.Malformed)
  | faulty (fault : Fault)

/-- The user is told of files that cannot be opened and of programs with a bad line. -/
def Refusal.report? (path : String) : Refusal → Option String
  | .unreadable reason => some ("cannot read " ++ path ++ ": " ++ reason)
  | .faulty (.told d) => some (path ++ ": " ++ d.report none)
  | .faulty _ | .malformed _ | .badPath => none

def Refusal.message? : Refusal → Option String
  | .unreadable _ => none
  | .badPath => some "embedded null byte"
  | .malformed m => some m.message
  | .faulty fault => fault.message?

abbrev Contents := Except String (List UInt8)

def readText (contents : Contents) : Except Refusal String :=
  match contents with
  | .error reason => .error (.unreadable reason)
  | .ok bytes =>
    match Text.Utf8.decode bytes with
    | .error m => .error (.malformed m)
    | .ok text => .ok (.ofList (Text.unifyNewlines text.toList))

/-- A session with the program of a file. No path has a null character in it. -/
def load (path : String) (contents : Contents) : Except Refusal Session := do
  if path.toList.contains '\x00' then throw .badPath
  let text ← readText contents
  match Session.load text { echo := false } with
  | .ok _ session => return session
  | .error fault _ => throw (.faulty fault)

structure Report where
  exitCode : Nat
  output : String := ""
  errors : String := ""

def complaint (message : String) : String := "mybasic: " ++ message ++ "\n"

inductive Activity
  | ended (report : Report)
  | escaped (refusal : Refusal)
  | interactive (repl : Repl)
  | batch (run : FileRun)

def interactive (settings : Settings) (session : Session) : Activity :=
  .interactive (Repl.start settings session {})

def begin (p : Plan) (contents : Contents) (terminal : Bool) : Activity :=
  match p with
  | .help => .ended { exitCode := 0, output := Arguments.help }
  | .misuse m =>
    .ended { exitCode := 2, errors := Arguments.usage ++ complaint ("error: " ++ m.message) }
  | .badSettings p => .ended { exitCode := 2, errors := complaint p.message }
  | .interact settings => interactive settings { echo := false }
  | .program path run settings =>
    match load path contents with
    | .ok session =>
      if run then .batch (FileRun.start session (.ofValue settings.inputTimeout) terminal)
      else interactive settings session
    | .error refusal =>
      match refusal.report? path with
      | some message => .ended { exitCode := 1, errors := complaint message }
      | none => .escaped refusal

end LineBasic.Application
