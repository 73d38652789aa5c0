import LineBasic.Settings

/-! Command line arguments: options, which may be abbreviated and run together, and the name of a
program file. -/

namespace LineBasic

structure Arguments where
  source : Option String := none
  run : Bool := false
  inputTimeout : Option Value := none
  prompt : Option String := none
  verbose : Bool := false

namespace Arguments

inductive Flag
  | help
  | run
  | inputTimeout
  | prompt
  | verbose
deriving DecidableEq

namespace Flag

def names : Flag → List String
  | help => ["-h", "--help"]
  | run => ["-r", "--run"]
  | inputTimeout => ["--input-timeout"]
  | prompt => ["--prompt"]
  | verbose => ["--verbose"]

def takesValue : Flag → Bool
  | inputTimeout | prompt => true
  | _ => false

def all : List Flag := [help, run, inputTimeout, prompt, verbose]

def title (f : Flag) : String := "/".intercalate f.names

def table : List (String × Flag) := all.flatMap fun f => f.names.map fun n => (n, f)

end Flag

inductive Misuse
  | ambiguous (arg : String) (names : List String)
  | missingValue (flag : Flag)
  | unusedValue (flag : Flag) (value : String)
  | invalidValue (flag : Flag) (value : String)
  | unrecognized (args : List String)

def Misuse.message : Misuse → String
  | ambiguous arg names =>
    "ambiguous option: " ++ arg ++ " could match " ++ ", ".intercalate names
  | missingValue flag => "argument " ++ flag.title ++ ": expected one argument"
  | unusedValue flag value =>
    "argument " ++ flag.title ++ ": ignored explicit argument " ++ Text.quoted value
  | invalidValue flag value =>
    "argument " ++ flag.title ++ ": invalid parse_timeout value: " ++ Text.quoted value
  | unrecognized args => "unrecognized arguments: " ++ " ".intercalate args

/-- What an argument looks like before any is taken. -/
inductive Shape
  | plain
  | separator
  | option (name : String) (flag : Flag) (value : Option String)
  | unknown

/-- A name and the value behind its first equals sign. -/
def splitValue (arg : String) : String × Option String :=
  let cs := arg.toList
  match cs.dropWhile (· ≠ '=') with
  | [] => (arg, none)
  | _ :: value => (.ofList (cs.takeWhile (· ≠ '=')), some (.ofList value))

def startsWith (arg text : String) : Bool := text.toList.isPrefixOf arg.toList

/-- The options that an argument may abbreviate, or that it runs together with a value. -/
def candidates (arg : String) : List (String × Flag × Option String) :=
  if startsWith arg "--" then
    let (name, value) := splitValue arg
    Flag.table.filterMap fun (n, f) => if startsWith n name then some (n, f, value) else none
  else
    let short := String.ofList (arg.toList.take 2)
    let tail := String.ofList (arg.toList.drop 2)
    Flag.table.filterMap fun (n, f) =>
      if n = short then some (n, f, some tail)
      else if startsWith n arg then some (n, f, none)
      else none

/-- A minus sign before digits, or before a point with digits behind it. -/
def isNegativeNumber (arg : String) : Bool :=
  match arg.toList with
  | '-' :: cs =>
    match cs.dropWhile Text.isDigit with
    | [] => !cs.isEmpty
    | ['\n'] => cs.length ≠ 1
    | '.' :: ds => !ds.isEmpty && ((ds.dropWhile Text.isDigit).isEmpty ||
        (ds.length ≠ 1 && ds.dropWhile Text.isDigit = ['\n']))
    | _ => false
  | _ => false

def shape (arg : String) : Except Misuse Shape :=
  if !startsWith arg "-" || arg = "-" then .ok .plain
  else match Flag.table.lookup arg with
    | some f => .ok (.option arg f none)
    | none =>
      match splitValue arg with
      | (name, some value) =>
        match Flag.table.lookup name with
        | some f => .ok (.option name f (some value))
        | none => guess
      | (_, none) => guess
where
  guess : Except Misuse Shape :=
    match candidates arg with
    | [(name, f, value)] => .ok (.option name f value)
    | [] => .ok (if isNegativeNumber arg || arg.toList.contains ' ' then .plain else .unknown)
    | several => .error (.ambiguous arg (several.map (·.1)))

/-- Behind a separator every argument is plain. -/
def shapes : List String → Except Misuse (List (String × Shape))
  | [] => .ok []
  | "--" :: rest => .ok (("--", .separator) :: rest.map fun arg => (arg, .plain))
  | arg :: rest => do
    let s ← shape arg
    return (arg, s) :: (← shapes rest)

/-- The flags of one argument, with the value of the last one. Single letters may be run together
if they take no value. -/
def flagsOf (name : String) (flag : Flag) :
    List Char → Except Misuse (List (Flag × Option String))
  | [] => if flag.takesValue then .ok [(flag, some "")] else .error (.unusedValue flag "")
  | c :: cs =>
    let value := String.ofList (c :: cs)
    if flag.takesValue then .ok [(flag, some value)]
    else if startsWith name "--" then .error (.unusedValue flag value)
    else
      let next := String.ofList ['-', c]
      match Flag.table.lookup next with
      | none => .error (.unusedValue flag value)
      | some f =>
        if cs.isEmpty then .ok [(flag, none), (f, none)]
        else (flagsOf next f cs).map ((flag, none) :: ·)

inductive Request
  | help
  | start (args : Arguments)

/-- The arguments taken so far, with those that nothing was found for. -/
structure Taken where
  args : Arguments := {}
  sourceTaken : Bool := false
  extras : List String := []

/-- What is left of a value that consists of the separator: a row of no values. -/
def noValues : String := "[]"

def Taken.set (t : Taken) (flag : Flag) (value : String) : Except Misuse Taken :=
  match flag with
  | .help => .ok t
  | .run => .ok { t with args := { t.args with run := true } }
  | .verbose => .ok { t with args := { t.args with verbose := true } }
  | .prompt =>
    let prompt := if value = "--" then noValues else value
    .ok { t with args := { t.args with prompt := some prompt } }
  | .inputTimeout =>
    if value = "--" then
      .ok { t with args := { t.args with inputTimeout := some (.text noValues) } }
    else match Settings.readTimeout value with
      | .ok x => .ok { t with args := { t.args with inputTimeout := some (.number x) } }
      | .error _ => .error (.invalidValue flag value)

/-- Takes the flags in their order; help comes before all that follows it. -/
def Taken.setAll (t : Taken) : List (Flag × Option String) → Except Misuse (Option Taken)
  | [] => .ok (some t)
  | (.help, _) :: _ => .ok none
  | (flag, value) :: rest => do (← t.set flag (value.getD "")).setAll rest

/-- The first plain argument is the source, and separators around it are dropped. -/
def take (t : Taken) : List (String × Shape) → Except Misuse Request
  | [] =>
    if t.extras.isEmpty then .ok (.start t.args) else .error (.unrecognized t.extras.reverse)
  | (arg, .unknown) :: rest => take { t with extras := arg :: t.extras } rest
  | (_, .option name flag (some value)) :: rest => do
    match ← t.setAll (← flagsOf name flag value.toList) with
    | some t => take t rest
    | none => return .help
  | (_, .option _ flag none) :: (value, next) :: rest => do
    if flag.takesValue then
      match next with
      | .plain =>
        let t ← t.set flag value
        take t rest
      | _ => throw (.missingValue flag)
    else
      match ← t.setAll [(flag, none)] with
      | some t => take t ((value, next) :: rest)
      | none => return .help
  | [(_, .option _ flag none)] => do
    if flag.takesValue then throw (.missingValue flag)
    match ← t.setAll [(flag, none)] with
    | some t => take t []
    | none => return .help
  | ("--", .separator) :: (arg, .plain) :: rest =>
    if t.sourceTaken then take { t with extras := arg :: "--" :: t.extras } rest
    else take { t with args := { t.args with source := some arg }, sourceTaken := true } rest
  | (arg, .separator) :: rest =>
    if t.sourceTaken then take { t with extras := arg :: t.extras } rest
    else take { t with sourceTaken := true } rest
  | (arg, .plain) :: ("--", .separator) :: rest =>
    if t.sourceTaken then take { t with extras := arg :: t.extras } (("--", .separator) :: rest)
    else take { t with args := { t.args with source := some arg }, sourceTaken := true } rest
  | (arg, .plain) :: rest =>
    if t.sourceTaken then take { t with extras := arg :: t.extras } rest
    else take { t with args := { t.args with source := some arg }, sourceTaken := true } rest

def parse (argv : List String) : Except Misuse Request := do take {} (← shapes argv)

def usage : String :=
  "usage: mybasic [-h] [-r] [--input-timeout SECONDS] [--prompt PROMPT]\n" ++
  "               [--verbose]\n" ++
  "               [source]\n"

def help : String := usage ++
  "\nLine-numbered BASIC interpreter\n" ++
  "\npositional arguments:\n" ++
  "  source                Program file to load\n" ++
  "\noptions:\n" ++
  "  -h, --help            show this help message and exit\n" ++
  "  -r, --run             Run the program instead of opening the REPL\n" ++
  "  --input-timeout SECONDS\n" ++
  "                        Stop the program if INPUT waits longer than this (with\n" ++
  "                        --run)\n" ++
  "  --prompt PROMPT       REPL prompt\n" ++
  "  --verbose             Debug logging\n"

end Arguments

end LineBasic
