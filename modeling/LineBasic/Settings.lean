import LineBasic.Number.Numeral
import LineBasic.Text.Upper
import LineBasic.Value.Basic

/-! Settings of the command loop and of program runs. They come from environment variables, where
they are checked, and may be overridden by any value, which is not. -/

namespace LineBasic

structure Settings where
  banner : Value := .text "My-BASIC 1.0"
  prompt : Value := .text "> "
  logLevel : Value := .text "WARNING"
  /-- The seconds that an `INPUT` waits, absent if it waits for ever. -/
  inputTimeout : Value := .absent

namespace Settings

inductive Problem
  | unknownLogLevel (name : String)
  | invalidTimeout (text : String)
  | timeoutNotPositive (text : String)

def Problem.message : Problem → String
  | unknownLogLevel name => "Unknown log level: " ++ Text.quoted name
  | invalidTimeout text => "Invalid input timeout: " ++ Text.quoted text
  | timeoutNotPositive text => "Input timeout must be positive, got " ++ Text.quoted text

def logLevels : List String :=
  ["CRITICAL", "FATAL", "ERROR", "WARNING", "WARN", "INFO", "DEBUG", "NOTSET"]

def readLogLevel (name : String) : Except Problem String :=
  let level := Text.upper (Text.trim name)
  if level ∈ logLevels then .ok level else .error (.unknownLogLevel name)

def readTimeout (text : String) : Except Problem Float :=
  match Number.read? text with
  | none => .error (.invalidTimeout text)
  | some x => if x ≤ 0 then .error (.timeoutNotPositive text) else .ok x

/-- The settings that the environment asks for. An empty timeout counts as none. -/
def ofEnvironment (lookup : String → Option String) : Except Problem Settings := do
  let defaults : Settings := {}
  let logLevel ← match lookup "MYBASIC_LOG_LEVEL" with
    | some name => (readLogLevel name).map Value.text
    | none => pure defaults.logLevel
  let inputTimeout ← match lookup "MYBASIC_INPUT_TIMEOUT" with
    | none | some "" => pure Value.absent
    | some text => (readTimeout text).map Value.number
  return {
    banner := ((lookup "MYBASIC_BANNER").map Value.text).getD defaults.banner
    prompt := ((lookup "MYBASIC_PROMPT").map Value.text).getD defaults.prompt
    logLevel
    inputTimeout }

def replace? (s : Settings) (name : String) (v : Value) : Option Settings :=
  match name with
  | "banner" => some { s with banner := v }
  | "prompt" => some { s with prompt := v }
  | "log_level" => some { s with logLevel := v }
  | "input_timeout" => some { s with inputTimeout := v }
  | _ => none

def ofEntries? (entries : List (String × Value)) : Option Settings :=
  entries.foldlM (fun s entry => s.replace? entry.1 entry.2) {}

/-- Replaces one setting by name, where an absent value changes nothing. -/
def override? (s : Settings) (name : String) (v : Value) : Option Settings :=
  if v.isAbsent then some s else s.replace? name v

end Settings

end LineBasic
