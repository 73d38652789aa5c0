import LineBasic.Text.Upper
import LineBasic.Token.Basic

/-! Faults. A diagnostic is what the user is told, as `?MESSAGE IN line`; the other faults end the
call that met them. -/

namespace LineBasic

inductive Cause
  | unterminatedString
  | unexpectedCharacter (c : Char)
  | expectedKind (kinds : List Token.Kind) (got : Token)
  | expectedExpression (got : Token)
  | expectedTarget (got : Token)
  | unknownStatement (got : Token)
  | trailing (got : Token)
  | nestedTooDeeply
  | unknownCommand (code : String)
  | lineNotPositive (number : Int)
  | typeMismatch
  | undefinedLine
  | editWhileRunning
  | badProgramLine (text : String)
  | notWaiting
  | halted (message : String)

inductive Category
  | general
  | lexical
  | grammar
  | runtime
  | usage
deriving DecidableEq, Inhabited

def Category.name : Category → String
  | general => "BasicError"
  | lexical => "LexError"
  | grammar => "BasicSyntaxError"
  | runtime => "BasicRuntimeError"
  | usage => "UsageError"

def Category.all : List Category := [general, lexical, grammar, runtime, usage]

/-- The message of a grammar fault that does not bring its own. -/
def Category.grammarMessage : String := "SYNTAX ERROR"

namespace Cause

def category : Cause → Category
  | unterminatedString | unexpectedCharacter _ => .lexical
  | expectedKind .. | expectedExpression _ | expectedTarget _ | unknownStatement _ | trailing _
  | nestedTooDeeply | unknownCommand _ | lineNotPositive _ => .grammar
  | typeMismatch | undefinedLine | halted _ => .runtime
  | editWhileRunning | badProgramLine _ | notWaiting => .usage

def wording : Cause → String
  | unterminatedString => "UNTERMINATED STRING"
  | unexpectedCharacter c => "UNEXPECTED CHARACTER '" ++ String.singleton c ++ "'"
  | expectedKind .. | expectedExpression _ | expectedTarget _ | unknownStatement _ | trailing _
  | nestedTooDeeply | unknownCommand _ | lineNotPositive _ => Category.grammarMessage
  | typeMismatch => "TYPE MISMATCH"
  | undefinedLine => "UNDEFINED LINE NUMBER"
  | editWhileRunning => "CANNOT EDIT WHILE RUNNING"
  | badProgramLine text => "BAD PROGRAM LINE: " ++ text
  | notWaiting => "NOT WAITING FOR INPUT"
  | halted message => message

def detail? : Cause → Option String
  | expectedKind kinds got =>
    let names := ", ".intercalate (kinds.map fun k => Text.quoted k.name)
    some ("Expected one of [" ++ names ++ "], got " ++ got.listed)
  | expectedExpression got => some ("Expected expression, got " ++ got.listed)
  | expectedTarget got =>
    some ("GOTO target must be a positive line number, got " ++ got.listed)
  | unknownStatement got => some ("Unknown statement starting with " ++ got.listed)
  | trailing got => some ("Unexpected trailing token " ++ got.listed)
  | nestedTooDeeply => some "expression nested too deeply"
  | unknownCommand code => some ("Unknown command " ++ Text.quoted code)
  | lineNotPositive number => some ("Line number must be positive, got " ++ toString number)
  | _ => none

end Cause

/-- A message for the user, with the program line it belongs to. Messages are in capitals. -/
structure Diagnostic where
  category : Category
  message : String
  line : Option Int
  detail : Option String

namespace Diagnostic

def make (category : Category) (message : String) (line : Option Int) (detail : Option String) :
    Diagnostic := ⟨category, Text.upper message, line, detail⟩

def of (cause : Cause) (line : Option Int) : Diagnostic :=
  make cause.category cause.wording line cause.detail?

/-- The line shown is the one given, or else the diagnostic's own. -/
def report (d : Diagnostic) (line : Option Int) : String :=
  match line <|> d.line with
  | some n => "?" ++ d.message ++ " IN " ++ toString n
  | none => "?" ++ d.message

def listed (d : Diagnostic) : String :=
  let line := match d.line with
    | some n => toString n
    | none => "None"
  d.category.name ++ "(" ++ Text.quoted d.message ++ ", line=" ++ line ++ ")"

end Diagnostic

inductive Fault
  | told (d : Diagnostic)
  | longNumeral (digits : Nat)
  | unreadableNumber (text : String)
  | unknownExpression (shown : String)
  | unknownStatement (shown : String)
  | unknownOperator (name : String)
  | missingLine (number : Int)
  | pastEnd (position line : Int)
  | noCharacter
  | noToken
  | noAttribute (typeName member : String)
  | wrongType
  | outOfRange

namespace Fault

/-- The most digits a line number may have. -/
def digitLimit : Nat := 4300

def message? : Fault → Option String
  | told d => some d.message
  | longNumeral digits =>
    some ("Exceeds the limit (" ++ toString digitLimit ++ " digits) for integer string conversion: "
      ++ "value has " ++ toString digits ++ " digits; use sys.set_int_max_str_digits() to increase "
      ++ "the limit")
  | unreadableNumber text => some ("could not convert string to float: " ++ Text.quoted text)
  | unknownExpression shown => some ("unknown expression kind: " ++ shown)
  | unknownStatement shown => some ("unknown statement kind: " ++ shown)
  | unknownOperator name => some ("unknown operator: " ++ Text.quoted name)
  | missingLine number => some (toString number)
  | pastEnd position line =>
    some ("CharacterStreamError: Attempted to read past end of source at position=<"
      ++ toString position ++ ">, line=<" ++ toString line ++ ">")
  | noCharacter => some "string index out of range"
  | noToken => some "list index out of range"
  | noAttribute typeName member =>
    some ("'" ++ typeName ++ "' object has no attribute '" ++ member ++ "'")
  | wrongType | outOfRange => none

def because (cause : Cause) : Fault := told (.of cause none)

end Fault

end LineBasic
