import LineBasic.Value.Basic

/-! Tokens of a program line. -/

namespace LineBasic

namespace Token

inductive Kind
  | string
  | number
  | print
  | goto
  | let
  | rem
  | cls
  | list
  | input
  | identifier
  | equal
  | plus
  | minus
  | star
  | slash
  | leftParen
  | rightParen
  | comma
  | semicolon
  | eof
deriving DecidableEq, Inhabited

namespace Kind

def all : List Kind := [string, number, print, goto, .let, rem, cls, list, input, identifier, equal,
  plus, minus, star, slash, leftParen, rightParen, comma, semicolon, eof]

def name : Kind → String
  | string => "STRING"
  | number => "NUMBER"
  | print => "PRINT"
  | goto => "GOTO"
  | .let => "LET"
  | rem => "REM"
  | cls => "CLS"
  | list => "LIST"
  | input => "INPUT"
  | identifier => "IDENTIFIER"
  | equal => "EQUAL"
  | plus => "PLUS"
  | minus => "MINUS"
  | star => "STAR"
  | slash => "SLASH"
  | leftParen => "LEFT_PAREN"
  | rightParen => "RIGHT_PAREN"
  | comma => "COMMA"
  | semicolon => "SEMICOLON"
  | eof => "EOF"

def ofName? (s : String) : Option Kind := all.find? (·.name == s)

def keywords : List Kind := [print, goto, .let, rem, cls, list, input]

/-- A capitalised word is a keyword if it spells one. -/
def ofWord (s : String) : Kind := (keywords.find? (·.name == s)).getD identifier

/-- Operators and punctuation, each a single character. -/
def ofMark? : Char → Option Kind
  | '(' => some leftParen
  | ')' => some rightParen
  | '=' => some equal
  | '+' => some plus
  | '-' => some minus
  | '*' => some star
  | '/' => some slash
  | ',' => some comma
  | ';' => some semicolon
  | _ => none

end Kind

end Token

/-- A token with the text it was read from (words in capitals), what that text stands for, and
its place. -/
structure Token where
  kind : Token.Kind
  lexeme : String
  literal : Value
  line : Int
  column : Int
deriving Inhabited

namespace Token

def listed (t : Token) : String :=
  let literal := if t.literal.isAbsent then "" else ", " ++ t.literal.listed
  "Token(" ++ t.kind.name ++ ", " ++ Text.quoted t.lexeme ++ literal ++ ")"

def same (a b : Token) : Bool :=
  a.kind == b.kind && a.lexeme == b.lexeme && a.literal.same b.literal && a.line == b.line &&
    a.column == b.column

/-- The end marker that stands behind the last token of a line. -/
def endMarker (line : Int) : Token := ⟨.eof, "", .absent, line, 0⟩

end Token

end LineBasic
