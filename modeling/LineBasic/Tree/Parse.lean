import LineBasic.Token.Scan
import LineBasic.Tree.Basic

/-! Reading trees off a row of tokens.

    statement  := PRINT sum | GOTO NUMBER | [LET] IDENTIFIER = sum | REM [STRING] | CLS
                | INPUT [sum (, | ;)] IDENTIFIER
    sum        := product ((+ | -) product)*
    product    := primary ((* | /) primary)*
    primary    := STRING | NUMBER | IDENTIFIER | ( sum )

An expression is read in one pass. What waits for an operand is kept beside it: the left side of
an open sum and of an open product, once for each open parenthesis. -/

namespace LineBasic.Parse

structure Refusal where
  cause : Cause
  rest : List Token

abbrev Parsed := Except Refusal

def current (line : Int) : List Token → Token
  | [] => .endMarker line
  | t :: _ => t

def expect (line : Int) (kinds : List Token.Kind) (ts : List Token) :
    Parsed (Token × List Token) :=
  let t := current line ts
  if t.kind ∈ kinds then .ok (t, ts.tail) else .error ⟨.expectedKind kinds t, ts⟩

def productOperator? : Token.Kind → Option Operator
  | .star => some .mul
  | .slash => some .div
  | _ => none

def sumOperator? : Token.Kind → Option Operator
  | .plus => some .add
  | .minus => some .sub
  | _ => none

structure Pending where
  sum : Option (Expr × Operator) := none
  product : Option (Expr × Operator) := none

namespace Pending

def factor (p : Pending) (e : Expr) : Expr :=
  match p.product with
  | none => e
  | some (left, op) => .binary left op e

def total (p : Pending) (e : Expr) : Expr :=
  match p.sum with
  | none => p.factor e
  | some (left, op) => .binary left op (p.factor e)

end Pending

inductive Level
  | primary
  | product
  | sum
deriving DecidableEq

inductive Mode
  | operand
  | operator (e : Expr)

/-- Reads on from a place inside an expression. Of a level other than `sum`, the operators that
bind less tightly are left to the caller unless a parenthesis is open. -/
def readExpr (line : Int) (level : Level) (mode : Mode) (here : Pending) (outer : List Pending) :
    List Token → Parsed (Expr × List Token)
  | [] =>
    match mode, outer with
    | .operand, _ => .error ⟨.expectedExpression (.endMarker line), []⟩
    | .operator e, [] => .ok (here.total e, [])
    | .operator _, _ :: _ => .error ⟨.expectedKind [.rightParen] (.endMarker line), []⟩
  | t :: ts =>
    match mode with
    | .operand =>
      match t.kind with
      | .string | .number => readExpr line level (.operator (.literal t.literal)) here outer ts
      | .identifier => readExpr line level (.operator (.var t.lexeme)) here outer ts
      | .leftParen => readExpr line level .operand {} (here :: outer) ts
      | _ => .error ⟨.expectedExpression t, t :: ts⟩
    | .operator e =>
      match productOperator? t.kind, outer.isEmpty && level == .primary with
      | some op, false =>
        readExpr line level .operand { here with product := some (here.factor e, op) } outer ts
      | _, _ =>
        match sumOperator? t.kind, outer.isEmpty && level != .sum with
        | some op, false =>
          readExpr line level .operand { sum := some (here.total e, op) } outer ts
        | _, _ =>
          match outer with
          | [] => .ok (here.total e, t :: ts)
          | before :: outer =>
            if t.kind = .rightParen then
              readExpr line level (.operator (.grouping (here.total e))) before outer ts
            else .error ⟨.expectedKind [.rightParen] t, t :: ts⟩

def primary (line : Int) (ts : List Token) : Parsed (Expr × List Token) :=
  readExpr line .primary .operand {} [] ts

def product (line : Int) (ts : List Token) : Parsed (Expr × List Token) :=
  readExpr line .product .operand {} [] ts

def expression (line : Int) (ts : List Token) : Parsed (Expr × List Token) :=
  readExpr line .sum .operand {} [] ts

def target? : Value → Option Int
  | .number x => (Number.shape x).integer?.filter (0 < ·)
  | _ => none

def jump (line : Int) (ts : List Token) : Parsed (Stmt × List Token) := do
  let (t, ts) ← expect line [.number] ts
  match target? t.literal with
  | some n => return (.goto n, ts)
  | none => throw ⟨.expectedTarget t, ts⟩

def assignment (line : Int) (ts : List Token) : Parsed (Stmt × List Token) := do
  let (name, ts) ← expect line [.identifier] ts
  let (_, ts) ← expect line [.equal] ts
  let (value, ts) ← expression line ts
  return (.assign (.var name.lexeme) value, ts)

def commentText : Value → String
  | .text s => s
  | v => v.listed

def remark : List Token → Stmt × List Token
  | t :: ts => if t.kind = .string then (.rem (commentText t.literal), ts) else (.rem "", t :: ts)
  | [] => (.rem "", [])

/-- A single name after `INPUT` is the variable to fill; anything else is a prompt. -/
def isBareTarget (line : Int) (ts : List Token) : Bool :=
  (current line ts).kind = .identifier && (current line ts.tail).kind = .eof

def prompt (line : Int) (ts : List Token) : Parsed (Option Expr × List Token) := do
  if isBareTarget line ts then return (none, ts)
  let (e, ts) ← expression line ts
  let (_, ts) ← expect line [.comma, .semicolon] ts
  return (some e, ts)

def request (line : Int) (ts : List Token) : Parsed (Stmt × List Token) := do
  let (prompt, ts) ← prompt line ts
  let (name, ts) ← expect line [.identifier] ts
  return (.input prompt (.var name.lexeme), ts)

def statement (line : Int) (ts : List Token) : Parsed (Stmt × List Token) :=
  let t := current line ts
  match t.kind with
  | .print => do
    let (value, ts) ← expression line ts.tail
    return (.print value, ts)
  | .goto => jump line ts.tail
  | .let => assignment line ts.tail
  | .identifier => assignment line ts
  | .rem => .ok (remark ts.tail)
  | .cls => .ok (.cls, ts.tail)
  | .input => request line ts.tail
  | _ => .error ⟨.unknownStatement t, ts⟩

def whole (line : Int) (ts : List Token) : Parsed (Stmt × List Token) := do
  let (s, ts) ← statement line ts
  let t := current line ts
  if t.kind = .eof then return (s, ts) else throw ⟨.trailing t, ts⟩

def lineOf : List Token → Int
  | [] => 0
  | t :: _ => t.line

def parse (ts : List Token) : Except Diagnostic Stmt :=
  match whole (lineOf ts) ts with
  | .ok (s, _) => .ok s
  | .error refusal => .error (.of refusal.cause (some (lineOf ts)))

def nesting (ts : List Token) : Nat := go 0 0 ts
where
  go (here deepest : Nat) : List Token → Nat
    | [] => deepest
    | t :: ts =>
      match t.kind with
      | .leftParen => go (here + 1) (max deepest (here + 1)) ts
      | .rightParen => go (here - 1) deepest ts
      | _ => go here deepest ts

/-- The statement on a program line. One with more than `depth` parentheses inside one another is
refused. -/
def compileLine (depth : Nat) (code : String) (line : Int) : Except Diagnostic Stmt := do
  let ts ← Token.scan code line
  if depth < nesting ts then throw (.of .nestedTooDeeply (some line))
  parse ts

end LineBasic.Parse
