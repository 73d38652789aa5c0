import LineBasic.Tree.Outline

/-! Statement and expression trees. Lines that were read from text assign to variables only and
never hold a foreign node or an operator other than the four; trees that a caller builds may. -/

namespace LineBasic

inductive Operator
  | add
  | sub
  | mul
  | div
  | other (name : String)
deriving DecidableEq

namespace Operator

def name : Operator → String
  | add => "+"
  | sub => "-"
  | mul => "*"
  | div => "/"
  | other name => name

def ofName (s : String) : Operator :=
  if s = "+" then add else if s = "-" then sub else if s = "*" then mul else if s = "/" then div
  else other s

end Operator

inductive Expr
  | literal (value : Value)
  | var (name : String)
  | binary (left : Expr) (operator : Operator) (right : Expr)
  | grouping (inner : Expr)
  | foreign (shape : Outline)
deriving Inhabited

inductive Stmt
  | print (value : Expr)
  | goto (target : Int)
  | assign (target value : Expr)
  | rem (comment : String)
  | cls
  | input (prompt : Option Expr) (target : Expr)
  | foreign (shape : Outline)
deriving Inhabited

namespace Expr

def outline : Expr → Outline
  | literal v => .record "LiteralExpression" [("value", .value v)]
  | var name => .record "VariableExpression" [("name", .value (.text name))]
  | binary left op right => .record "BinaryExpression"
      [("left", left.outline), ("operator", .value (.text op.name)), ("right", right.outline)]
  | grouping inner => .record "GroupingExpression" [("inner", inner.outline)]
  | foreign shape => shape

def typeName (e : Expr) : String := e.outline.typeName

/-- The name of a variable. -/
def name? : Expr → Option String
  | var name => some name
  | _ => none

end Expr

namespace Stmt

def outline : Stmt → Outline
  | print value => .record "PrintStatement" [("value", value.outline)]
  | goto target => .record "GotoStatement" [("target_line", .value (.integer target))]
  | assign target value => .record "LetStatement"
      [("variable", target.outline), ("value", value.outline)]
  | rem comment => .record "RemStatement" [("comment", .value (.text comment))]
  | cls => .record "ClsStatement" []
  | input prompt target => .record "InputStatement"
      [("prompt", (prompt.map Expr.outline).getD (.value .absent)),
       ("variable", target.outline)]
  | foreign shape => shape

end Stmt

/-- A name that ends in a dollar sign is the name of a text. -/
def isTextName (name : String) : Bool := name.toList.getLast? == some '$'

end LineBasic
