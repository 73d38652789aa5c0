import LineBasic.Variables

/-! The value of an expression. Arithmetic is on floats only; a mismatch shows before an unknown
operator does, and both operands are evaluated first. How deep the evaluation of a tree can descend
is not modelled: a tree of any depth has its value. -/

namespace LineBasic

def Operator.apply (op : Operator) (x y : Float) : Except Fault Value :=
  match op with
  | .add => .ok (.number (x + y))
  | .sub => .ok (.number (x - y))
  | .mul => .ok (.number (x * y))
  | .div => Value.divide (.number x) (.number y)
  | .other name => .error (.unknownOperator name)

def Operator.onValues (op : Operator) : Value → Value → Except Fault Value
  | .number x, .number y => op.apply x y
  | _, _ => .error (.because .typeMismatch)

namespace Expr

def eval (vars : Variables) : Expr → Except Fault Value
  | literal v => .ok v
  | var name => .ok (vars.get name)
  | grouping inner => inner.eval vars
  | binary left op right => do
    let v ← left.eval vars
    let w ← right.eval vars
    op.onValues v w
  | foreign shape => .error (.unknownExpression shape.listed)

end Expr

end LineBasic
