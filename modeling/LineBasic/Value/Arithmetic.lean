import LineBasic.Fault
import LineBasic.Number.Numeral

/-! Operations on values: what `PRINT` writes, what a variable keeps, what an answer is worth, and
division. -/

namespace LineBasic.Value

/-- Whole numbers are subject to the range of floats even where they are shown in full. -/
def printed : Value → Except Fault String
  | text s => .ok s
  | number x => .ok (Number.printed x)
  | absent => .error .wrongType
  | v => match v.integer? with
    | some n => if (Number.ofInt? n).isSome then .ok (toString n) else .error .outOfRange
    | none => .error .wrongType

/-- Variables keep texts and floats only. -/
def kept : Value → Except Fault Value
  | text s => .ok (text s)
  | number x => .ok (number x)
  | absent => .error .wrongType
  | v => match v.integer?.bind Number.ofInt? with
    | some x => .ok (number x)
    | none => .error .outOfRange

/-- The leading number of a typed answer, or zero. -/
def ofAnswer (s : String) : Except Fault Float :=
  match Number.leading? s.toList with
  | none => .ok 0.0
  | some cs =>
    match Number.read? (.ofList cs) with
    | some x => .ok x
    | none => .error (.unreadableNumber (.ofList cs))

/-- The float nearest to a quotient of whole numbers, negative if just one of the two is. -/
def quotient (n m : Int) : Except Fault Value :=
  if m = 0 then
    if n = 0 then .ok (number Number.notANumber)
    else if (Number.ofInt? n).isNone then .error .outOfRange
    else .ok (number (Number.infinity (n < 0)))
  else if Number.nearestBits n.natAbs m.natAbs = Number.infinityBits then .error .outOfRange
  else .ok (number (Number.nearest ((n < 0) ≠ (m < 0)) n.natAbs m.natAbs))

def toFloat : Value → Except Fault Float
  | number x => .ok x
  | v => match v.integer? with
    | none => .error .wrongType
    | some n => match Number.ofInt? n with
      | some x => .ok x
      | none => .error .outOfRange

/-- Division never faults on a zero divisor: it gives an infinity, or no number for zero by
zero. -/
def divide (a b : Value) : Except Fault Value :=
  match a.integer?, b.integer? with
  | some n, some m => quotient n m
  | _, _ => do
    match a, b with
    | text _, _ | _, text _ | absent, _ | _, absent => throw .wrongType
    | _, _ =>
      let x ← a.toFloat
      let y ← b.toFloat
      return number (x / y)

theorem divide_number (x y : Float) : divide (number x) (number y) = .ok (number (x / y)) := rfl

end LineBasic.Value
