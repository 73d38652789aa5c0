import LineBasic.Number.Binary

/-! The shortest decimal that reads back as a given float, and of those the nearest to it. -/

namespace LineBasic.Number

/-- A positive float `m * 2 ^ q` as a fraction, with the ends of the interval of numbers that
round to it, all three over `4 * den`. -/
structure Band where
  low : Nat
  value : Nat
  high : Nat
  den : Nat
  closed : Bool

/-- The gap below a power of two is half the gap above it. -/
def band (m : Nat) (q : Int) : Band where
  low := (4 * m - if m = pow2 52 ∧ -1074 < q then 1 else 2) * pow2 q.toNat
  value := 4 * m * pow2 q.toNat
  high := (4 * m + 2) * pow2 q.toNat
  den := 4 * pow2 (-q).toNat
  closed := m % 2 == 0

def decimalSize (n : Nat) : Nat := (Nat.toDigits 10 n).length

/-- The power of ten of the leading digit of `num / den`. -/
def leadingPower (num den : Nat) : Int :=
  if den ≤ num then decimalSize (num / den) - 1 else -(decimalSize ((den - 1) / num))

/-- Whether `digits * 10 ^ e` lies in the interval. -/
def Band.holds (b : Band) (digits : Nat) (e : Int) : Bool :=
  let x := digits * pow10 e.toNat * b.den
  let low := b.low * pow10 (-e).toNat
  let high := b.high * pow10 (-e).toNat
  if b.closed then low ≤ x && x ≤ high else low < x && x < high

/-- Of the two neighbours of the value on the grid of multiples of `10 ^ e`, the one in the
interval; of two, the nearer, and the even one of two equally near. -/
def Band.onGrid? (b : Band) (e : Int) : Option (Nat × Int) :=
  let num := b.value * pow10 (-e).toNat
  let unit := b.den * pow10 e.toNat
  let d := num / unit
  let r := num % unit
  match b.holds d e, b.holds (d + 1) e with
  | true, false => some (d, e)
  | false, true => some (d + 1, e)
  | true, true =>
    if 2 * r < unit ∨ (2 * r = unit ∧ d % 2 = 0) then some (d, e) else some (d + 1, e)
  | false, false => none

/-- Digits and the power of ten of the last one. Seventeen digits are always enough. -/
def shortest (m : Nat) (q : Int) : Nat × Int :=
  let b := band m q
  let top := leadingPower b.value b.den
  ((List.range 17).findSome? fun n : Nat => b.onGrid? (top - n)).getD (0, 0)

end LineBasic.Number
