/-! Floats as exact numbers: the shape of a float read off its bits, and the float nearest to a
fraction of natural numbers. -/

namespace LineBasic.Number

abbrev pow2 (k : Nat) : Nat := Nat.pow 2 k

abbrev pow10 (k : Nat) : Nat := Nat.pow 10 k

/-- What the bits of a float stand for. A finite float is `m * 2 ^ q` up to its sign. -/
inductive Shape
  | nan
  | infinite (negative : Bool)
  | finite (negative : Bool) (m : Nat) (q : Int)
deriving DecidableEq

def shapeOfBits (b : Nat) : Shape :=
  let negative := b / pow2 63 % 2 == 1
  let e : Nat := b / pow2 52 % pow2 11
  let f := b % pow2 52
  if e = 2047 then if f = 0 then .infinite negative else .nan
  else if e = 0 then .finite negative f (-1074)
  else .finite negative (pow2 52 + f) ((e : Int) - 1075)

def shape (x : Float) : Shape := shapeOfBits x.toBits.toNat

def Shape.integer? : Shape → Option Int
  | .finite negative m q =>
    let den := pow2 (-q).toNat
    if m % den = 0 then
      let n : Nat := m / den * pow2 q.toNat
      some (if negative then -n else n)
    else none
  | _ => none

/-- `num / den` rounded to a whole number, halves to the even one. -/
def roundDiv (num den : Nat) : Nat :=
  let k := num / den
  let r := num % den
  if 2 * r < den ∨ (2 * r = den ∧ k % 2 = 0) then k else k + 1

/-- The exponent of the last of 53 bits that hold `num / den`, or of the last bit there is. -/
def lastBit (num den : Nat) : Int :=
  let k : Int := (num.log2 : Int) - den.log2
  let top := if num * pow2 (-k).toNat < den * pow2 k.toNat then k - 1 else k
  max (top - 52) (-1074)

def infinityBits : Nat := 2047 * pow2 52

/-- The bits of the float nearest to `num / den`, halves to the even mantissa. -/
def nearestBits (num den : Nat) : Nat :=
  if num = 0 then 0
  else
    let q := lastBit num den
    let m := roundDiv (num * pow2 (-q).toNat) (den * pow2 q.toNat)
    min ((q + 1074).toNat * pow2 52 + m) infinityBits

def signBit (negative : Bool) : Nat := if negative then pow2 63 else 0

def nearest (negative : Bool) (num den : Nat) : Float :=
  .ofBits (.ofNat (signBit negative + nearestBits num den))

def infinity (negative : Bool) : Float := .ofBits (.ofNat (signBit negative + infinityBits))

def notANumber : Float := 0.0 / 0.0

/-- The float nearest to `digits * 10 ^ e`. The two bounds keep the powers of ten small: beyond
them the number is larger than every float, or nearer to zero than any other. -/
def ofDecimal (negative : Bool) (digits : Nat) (e : Int) : Float :=
  if digits = 0 ∨ e < -(400 + digits.log2) then nearest negative 0 1
  else if 400 < e then infinity negative
  else nearest negative (digits * pow10 e.toNat) (pow10 (-e).toNat)

def ofInt? (n : Int) : Option Float :=
  if nearestBits n.natAbs 1 = infinityBits then none else some (nearest (n < 0) n.natAbs 1)

end LineBasic.Number
