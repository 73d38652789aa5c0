import LineBasic.Number.Shortest

/-! Numbers as text. A listing keeps the point and switches to an exponent below `1e-4` and from
`1e16` on; `PRINT` writes whole numbers with all their digits and no point. -/

namespace LineBasic.Number

def digitsOf (n : Nat) : List Char := Nat.toDigits 10 n

def dropFinalZeros (cs : List Char) : List Char := (cs.reverse.dropWhile (· == '0')).reverse

/-- An exponent has a sign and at least two digits. -/
def exponentMark (e : Int) : List Char :=
  let ds := digitsOf e.natAbs
  'e' :: (if e < 0 then '-' else '+') :: (if ds.length < 2 then '0' :: ds else ds)

/-- Lays out the digits `ds`, the first of which stands for `10 ^ top`. -/
def layout (ds : List Char) (top : Int) : List Char :=
  if top < -4 ∨ 16 ≤ top then
    match ds with
    | [d] => d :: exponentMark top
    | d :: ds => d :: '.' :: ds ++ exponentMark top
    | [] => exponentMark top
  else if top < 0 then '0' :: '.' :: List.replicate (-top - 1).toNat '0' ++ ds
  else
    let whole := top.toNat + 1
    if ds.length ≤ whole then ds ++ List.replicate (whole - ds.length) '0' ++ ['.', '0']
    else ds.take whole ++ '.' :: ds.drop whole

def magnitude (m : Nat) (q : Int) : List Char :=
  if m = 0 then ['0', '.', '0']
  else
    let (digits, e) := shortest m q
    let ds := digitsOf digits
    layout (dropFinalZeros ds) (e + ds.length - 1)

def signed (negative : Bool) (cs : List Char) : String :=
  .ofList (if negative then '-' :: cs else cs)

/-- The fewest digits that read back as the float. -/
def listed (x : Float) : String :=
  match shape x with
  | .nan => "nan"
  | .infinite negative => signed negative "inf".toList
  | .finite negative m q => signed negative (magnitude m q)

def printed (x : Float) : String :=
  match shape x with
  | .nan => "NAN"
  | .infinite negative => signed negative "INF".toList
  | .finite negative m q =>
    match (Shape.finite negative m q).integer? with
    | some n => signed (n < 0) (digitsOf n.natAbs)
    | none => signed negative (magnitude m q)

end LineBasic.Number
