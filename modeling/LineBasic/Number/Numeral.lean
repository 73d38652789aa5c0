import LineBasic.Number.Binary
import LineBasic.Text.Blank
import LineBasic.Text.Digit

/-! Reading numbers from text: the plain numerals of program lines, the leading number of an
answer, and the full notation of settings. -/

namespace LineBasic.Number

open Text

def takeDigits (cs : List Char) : List Nat × List Char :=
  ((cs.takeWhile isDigit).filterMap digit?, cs.dropWhile isDigit)

def ofDigits (negative : Bool) (whole fraction : List Nat) (exponent : Int) : Float :=
  ofDecimal negative (natOfDigits (whole ++ fraction)) (exponent - fraction.length)

/-- The blanks that may stand around a number: those beyond ASCII, and of ASCII the space and the
controls from tab to carriage return. -/
def isMargin (c : Char) : Bool :=
  c == ' ' || (9 ≤ c.toNat && c.toNat ≤ 13) || (0x80 ≤ c.toNat && isBlank c)

/-- Drops the underscores of a text, each of which must stand between two digits. -/
def dropUnderscores (last : Option Char) : List Char → Option (List Char)
  | [] => if last = some '_' then none else some []
  | c :: cs =>
    if c = '_' then
      if (last.map isDigit).getD false then dropUnderscores (some c) cs else none
    else if last = some '_' ∧ !isDigit c then none
    else (dropUnderscores (some c) cs).map (c :: ·)

def takeSign : List Char → Bool × List Char
  | '-' :: cs => (true, cs)
  | '+' :: cs => (false, cs)
  | cs => (false, cs)

def exponent? : List Char → Option Int
  | [] => some 0
  | c :: cs =>
    if c = 'e' ∨ c = 'E' then
      let (negative, cs) := takeSign cs
      let (ds, rest) := takeDigits cs
      if ds.isEmpty || !rest.isEmpty then none
      else some (if negative then -natOfDigits ds else natOfDigits ds)
    else none

/-- Digits with an optional point, at least one digit in all, and an optional exponent. -/
def decimal? (negative : Bool) (cs : List Char) : Option Float :=
  let (whole, rest) := takeDigits cs
  let (fraction, rest) := match rest with
    | '.' :: rest => takeDigits rest
    | rest => ([], rest)
  if whole.isEmpty && fraction.isEmpty then none
  else (exponent? rest).map (ofDigits negative whole fraction ·)

def read? (s : String) : Option Float := do
  let cs ← dropUnderscores none (trimBy isMargin s.toList)
  let (negative, cs) := takeSign cs
  let word := cs.map Char.toLower
  if word = "inf".toList ∨ word = "infinity".toList then some (infinity negative)
  else if word = "nan".toList then some notANumber
  else decimal? negative cs

/-- The longest number at the head of a text, with the blanks and the sign before it. -/
def leading? (cs : List Char) : Option (List Char) :=
  let blanks := cs.takeWhile isBlank
  let rest := cs.dropWhile isBlank
  let sign := rest.take (if rest.head? = some '-' ∨ rest.head? = some '+' then 1 else 0)
  let rest := rest.drop sign.length
  let whole := rest.takeWhile isDigit
  let body := match rest.dropWhile isDigit with
    | '.' :: rest => whole ++ '.' :: rest.takeWhile isDigit
    | _ => whole
  if body.any isDigit then some (blanks ++ sign ++ body) else none

end LineBasic.Number
