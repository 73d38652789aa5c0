import LineBasic.Fault
import LineBasic.Text.Blank
import LineBasic.Text.Digit

/-! Stored programs: codes by line number, in ascending order. Numbers of more than
`Fault.digitLimit` digits are left out of account: one may be stored, but no listing and no report
shows it. -/

namespace LineBasic

/-- Entries by number. Operations keep the numbers ascending. -/
abbrev Numbered (α : Type) := List (Int × α)

namespace Numbered

variable {α : Type}

def insert (n : Int) (a : α) : Numbered α → Numbered α
  | [] => [(n, a)]
  | (m, b) :: rest =>
    if n < m then (n, a) :: (m, b) :: rest
    else if n = m then (n, a) :: rest
    else (m, b) :: insert n a rest

def erase (n : Int) (p : Numbered α) : Numbered α := p.filter (·.1 ≠ n)

def find? (n : Int) (p : Numbered α) : Option α := p.lookup n

def numbers (p : Numbered α) : List Int := p.map (·.1)

end Numbered

abbrev Program := Numbered String

namespace Program

def store (p : Program) (number : Int) (code : String) : Program :=
  if code = "" then p.erase number else p.insert number code

def listing (p : Program) : List String := p.map fun (n, code) => toString n ++ " " ++ code

/-- A text that starts with digits is a program line: a number and, past the blanks, a body. -/
def splitLine? (s : String) : Option (List Nat × String) :=
  let cs := s.toList
  let ds := cs.takeWhile Text.isDigit
  if ds.isEmpty then none
  else some (ds.filterMap Text.digit?, .ofList ((cs.dropWhile Text.isDigit).dropWhile Text.isBlank))

def lineNumber (digits : List Nat) : Except Fault Int :=
  if Fault.digitLimit < digits.length then .error (.longNumeral digits.length)
  else .ok (Text.natOfDigits digits)

end Program

end LineBasic
