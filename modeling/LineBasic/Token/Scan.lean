import LineBasic.Fault
import LineBasic.Number.Numeral

/-! Scanning a program line into tokens. Only ASCII letters and digits form words and numbers, and
only space, tab and carriage return separate tokens; what follows `REM` is one comment. -/

namespace LineBasic.Token

def isLetter (c : Char) : Bool := ('a' ≤ c && c ≤ 'z') || ('A' ≤ c && c ≤ 'Z') || c == '_'

def isNumeric (c : Char) : Bool := '0' ≤ c && c ≤ '9'

def isWordPart (c : Char) : Bool := isLetter c || isNumeric c

def isGap (c : Char) : Bool := c == ' ' || c == '\t' || c == '\r'

/-- What stands at a place of a line: a lexeme with its meaning and the characters after it, or a
fault with the characters that the scanner has not passed. -/
inductive Reading
  | found (kind : Kind) (lexeme : List Char) (literal : Value) (rest : List Char)
  | fault (cause : Cause) (rest : List Char)

def takeWord (cs : List Char) : List Char × List Char :=
  match cs.dropWhile isWordPart with
  | '$' :: rest => (cs.takeWhile isWordPart ++ ['$'], rest)
  | rest => (cs.takeWhile isWordPart, rest)

def takeNumeral (cs : List Char) : List Char × List Char × List Char :=
  let whole := cs.takeWhile isNumeric
  match cs.dropWhile isNumeric with
  | '.' :: rest =>
    if (rest.takeWhile isNumeric).isEmpty then (whole, [], '.' :: rest)
    else (whole, rest.takeWhile isNumeric, rest.dropWhile isNumeric)
  | rest => (whole, [], rest)

def readWord (cs : List Char) : Reading :=
  let (word, rest) := takeWord cs
  let lexeme := word.map Char.toUpper
  .found (.ofWord (.ofList lexeme)) lexeme .absent rest

def readNumeral (cs : List Char) : Reading :=
  let (whole, fraction, rest) := takeNumeral cs
  let x := Number.ofDigits false (whole.filterMap Text.digit?) (fraction.filterMap Text.digit?) 0
  .found .number (whole ++ if fraction.isEmpty then [] else '.' :: fraction) (.number x) rest

/-- Reads a text after its opening quote. -/
def readText (cs : List Char) : Reading :=
  match cs.dropWhile (· ≠ '"') with
  | [] => .fault .unterminatedString []
  | _ :: rest =>
    let body := cs.takeWhile (· ≠ '"')
    .found .string ('"' :: body ++ ['"']) (.text (.ofList body)) rest

def read (c : Char) (cs : List Char) : Reading :=
  if isLetter c then readWord (c :: cs)
  else if isNumeric c then readNumeral (c :: cs)
  else if c = '"' then readText cs
  else match Kind.ofMark? c with
    | some kind => .found kind [c] .absent cs
    | none => .fault (.unexpectedCharacter c) (c :: cs)

theorem length_dropWhile_le (p : Char → Bool) (cs : List Char) :
    (cs.dropWhile p).length ≤ cs.length :=
  (List.dropWhile_sublist p).length_le

theorem length_takeWord_le (cs : List Char) : (takeWord cs).2.length ≤ cs.length := by
  have h := length_dropWhile_le isWordPart cs
  unfold takeWord
  split
  · rename_i heq
    rw [heq] at h
    exact Nat.le_of_succ_le h
  · exact h

theorem length_takeNumeral_le (cs : List Char) : (takeNumeral cs).2.2.length ≤ cs.length := by
  have h := length_dropWhile_le isNumeric cs
  unfold takeNumeral
  split
  · rename_i rest heq
    have h' := length_dropWhile_le isNumeric rest
    rw [heq] at h
    simp only [List.length_cons] at h
    split
    · simpa using h
    · simp only
      omega
  · exact h

theorem takeWord_cons {c : Char} (h : isLetter c = true) (cs : List Char) :
    (takeWord (c :: cs)).2 = (takeWord cs).2 := by
  have hw : isWordPart c = true := by simp [isWordPart, h]
  unfold takeWord
  rw [List.dropWhile_cons_of_pos hw]
  split <;> rfl

theorem takeNumeral_cons {c : Char} (h : isNumeric c = true) (cs : List Char) :
    (takeNumeral (c :: cs)).2.2 = (takeNumeral cs).2.2 := by
  unfold takeNumeral
  rw [List.dropWhile_cons_of_pos h]
  split
  · dsimp only
    split <;> rfl
  · rfl

theorem length_read_le {c : Char} {cs lexeme rest : List Char} {kind : Kind} {literal : Value}
    (h : read c cs = .found kind lexeme literal rest) : rest.length ≤ cs.length := by
  unfold read at h
  split at h
  · rename_i hc
    simp only [readWord, Reading.found.injEq] at h
    rw [← h.2.2.2, takeWord_cons hc]
    exact length_takeWord_le cs
  · split at h
    · rename_i hc
      simp only [readNumeral, Reading.found.injEq] at h
      rw [← h.2.2.2, takeNumeral_cons hc]
      exact length_takeNumeral_le cs
    · split at h
      · unfold readText at h
        split at h
        · exact Reading.noConfusion h
        · rename_i heq
          have hd := length_dropWhile_le (· ≠ '"') cs
          rw [heq] at hd
          simp only [List.length_cons] at hd
          simp only [Reading.found.injEq] at h
          rw [← h.2.2.2]
          omega
      · split at h
        · simp only [Reading.found.injEq] at h
          exact h.2.2.2 ▸ Nat.le_refl _
        · exact Reading.noConfusion h

def endToken (line column : Int) : Token := ⟨.eof, "", .absent, line, column⟩

/-- The comment of a line: everything after the blanks that follow `REM`. -/
def comment (line column : Int) (cs : List Char) : Token :=
  let text := String.ofList (cs.dropWhile isGap)
  ⟨.string, text, .text text, line, column + (cs.takeWhile isGap).length⟩

def scanFrom (line column : Int) (cs : List Char) : Except Diagnostic (List Token) :=
  match _h : cs.dropWhile isGap with
  | [] => .ok [endToken line (column + cs.length)]
  | c :: rest =>
    let column := column + (cs.takeWhile isGap).length
    match _hr : read c rest with
    | .fault cause _ => .error (.of cause (some line))
    | .found kind lexeme literal rest =>
      let token : Token := ⟨kind, .ofList lexeme, literal, line, column⟩
      let column := column + lexeme.length
      if kind = .rem then
        .ok [token, comment line column rest, endToken line (column + rest.length)]
      else (scanFrom line column rest).map (token :: ·)
termination_by cs.length
decreasing_by
  have hd := length_dropWhile_le isGap cs
  have := length_read_le _hr
  rw [_h] at hd
  simp only [List.length_cons] at hd
  omega

/-- The tokens of a line, the last of which is an end marker. -/
def scan (source : String) (line : Int) : Except Diagnostic (List Token) :=
  scanFrom line 1 source.toList

end LineBasic.Token
