import LineBasic.Token.Scan

/-! Scanning a line step by step, with the place in the line in view. -/

namespace LineBasic.Token

/-- A place in a line. It may lie beyond the end; one before the start counts back from the end,
and its characters are passed on the way to the start. -/
structure Cursor where
  source : List Char
  position : Int
  line : Int
  column : Int
  inComment : Bool := false

namespace Cursor

def start (source : String) (line position column : Int) : Cursor :=
  { source := source.toList, position, line, column }

def size (c : Cursor) : Int := c.source.length

def atEnd (c : Cursor) : Bool := c.size ≤ c.position

def index (c : Cursor) : Int := if c.position < 0 then c.position + c.size else c.position

def rest (c : Cursor) : List Char := c.source.drop c.index.toNat

def charAt? (c : Cursor) : Int → Option Char
  | .ofNat n => c.source[n]?
  | .negSucc _ => none

def forward (c : Cursor) (n : Int) : Cursor :=
  { c with position := c.position + n, column := c.column + n }

def next (c : Cursor) : Except Fault (Char × Cursor) :=
  if c.atEnd then .error (.pastEnd c.position c.line)
  else match c.charAt? c.index with
    | some ch => .ok (ch, c.forward 1)
    | none => .error .noCharacter

def peek? (c : Cursor) (offset : Int) : Option Char := c.charAt? (c.position + offset)

def remainder (c : Cursor) : String × Cursor :=
  (.ofList c.rest, { c with position := c.size, column := c.column + c.rest.length })

/-- Passes the gap at the place. All that lies before the start of the line counts as one. -/
def skipGap (c : Cursor) : Except Fault Cursor :=
  if c.index < 0 then .error .noCharacter
  else
    let c := if c.position < 0 then c.forward (-c.position) else c
    .ok (c.forward (c.rest.takeWhile isGap).length)

def tokenHere (c : Cursor) : Except Fault Token × Cursor :=
  if c.inComment then
    let (text, after) := c.remainder
    (.ok ⟨.string, text, .text text, c.line, c.column⟩, { after with inComment := false })
  else match c.rest with
    | [] => (.ok (endToken c.line c.column), c)
    | ch :: cs =>
      match read ch cs with
      | .fault cause rest =>
        (.error (.told (.of cause (some c.line))), c.forward (c.rest.length - rest.length))
      | .found kind lexeme literal _ =>
        (.ok ⟨kind, .ofList lexeme, literal, c.line, c.column⟩,
          { c.forward lexeme.length with inComment := kind = .rem })

/-- Reads the next token. A fault leaves the cursor where scanning stopped. -/
def token (c : Cursor) : Except Fault Token × Cursor :=
  match c.skipGap with
  | .error fault => (.error fault, c)
  | .ok c => c.tokenHere

end Cursor

end LineBasic.Token
