import LineBasic.Tree.Parse

/-! Reading a row of tokens step by step, with the place in the row in view. It is for callers that look
at a row piece by piece; a statement that is read from the start of a row is the one that `parse` gives. -/

namespace LineBasic.Parse

/-- A place in a row of tokens: those before it, nearest first, and those from it on. A place may
lie beyond the end of the row. -/
structure Reader where
  passed : List Token
  rest : List Token
  beyond : Nat
  line : Int

namespace Reader

def start (ts : List Token) : Reader := ⟨[], ts, 0, lineOf ts⟩

def position (r : Reader) : Nat := r.passed.length + r.beyond

def current (r : Reader) : Token := Parse.current r.line r.rest

/-- The token at a distance. A place before the first token counts from the end of the row. -/
def peek (r : Reader) (offset : Int) : Except Fault Token :=
  let ts := r.passed.reverse ++ r.rest
  let index := (r.position : Int) + offset
  let index := if index < 0 then index + ts.length else index
  if index < 0 then .error .noToken else .ok (ts[index.toNat]?.getD (.endMarker r.line))

def forward (r : Reader) (n : Nat) : Reader :=
  { r with passed := (r.rest.take n).reverse ++ r.passed, rest := r.rest.drop n }

def advance (r : Reader) : Token × Reader :=
  (r.current, if r.rest.isEmpty then { r with beyond := r.beyond + 1 } else r.forward 1)

def check (r : Reader) (kinds : List Token.Kind) : Bool := kinds.contains r.current.kind

def atEnd (r : Reader) : Bool := r.current.kind = .eof

def refuse (r : Reader) (cause : Cause) : Diagnostic := .of cause (some r.line)

def take (r : Reader) (kinds : List Token.Kind) : Except Diagnostic Token × Reader :=
  if r.check kinds then (.ok r.advance.1, r.advance.2)
  else (.error (r.refuse (.expectedKind kinds r.current)), r)

/-- Reads a tree and stays where reading ended, also when there is none. -/
def read {α : Type} (r : Reader) (p : Int → List Token → Parsed (α × List Token)) :
    Except Diagnostic α × Reader :=
  match p r.line r.rest with
  | .ok (a, rest) => (.ok a, r.forward (r.rest.length - rest.length))
  | .error refusal =>
    (.error (r.refuse refusal.cause), r.forward (r.rest.length - refusal.rest.length))

theorem read_whole_start (ts : List Token) : ((start ts).read whole).1 = parse ts := by
  rw [read, parse, start]
  cases whole (lineOf ts) ts <;> rfl

end Reader

end LineBasic.Parse
