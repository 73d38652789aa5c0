import LineBasic.Session.Event

/-! A text console. The last line is left open, so that a prompt and its answer share it. -/

namespace LineBasic

structure Console where
  written : String := ""
  lineOpen : Bool := false
  /-- What the console was told, shown or not. -/
  heard : Array Event := #[]

namespace Console

def clearCode : String := "\x1b[2J\x1b[H"

def write (c : Console) (text : String) : Console := { c with written := c.written ++ text }

def finishLine (c : Console) : Console :=
  if c.lineOpen then { c.write "\n" with lineOpen := false } else c

/-- The terminal has moved to a new line itself when an answer was entered. -/
def inputReceived (c : Console) : Console := { c with lineOpen := false }

def handle (c : Console) (e : Event) : Console :=
  let c := { c with heard := c.heard.push e }
  match e with
  | .line text => { c.finishLine.write text with lineOpen := true }
  | .append text => { c.write text with lineOpen := true }
  | .clear => c.finishLine.write clearCode
  | .request _ => c

def handleAll (c : Console) (es : List Event) : Console := es.foldl handle c

end Console

end LineBasic
