/-! What a session tells its host, and the screen that a host keeps of it. -/

namespace LineBasic

inductive Event
  | line (text : String)
  | append (text : String)
  | clear
  | request (prompt : String)
deriving DecidableEq, Inhabited

namespace Event

inductive Kind
  | line
  | append
  | clear
  | request
deriving DecidableEq, Inhabited

def kind : Event → Kind
  | line _ => .line
  | append _ => .append
  | clear => .clear
  | request _ => .request

def text : Event → String
  | line t | append t | request t => t
  | clear => ""

/-- The end of a screen grows, or a new line is begun on an empty one. -/
def extendLast (text : String) : List String → List String
  | [] => [text]
  | [last] => [last ++ text]
  | l :: ls => l :: extendLast text ls

def onScreen (screen : List String) : Event → List String
  | line t => screen ++ [t]
  | append t => extendLast t screen
  | clear => []
  | request _ => screen

def screen (es : List Event) : List String := es.foldl onScreen []

def prompts (es : List Event) : List String := es.filterMap fun
  | request p => some p
  | _ => none

/-- All text shown, whether or not it was cleared since. -/
def output (es : List Event) : List String := es.filterMap fun
  | line t | append t => some t
  | _ => none

end Event

end LineBasic
