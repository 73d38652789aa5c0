import LineBasic.Number.Layout
import LineBasic.Text.Quoted

/-! Values. A program computes with texts and numbers; whole numbers, truth values and the absent
value are what a tree or a token that was not read from text may carry. -/

namespace LineBasic

inductive Value
  | text (s : String)
  | number (x : Float)
  | integer (n : Int)
  | truth (b : Bool)
  | absent
deriving Inhabited

namespace Value

def isText : Value → Bool
  | text _ => true
  | _ => false

def isNumber : Value → Bool
  | number _ => true
  | _ => false

def isAbsent : Value → Bool
  | absent => true
  | _ => false

def integer? : Value → Option Int
  | integer n => some n
  | truth b => some b.toInt
  | _ => none

/-- Equality by worth: `42` is `42.0`, and the two zeros are one. -/
def same (a b : Value) : Bool :=
  match a, b with
  | text s, text t => s == t
  | absent, absent => true
  | number x, number y => x == y
  | number x, v => match v.integer?, (Number.shape x).integer? with
    | some n, some m => n == m
    | _, _ => false
  | v, number x => match v.integer?, (Number.shape x).integer? with
    | some n, some m => n == m
    | _, _ => false
  | v, w => match v.integer?, w.integer? with
    | some n, some m => n == m
    | _, _ => false

def typeName : Value → String
  | text _ => "str"
  | number _ => "float"
  | integer _ => "int"
  | truth _ => "bool"
  | absent => "NoneType"

def listed : Value → String
  | text s => Text.quoted s
  | number x => Number.listed x
  | integer n => toString n
  | truth true => "True"
  | truth false => "False"
  | absent => "None"

/-- A value as text of its own: a text without quotes, anything else as it is listed. -/
def spoken : Value → String
  | text s => s
  | v => v.listed

end Value

end LineBasic
