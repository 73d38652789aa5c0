import LineBasic.Value.Basic

/-! Outlines: the labelled shape of a tree, which is what diagnostics show of it and what decides
whether two trees are equal. -/

namespace LineBasic

inductive Outline
  | value (v : Value)
  | sequence (items : List Outline)
  | mapping (entries : List (String × Outline))
  | record (name : String) (fields : List (String × Outline))
deriving Inhabited

namespace Outline

mutual

def listed : Outline → String
  | value v => v.listed
  | sequence items => "[" ++ ", ".intercalate (listedItems items) ++ "]"
  | mapping entries => "\x7b" ++ ", ".intercalate (listedEntries entries) ++ "\x7d"
  | record name fields => name ++ "(" ++ ", ".intercalate (listedFields fields) ++ ")"

def listedItems : List Outline → List String
  | [] => []
  | o :: os => o.listed :: listedItems os

def listedEntries : List (String × Outline) → List String
  | [] => []
  | (key, o) :: es => (Text.quoted key ++ ": " ++ o.listed) :: listedEntries es

def listedFields : List (String × Outline) → List String
  | [] => []
  | (label, o) :: fs => (label ++ "=" ++ o.listed) :: listedFields fs

end

/-- The name that diagnostics give to the type of what has this outline. -/
def typeName : Outline → String
  | value v => v.typeName
  | sequence _ => "list"
  | mapping _ => "dict"
  | record name _ => name

mutual

/-- Equality of shape, with values compared by worth. The entries of a mapping are compared by
their keys, in the order of the keys. -/
def same : Outline → Outline → Bool
  | value v, value w => v.same w
  | sequence xs, sequence ys => sameItems xs ys
  | mapping xs, mapping ys => sameFields xs ys
  | record n xs, record m ys => n == m && sameFields xs ys
  | _, _ => false

def sameItems : List Outline → List Outline → Bool
  | [], [] => true
  | x :: xs, y :: ys => x.same y && sameItems xs ys
  | _, _ => false

def sameFields : List (String × Outline) → List (String × Outline) → Bool
  | [], [] => true
  | (l, x) :: xs, (k, y) :: ys => l == k && x.same y && sameFields xs ys
  | _, _ => false

end

end Outline

end LineBasic
