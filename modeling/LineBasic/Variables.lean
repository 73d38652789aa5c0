import LineBasic.Tree.Basic
import LineBasic.Value.Arithmetic

/-! Variables, in the order of their first assignment. Names do not tell letter case apart, and a
variable that was never assigned reads as the empty text or zero. -/

namespace LineBasic

structure Variables where
  bindings : List (String × Value) := []

namespace Variables

/-- The name under which a variable is kept. -/
def canonical (name : String) : String := Text.upper name

def default (name : String) : Value := if isTextName name then .text "" else .number 0.0

/-- Replaces a binding in its place, or adds one at the end. -/
def put (key : String) (v : Value) : List (String × Value) → List (String × Value)
  | [] => [(key, v)]
  | (k, w) :: rest => if k = key then (k, v) :: rest else (k, w) :: put key v rest

def find? (vars : Variables) (name : String) : Option Value := vars.bindings.lookup (canonical name)

def get (vars : Variables) (name : String) : Value :=
  (vars.find? name).getD (default (canonical name))

def set (vars : Variables) (name : String) (v : Value) : Except Fault Variables :=
  v.kept.map fun w => ⟨put (canonical name) w vars.bindings⟩

def contains (vars : Variables) (name : String) : Bool := (vars.find? name).isSome

def size (vars : Variables) : Nat := vars.bindings.length

/-- The bindings by name. -/
def sorted (vars : Variables) : List (String × Value) :=
  vars.bindings.mergeSort fun a b => !decide (b.1 < a.1)

def listed (vars : Variables) : String :=
  let entries := vars.bindings.map fun b => Text.quoted b.1 ++ ": " ++ b.2.listed
  "Environment(\x7b" ++ ", ".intercalate entries ++ "\x7d)"

theorem lookup_cons_of_ne {k j : String} (h : k ≠ j) (w : Value) (l : List (String × Value)) :
    List.lookup k ((j, w) :: l) = l.lookup k := by
  rw [List.lookup_cons, beq_eq_false_iff_ne.2 h]

theorem lookup_put (key k : String) (v : Value) (l : List (String × Value)) :
    (put key v l).lookup k = if k = key then some v else l.lookup k := by
  induction l with
  | nil =>
    by_cases h : k = key
    · simp [put, h]
    · simp [put, lookup_cons_of_ne h, h]
  | cons b rest ih =>
    obtain ⟨j, w⟩ := b
    by_cases hj : j = key
    · subst hj
      by_cases h : k = j
      · simp [put, h]
      · simp [put, lookup_cons_of_ne h, h]
    · by_cases h : k = j
      · subst h
        simp [put, hj]
      · simp [put, lookup_cons_of_ne h, hj, ih]

end Variables

end LineBasic
