import LineBasic.Proofs.Tree.Plain

/-! Variables that hold what their names declare: texts under the names that end in a dollar sign and
numbers under all others. Whether an expression stands for a text then shows in the expression. -/

namespace LineBasic

namespace Text

lemma ofNat_ne_dollar {n : Nat} (h : n ≠ 36) : Char.ofNat n ≠ '$' := by
  intro hc
  by_cases hv : n.isValidChar
  · have hn : (Char.ofNat n).toNat = n := by
      rw [Char.ofNat, dif_pos hv]
      rfl
    rw [hc] at hn
    exact h hn.symm
  · rw [Char.ofNat, dif_neg hv] at hc
    cases hc

lemma ascii_toUpper_dollar :
    ∀ n < 0x80, (Char.ofNat n).toUpper = '$' ↔ Char.ofNat n = '$' := by decide

lemma caseRuns_past_dollar : ∀ r ∈ caseRuns, 36 < r.first + r.shift := by decide +kernel

lemma longCapitals_ne_dollar : ∀ p ∈ longCapitals, ∃ n ∈ p.2.getLast?, n ≠ 36 := by decide +kernel

lemma capital?_ne_dollar {r : CaseRun} (hr : r ∈ caseRuns) {n m : Nat} (h : r.capital? n = some m) :
    m ≠ 36 := by
  have hs := caseRuns_past_dollar r hr
  rw [CaseRun.capital?] at h
  split at h
  · obtain rfl := Option.some.inj h
    omega
  · cases h

lemma getLast?_upperChar (c : Char) : ∃ d ∈ (upperChar c).getLast?, d = '$' ↔ c = '$' := by
  rw [upperChar]
  split
  · rename_i hc
    have ha := ascii_toUpper_dollar c.toNat hc
    rw [Char.ofNat_toNat] at ha
    exact ⟨c.toUpper, rfl, ha⟩
  · rename_i hc
    have hd : c ≠ '$' := by
      rintro rfl
      exact hc (by decide)
    split
    · rename_i n hn
      obtain ⟨r, hr, hn⟩ := List.exists_of_findSome?_eq_some hn
      exact ⟨_, rfl, iff_of_false (ofNat_ne_dollar (capital?_ne_dollar hr hn)) hd⟩
    · split
      · rename_i ns hn
        obtain ⟨l₁, l₂, hb, -⟩ := List.lookup_eq_some_iff.mp hn
        obtain ⟨n, hl, hne⟩ := longCapitals_ne_dollar (c.toNat, ns) (hb ▸ by simp)
        refine ⟨Char.ofNat n, ?_, iff_of_false (ofNat_ne_dollar hne) hd⟩
        simp [List.getLast?_map, Option.mem_def.mp hl]
      · exact ⟨c, rfl, Iff.rfl⟩

end Text

lemma isTextName_canonical (name : String) : isTextName (Variables.canonical name) = isTextName name := by
  rw [isTextName, isTextName, Variables.canonical, Text.upper, String.toList_ofList]
  rcases List.eq_nil_or_concat name.toList with hn | ⟨cs, c, hn⟩
  · simp [hn]
  · obtain ⟨d, hd, hc⟩ := Text.getLast?_upperChar c
    rw [List.concat_eq_append] at hn
    rw [hn, List.getLast?_concat, List.flatMap_append, List.flatMap_singleton, List.getLast?_append,
      Option.mem_def.mp hd, Option.some_or, Bool.eq_iff_iff]
    simpa using hc

/-- A value of the type that a name declares. -/
def Value.Suits (name : String) : Value → Prop
  | text _ => isTextName name = true
  | number _ => isTextName name = false
  | integer _ | truth _ | absent => False

section Suits

variable {name : String} {v : Value}

lemma Value.Suits.plain (h : v.Suits name) : v.Plain := by
  cases v with
  | text | number => trivial
  | integer | truth | absent => exact h

lemma Value.Plain.suits_iff (h : v.Plain) : v.Suits name ↔ v.isText = isTextName name := by
  cases v with
  | text s => exact eq_comm
  | number x => exact eq_comm
  | integer | truth | absent => exact h.elim

lemma Value.suits_canonical : v.Suits (Variables.canonical name) ↔ v.Suits name := by
  cases v <;> simp [Value.Suits, isTextName_canonical]

end Suits

def Variables.Typed (vars : Variables) : Prop := ∀ b ∈ vars.bindings, b.2.Suits b.1

namespace Variables

variable {vars : Variables}

lemma typed_empty : Typed {} := by
  intro b hb
  cases hb

lemma Typed.plain (h : vars.Typed) : vars.Plain := fun b hb => (h b hb).plain

lemma default_suits (name : String) : (default name).Suits name := by
  rw [default]
  split
  · assumption
  · rename_i hn
    simpa [Value.Suits] using hn

lemma Typed.get (h : vars.Typed) (name : String) : (vars.get name).Suits name := by
  rw [← Value.suits_canonical, Variables.get, find?]
  cases hl : vars.bindings.lookup (canonical name) with
  | none => exact default_suits _
  | some v =>
    obtain ⟨l₁, l₂, hb, -⟩ := List.lookup_eq_some_iff.mp hl
    exact h (canonical name, v) (hb ▸ by simp)

lemma put_suits {key : String} {v : Value} {l : List (String × Value)}
    (h : ∀ b ∈ l, Value.Suits b.1 b.2) : (∀ b ∈ put key v l, Value.Suits b.1 b.2) ↔ v.Suits key := by
  induction l with
  | nil => simp [put]
  | cons b l ih =>
    obtain ⟨hb, hl⟩ := List.forall_mem_cons.mp h
    simp only [put]
    split
    · rename_i hk
      rw [List.forall_mem_cons, ← hk]
      exact and_iff_left hl
    · rw [List.forall_mem_cons, ih hl]
      exact and_iff_right hb

/-- A variable that is set takes its type with it, or a wrong one. -/
lemma Typed.set_iff (h : vars.Typed) {name : String} {v : Value} (hv : v.Plain) {vars' : Variables}
    (hs : vars.set name v = .ok vars') : vars'.Typed ↔ v.Suits name := by
  rw [set_of_plain vars name hv] at hs
  cases hs
  rw [← Value.suits_canonical]
  exact put_suits h

end Variables

/-- Whether an expression stands for a text, by its form. -/
def Expr.isText : Expr → Bool
  | literal v => v.isText
  | var name => isTextName name
  | grouping e => e.isText
  | binary .. | foreign _ => false

lemma Expr.Plain.isText_eval {vars : Variables} (hv : vars.Typed) {e : Expr} (h : e.Plain) {v : Value}
    (he : e.eval vars = .ok v) : v.isText = e.isText := by
  induction e with
  | literal w =>
    cases he
    rfl
  | var name =>
    cases he
    have hs := hv.get name
    exact hs.plain.suits_iff.mp hs
  | grouping e ih => exact ih h he
  | foreign shape => cases h
  | binary l op r =>
    obtain ⟨x, -, h₁⟩ := Grammar.bind_ok he
    obtain ⟨y, -, h₂⟩ := Grammar.bind_ok h₁
    rcases Operator.onValues_plain h.2.1 x y with ⟨z, hz⟩ | hz
    · cases hz.symm.trans h₂
      rfl
    · cases hz.symm.trans h₂

/-- A statement that assigns no variable a value of the other type. -/
def Stmt.isTyped : Stmt → Bool
  | assign (.var name) e => e.isText == isTextName name
  | _ => true

end LineBasic
