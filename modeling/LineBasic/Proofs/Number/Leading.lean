import LineBasic.Proofs.Number.Reading
import Mathlib.Data.List.Basic

/-! The number at the head of an answer. It is the longest head of the text that is a number at all,
but not every such head can be read: the separators of ASCII are blanks that are skipped before a
number, and no margin of one. -/

namespace LineBasic.Number

open Text

/-- Blanks, a sign that may be missing, and a decimal, with the number that they write. -/
inductive Numeric : List Char → List Char → Float → Prop
  | intro {blanks sign body whole fraction : List Char} {negative : Bool} :
      (∀ c ∈ blanks, isBlank c = true) → Sign sign negative → Decimal body whole fraction →
      Numeric (blanks ++ sign ++ body) blanks
        (ofDigits negative (whole.filterMap digit?) (fraction.filterMap digit?) 0)

def IsNumeric (p : List Char) : Prop := ∃ blanks x, Numeric p blanks x

/-- The longest number at the head of a text. -/
structure Leads (text p : List Char) : Prop where
  numeric : IsNumeric p
  head : p <+: text
  longest : ∀ q, IsNumeric q → q <+: text → q <+: p

/-- The separators of files, groups, records and units. -/
def isSeparator (c : Char) : Bool := 28 ≤ c.toNat && c.toNat ≤ 31

def decimalHead (cs : List Char) : List Char :=
  match cs.dropWhile isDigit with
  | '.' :: rest => cs.takeWhile isDigit ++ '.' :: rest.takeWhile isDigit
  | _ => cs.takeWhile isDigit

def signHead (cs : List Char) : List Char :=
  cs.take (if cs.head? = some '-' ∨ cs.head? = some '+' then 1 else 0)

section DecimalHead

variable {cs body whole fraction : List Char}

lemma decimalHead_le (cs : List Char) : decimalHead cs <+: cs := by
  have hsplit := List.takeWhile_append_dropWhile (p := isDigit) (l := cs)
  unfold decimalHead
  split
  · rename_i rest heq
    rw [heq] at hsplit
    nth_rewrite 2 [← hsplit]
    rw [List.prefix_append_right_inj, List.cons_prefix_cons]
    exact ⟨rfl, List.takeWhile_prefix isDigit⟩
  · exact List.takeWhile_prefix isDigit

lemma decimalHead_decimal (h : (decimalHead cs).any isDigit = true) :
    ∃ whole fraction, Decimal (decimalHead cs) whole fraction := by
  have hw : ∀ c ∈ cs.takeWhile isDigit, isDigit c = true := fun _ hc => List.mem_takeWhile_imp hc
  obtain ⟨c, hc, hd⟩ := List.any_eq_true.mp h
  unfold decimalHead at hc ⊢
  split at hc
  · refine ⟨_, _, .point hw (fun _ hc => List.mem_takeWhile_imp hc) ?_⟩
    intro hn
    rw [List.append_eq_nil_iff] at hn
    rw [hn.1, hn.2, List.nil_append, List.mem_singleton] at hc
    subst hc
    exact absurd hd (by decide)
  · exact ⟨_, _, .whole hw (List.ne_nil_of_mem hc)⟩

lemma Decimal.le_decimalHead (h : Decimal body whole fraction) (rest : List Char) :
    body <+: decimalHead (body ++ rest) := by
  cases h with
  | whole hd =>
    rw [decimalHead, List.takeWhile_append_of_pos hd]
    split
    · rw [List.append_assoc]
      exact List.prefix_append _ _
    · exact List.prefix_append _ _
  | point hd he =>
    obtain ⟨ht, hw⟩ := span_append_cons (c := '.') hd (by decide) (fraction ++ rest)
    rw [decimalHead, List.append_assoc, List.cons_append, hw, ht]
    simp only [List.prefix_append_right_inj, List.cons_prefix_cons, true_and]
    rw [List.takeWhile_append_of_pos he]
    exact List.prefix_append _ _

end DecimalHead

section Leading

variable {text p : List Char}

lemma leading?_eq (text : List Char) : leading? text =
    let rest := text.dropWhile isBlank
    let body := decimalHead (rest.drop (signHead rest).length)
    if body.any isDigit then some (text.takeWhile isBlank ++ signHead rest ++ body) else none :=
  rfl

lemma signHead_sign (cs : List Char) : ∃ negative, Sign (signHead cs) negative := by
  unfold signHead
  split
  · rename_i h
    rcases h with h | h
    · obtain ⟨rest, rfl⟩ := List.head?_eq_some_iff.mp h
      exact ⟨true, .minus⟩
    · obtain ⟨rest, rfl⟩ := List.head?_eq_some_iff.mp h
      exact ⟨false, .plus⟩
  · exact ⟨false, .none⟩

lemma signHead_append_drop (cs : List Char) : signHead cs ++ cs.drop (signHead cs).length = cs :=
  List.prefix_iff_eq_append.mp (List.take_prefix _ _)

section Append

variable {blanks sign body whole fraction : List Char} {negative : Bool} (hs : Sign sign negative)
  (hd : Decimal body whole fraction)

include hs hd

lemma Decimal.signHead_append (rest : List Char) : signHead (sign ++ (body ++ rest)) = sign := by
  cases hs with
  | plus | minus => rfl
  | none =>
    obtain ⟨c, tail, rfl⟩ := List.exists_cons_of_ne_nil hd.ne_nil
    simp [signHead, hd.head_ne_sign]

lemma Decimal.head_not_blank (rest : List Char) :
    ∀ c ∈ (sign ++ (body ++ rest)).head?, isBlank c = false := by
  obtain ⟨d, tail, rfl⟩ := List.exists_cons_of_ne_nil hd.ne_nil
  have hdigit : isBlank d = false := by
    rcases hd.mem List.mem_cons_self with h | rfl
    · exact isBlank_of_isDigit h
    · decide
  cases hs with
  | plus | minus => simp; decide
  | none => simpa using hdigit

lemma leading?_append (hb : ∀ c ∈ blanks, isBlank c = true) (rest : List Char) :
    leading? (blanks ++ sign ++ body ++ rest) = some (blanks ++ sign ++ decimalHead (body ++ rest)) := by
  obtain ⟨ht, hw⟩ := span_append hb (hd.head_not_blank hs rest)
  obtain ⟨c, hc, hdigit⟩ := hd.exists_digit
  have hany : (decimalHead (body ++ rest)).any isDigit = true :=
    List.any_eq_true.mpr ⟨c, (hd.le_decimalHead rest).subset hc, hdigit⟩
  rw [List.append_assoc, List.append_assoc, leading?_eq]
  simp only [ht, hw, hd.signHead_append hs, List.drop_left, hany, if_true, List.append_assoc]

end Append

lemma leading?_numeric (h : leading? text = some p) : IsNumeric p ∧ p <+: text := by
  rw [leading?_eq] at h
  dsimp only at h
  split at h
  · rename_i hany
    cases h
    obtain ⟨negative, hs⟩ := signHead_sign (text.dropWhile isBlank)
    obtain ⟨whole, fraction, hd⟩ := decimalHead_decimal hany
    refine ⟨⟨_, _, .intro (fun _ hc => List.mem_takeWhile_imp hc) hs hd⟩, ?_⟩
    obtain ⟨tail, htail⟩ := decimalHead_le
      ((text.dropWhile isBlank).drop (signHead (text.dropWhile isBlank)).length)
    refine ⟨tail, ?_⟩
    rw [List.append_assoc, htail, List.append_assoc, signHead_append_drop,
      List.takeWhile_append_dropWhile]
  · cases h

lemma leading?_of_numeric {q : List Char} (hq : IsNumeric q) (h : q <+: text) :
    ∃ p, leading? text = some p ∧ q <+: p := by
  obtain ⟨blanks, x, hn⟩ := hq
  obtain ⟨rest, rfl⟩ := h
  cases hn with
  | intro hb hs hd =>
    refine ⟨_, leading?_append hs hd hb rest, ?_⟩
    exact (List.prefix_append_right_inj _).mpr (hd.le_decimalHead rest)

lemma leading?_eq_none_iff : leading? text = none ↔ ∀ q, IsNumeric q → ¬ q <+: text := by
  refine ⟨fun h q hq hp => ?_, fun h => ?_⟩
  · obtain ⟨p, hs, -⟩ := leading?_of_numeric hq hp
    cases h.symm.trans hs
  · cases hl : leading? text with
    | none => rfl
    | some p =>
      obtain ⟨hp, ht⟩ := leading?_numeric hl
      exact absurd ht (h p hp)

lemma leading?_eq_some_iff : leading? text = some p ↔ Leads text p := by
  refine ⟨fun h => ?_, fun h => ?_⟩
  · obtain ⟨hp, ht⟩ := leading?_numeric h
    refine ⟨hp, ht, fun q hq hqt => ?_⟩
    obtain ⟨p', hs, hle⟩ := leading?_of_numeric hq hqt
    obtain rfl := Option.some.inj (h.symm.trans hs)
    exact hle
  · obtain ⟨p', hs, hle⟩ := leading?_of_numeric h.numeric h.head
    obtain ⟨hp', ht'⟩ := leading?_numeric hs
    rw [hs, (h.longest p' hp' ht').eq_of_length_le hle.length_le]

end Leading

section Read

variable {p blanks : List Char} {x : Float} {c : Char}

lemma isMargin_of_isBlank (h : isBlank c = true) : isMargin c = !isSeparator c := by
  have hspace : c = ' ' ↔ c.toNat = 32 := ⟨by rintro rfl; rfl, fun hn => Char.toNat_inj.mp hn⟩
  simp only [isBlank, Bool.or_eq_true, Bool.and_eq_true, decide_eq_true_eq, beq_iff_eq] at h
  rw [Bool.eq_iff_iff]
  simp only [isMargin, isSeparator, isBlank, Bool.or_eq_true, Bool.and_eq_true, beq_iff_eq,
    decide_eq_true_eq, Bool.not_eq_true', Bool.and_eq_false_iff, decide_eq_false_iff_not, hspace]
  omega

lemma isSeparator_iff : isSeparator c = true ↔ 28 ≤ c.toNat ∧ c.toNat ≤ 31 := by
  simp [isSeparator]

lemma decimal?_of_neither {negative : Bool} {cs : List Char} (hd : isDigit c = false) (hp : c ≠ '.') :
    decimal? negative (c :: cs) = none := by
  have ht : takeDigits (c :: cs) = ([], c :: cs) := by simp [takeDigits, hd]
  simp only [decimal?, ht]
  split
  · rename_i heq
    exact absurd (List.cons.inj heq).1 hp
  · rfl

/-- What begins with a separator is no number. -/
lemma read?_of_separator {margin cs : List Char} (hm : ∀ d ∈ margin, isMargin d = true)
    (hsep : isSeparator c = true) (hu : '_' ∉ cs) (hl : ∀ d ∈ (c :: cs).getLast?, isMargin d = false) :
    read? (.ofList (margin ++ c :: cs)) = none := by
  have hn := isSeparator_iff.mp hsep
  have hblank : isBlank c = true := by simp [isBlank]; omega
  have hmargin : isMargin c = false := by rw [isMargin_of_isBlank hblank, hsep]; rfl
  have hdigit : isDigit c = false := by
    rw [Bool.eq_false_iff]
    intro hd
    simp [isBlank_of_isDigit hd] at hblank
  have hne : ∀ d : Char, 32 ≤ d.toNat → c ≠ d := by
    rintro d hd rfl
    omega
  have htrim : trimBy isMargin (margin ++ c :: cs) = c :: cs :=
    trimBy_append hm (by simpa using hmargin) hl
  have hdrop : dropUnderscores none (c :: cs) = some (c :: cs) := by
    refine dropUnderscores_of_not_mem ?_ (by simp)
    simp [hu, Ne.symm (hne '_' (by decide))]
  have hsign := takeSign_of_ne (hne '-' (by decide)) (hne '+' (by decide)) cs
  have hword : ∀ d word, 32 ≤ d.toNat → (c :: cs).map Char.toLower ≠ d :: word := by
    intro d word hd he
    rw [List.map_cons, toLower_of_not_capital (by omega)] at he
    exact hne d hd (List.cons.inj he).1
  simp only [read?, String.toList_ofList, htrim, hdrop, Option.bind_eq_bind, Option.bind_some, hsign]
  rw [if_neg, if_neg, decimal?_of_neither hdigit (hne '.' (by decide))]
  · exact hword 'n' _ (by decide)
  · exact not_or.mpr ⟨hword 'i' _ (by decide), hword 'i' _ (by decide)⟩

namespace Numeric

variable (h : Numeric p blanks x)

include h

lemma read?_eq (hb : ∀ c ∈ blanks, isSeparator c = false) : read? (.ofList p) = some x := by
  cases h with
  | intro hblank hs hd =>
    refine hd.read?_eq (fun c hc => ?_) hs
    rw [isMargin_of_isBlank (hblank c hc), hb c hc]
    rfl

lemma read?_eq_none (hc : c ∈ blanks) (hsep : isSeparator c = true) : read? (.ofList p) = none := by
  cases h with
  | @intro blanks sign body whole fraction negative hblank hs hd =>
    -- The margin ends at the first separator, and all that follows is left to be read.
    have hne : blanks.dropWhile (! isSeparator ·) ≠ [] := by
      intro hn
      have := List.dropWhile_eq_nil_iff.mp hn c hc
      simp [hsep] at this
    obtain ⟨d, more, hmore⟩ := List.exists_cons_of_ne_nil hne
    have hsplit := List.takeWhile_append_dropWhile (p := (! isSeparator ·)) (l := blanks)
    have hhead := List.head?_dropWhile_not (! isSeparator ·) blanks
    rw [hmore] at hsplit hhead
    have hm : ∀ e ∈ blanks.takeWhile (! isSeparator ·), isMargin e = true := by
      intro e he
      rw [isMargin_of_isBlank (hblank e ((List.takeWhile_subset _) he))]
      exact List.mem_takeWhile_imp (p := (! isSeparator ·)) he
    have hu : '_' ∉ more ++ (sign ++ body) := by
      intro hmem
      rcases List.mem_append.mp hmem with hb | hcore
      · have := hblank '_' (hsplit ▸ by simp [hb])
        exact absurd this (by decide)
      · exact (hd.core_mem hs hcore).2 rfl
    have hl : ∀ e ∈ (d :: (more ++ (sign ++ body))).getLast?, isMargin e = false := by
      intro e he
      rw [← List.cons_append, List.getLast?_append_of_ne_nil _ (by simp [hd.ne_nil])] at he
      exact (hd.core_mem hs (List.mem_of_mem_getLast? he)).1
    have hp : blanks ++ sign ++ body =
        blanks.takeWhile (! isSeparator ·) ++ d :: (more ++ (sign ++ body)) := by
      nth_rewrite 1 [← hsplit]
      simp
    rw [hp]
    exact read?_of_separator hm (by simpa using hhead) hu hl

end Numeric

lemma Leads.blanks_eq {text : List Char} (h : Leads text p) (hn : Numeric p blanks x) :
    blanks = text.takeWhile isBlank := by
  obtain ⟨rest, rfl⟩ := h.head
  cases hn with
  | intro hb hs hd =>
    rw [List.append_assoc, List.append_assoc, (span_append hb (hd.head_not_blank hs rest)).1]

end Read

end LineBasic.Number
