import LineBasic.Number.Numeral
import Mathlib.Data.List.TakeWhile
import Mathlib.Tactic.Common

/-! Reading a plain decimal: margin, a sign, and digits with a point among them. -/

namespace LineBasic

namespace Text

lemma isBlank_digit : ∀ z ∈ digitZeros, ∀ i < 10, isBlank (Char.ofNat (z + i)) = false := by
  decide

variable {c : Char}

lemma isDigit_cases (h : isDigit c = true) :
    (48 ≤ c.toNat ∧ c.toNat ≤ 57) ∨ 0x80 ≤ c.toNat ∧ isBlank c = false := by
  rw [isDigit, digit?] at h
  split at h
  · split at h
    · rename_i hc
      exact .inl (by simpa [Char.le_def, UInt32.le_iff_toNat_le] using hc)
    · cases h
  · rename_i hc
    rw [Option.isSome_map, List.find?_isSome] at h
    obtain ⟨z, hz, hb⟩ := h
    simp only [Bool.and_eq_true, decide_eq_true_eq] at hb
    have hd := isBlank_digit z hz (c.toNat - z) (by omega)
    rw [show z + (c.toNat - z) = c.toNat by omega, Char.ofNat_toNat] at hd
    exact .inr ⟨by omega, hd⟩

lemma isBlank_of_isDigit (h : isDigit c = true) : isBlank c = false := by
  rcases isDigit_cases h with ⟨hl, hu⟩ | ⟨-, hb⟩
  · simp only [isBlank, Bool.or_eq_false_iff, Bool.and_eq_false_iff, decide_eq_false_iff_not,
      beq_eq_false_iff_ne]
    omega
  · exact hb

lemma toLower_of_not_capital (h : ¬ (65 ≤ c.toNat ∧ c.toNat ≤ 90)) : c.toLower = c := by
  refine dif_neg ?_
  simpa [UInt32.le_iff_toNat_le] using h

lemma toLower_of_isDigit (h : isDigit c = true) : c.toLower = c := by
  apply toLower_of_not_capital
  rcases isDigit_cases h with hc | hc <;> omega

variable {p : Char → Bool} {front : List Char} (hf : ∀ c ∈ front, p c = true)

include hf

lemma span_append {rest : List Char} (hr : ∀ c ∈ rest.head?, p c = false) :
    (front ++ rest).takeWhile p = front ∧ (front ++ rest).dropWhile p = rest := by
  rw [List.takeWhile_append_of_pos hf, List.dropWhile_append_of_pos hf]
  cases rest with
  | nil => simp
  | cons c rest =>
    have hc : ¬ p c = true := by simp [hr c rfl]
    rw [List.takeWhile_cons_of_neg hc, List.dropWhile_cons_of_neg hc, List.append_nil]
    exact ⟨rfl, rfl⟩

lemma span_append_cons (hc : p c = false) (rest : List Char) :
    (front ++ c :: rest).takeWhile p = front ∧ (front ++ c :: rest).dropWhile p = c :: rest :=
  span_append hf (by simpa using hc)

lemma trimBy_append {cs : List Char} (hh : ∀ c ∈ cs.head?, p c = false)
    (hl : ∀ c ∈ cs.getLast?, p c = false) : trimBy p (front ++ cs) = cs := by
  rw [trimBy, (span_append hf hh).2]
  cases hr : cs.reverse with
  | nil =>
    rw [List.reverse_eq_nil_iff] at hr
    rw [hr]
    rfl
  | cons c back =>
    have hc : p c = false := hl c (by rw [← List.head?_reverse, hr]; rfl)
    rw [List.dropWhile_cons_of_neg (by simp [hc]), ← hr, List.reverse_reverse]

end Text

namespace Number

open Text

lemma isBlank_of_isMargin {c : Char} (h : isMargin c = true) : isBlank c = true := by
  simp only [isMargin, Bool.or_eq_true, Bool.and_eq_true, beq_iff_eq, decide_eq_true_eq] at h
  rcases h with (rfl | h) | h
  · decide
  · simp [isBlank, h]
  · exact h.2

lemma isMargin_of_isDigit {c : Char} (h : isDigit c = true) : isMargin c = false := by
  rw [Bool.eq_false_iff]
  intro hm
  exact absurd (isBlank_of_isMargin hm) (by simp [isBlank_of_isDigit h])

/-- Digits, or digits before and after a point; there is a digit at least. -/
inductive Decimal : List Char → List Char → List Char → Prop
  | whole {ds : List Char} : (∀ c ∈ ds, isDigit c = true) → ds ≠ [] → Decimal ds ds []
  | point {ds es : List Char} : (∀ c ∈ ds, isDigit c = true) → (∀ c ∈ es, isDigit c = true) →
      ds ++ es ≠ [] → Decimal (ds ++ '.' :: es) ds es

inductive Sign : List Char → Bool → Prop
  | none : Sign [] false
  | plus : Sign ['+'] false
  | minus : Sign ['-'] true

lemma dropUnderscores_of_not_mem {cs : List Char} (h : '_' ∉ cs) {last : Option Char}
    (hl : last ≠ some '_') : dropUnderscores last cs = some cs := by
  induction cs generalizing last with
  | nil => simp [dropUnderscores, hl]
  | cons c cs ih =>
    rw [List.mem_cons, not_or] at h
    have hc : some c ≠ some '_' := by
      intro he
      exact h.1 (Option.some.inj he).symm
    rw [dropUnderscores, if_neg (Ne.symm h.1), if_neg (by simp [hl]), ih h.2 hc]
    rfl

lemma takeSign_of_ne {c : Char} (hm : c ≠ '-') (hp : c ≠ '+') (cs : List Char) :
    takeSign (c :: cs) = (false, c :: cs) := by
  rw [takeSign.eq_def]
  split
  · rename_i heq
    exact absurd (List.cons.inj heq).1 hm
  · rename_i heq
    exact absurd (List.cons.inj heq).1 hp
  · rfl

lemma takeDigits_of_all {ds : List Char} (hd : ∀ c ∈ ds, isDigit c = true) :
    takeDigits ds = (ds.filterMap digit?, []) := by
  rw [takeDigits, List.takeWhile_eq_self_iff.mpr hd, List.dropWhile_eq_nil_iff.mpr hd]

lemma takeDigits_point {ds : List Char} (hd : ∀ c ∈ ds, isDigit c = true) (rest : List Char) :
    takeDigits (ds ++ '.' :: rest) = (ds.filterMap digit?, '.' :: rest) := by
  obtain ⟨ht, he⟩ := span_append_cons (c := '.') hd (by decide) rest
  rw [takeDigits, ht, he]

lemma filterMap_digit_ne_nil {ds : List Char} (hd : ∀ c ∈ ds, isDigit c = true) (hne : ds ≠ []) :
    ds.filterMap digit? ≠ [] := by
  obtain ⟨c, ds, rfl⟩ := List.exists_cons_of_ne_nil hne
  obtain ⟨d, hc⟩ := Option.isSome_iff_exists.mp (hd c List.mem_cons_self)
  simp [hc]

namespace Decimal

variable {body whole fraction : List Char} (h : Decimal body whole fraction)

include h

lemma mem {c : Char} (hc : c ∈ body) : isDigit c = true ∨ c = '.' := by
  cases h with
  | whole hd => exact .inl (hd c hc)
  | point hd he =>
    rw [List.mem_append, List.mem_cons] at hc
    rcases hc with hc | rfl | hc
    · exact .inl (hd c hc)
    · exact .inr rfl
    · exact .inl (he c hc)

lemma exists_digit : ∃ c ∈ body, isDigit c = true := by
  cases h with
  | whole hd hne =>
    obtain ⟨c, ds, rfl⟩ := List.exists_cons_of_ne_nil hne
    exact ⟨c, List.mem_cons_self, hd c List.mem_cons_self⟩
  | point hd he hne =>
    obtain ⟨c, hc⟩ := List.exists_mem_of_ne_nil _ hne
    rcases List.mem_append.mp hc with hc | hc
    · exact ⟨c, by simp [hc], hd c hc⟩
    · exact ⟨c, by simp [hc], he c hc⟩

lemma ne_nil : body ≠ [] := by
  obtain ⟨c, hc, -⟩ := h.exists_digit
  exact List.ne_nil_of_mem hc

lemma not_mem {c : Char} (hd : isDigit c = false) (hp : c ≠ '.') : c ∉ body := by
  intro hc
  rcases h.mem hc with h | h
  · simp [hd] at h
  · exact hp h

omit h in
lemma head_ne_sign {c : Char} {cs : List Char} (h : Decimal (c :: cs) whole fraction) :
    c ≠ '-' ∧ c ≠ '+' := by
  constructor
  · rintro rfl
    exact h.not_mem (by decide) (by decide) List.mem_cons_self
  · rintro rfl
    exact h.not_mem (by decide) (by decide) List.mem_cons_self

lemma map_toLower : body.map Char.toLower = body := by
  rw [List.map_congr_left (g := id), List.map_id]
  intro c hc
  rcases h.mem hc with h | rfl
  · exact toLower_of_isDigit h
  · decide

lemma decimal?_eq (negative : Bool) : decimal? negative body =
    some (ofDigits negative (whole.filterMap digit?) (fraction.filterMap digit?) 0) := by
  cases h with
  | whole hd hne =>
    have hf := filterMap_digit_ne_nil hd hne
    simp [decimal?, takeDigits_of_all hd, hf, exponent?]
  | point hd he hne =>
    have hf : ¬ ((whole.filterMap digit?).isEmpty && (fraction.filterMap digit?).isEmpty) = true := by
      rw [Bool.and_eq_true, List.isEmpty_iff, List.isEmpty_iff, ← List.append_eq_nil_iff,
        ← List.filterMap_append]
      exact filterMap_digit_ne_nil (List.forall_mem_append.mpr ⟨hd, he⟩) hne
    simp only [decimal?, takeDigits_point hd, takeDigits_of_all he, exponent?, if_neg hf, Option.map_some]

lemma takeSign_append {sign : List Char} {negative : Bool} (hs : Sign sign negative) :
    takeSign (sign ++ body) = (negative, body) := by
  cases hs with
  | plus | minus => rfl
  | none =>
    obtain ⟨c, cs, rfl⟩ := List.exists_cons_of_ne_nil h.ne_nil
    have hc := h.head_ne_sign
    exact takeSign_of_ne hc.1 hc.2 cs

lemma core_mem {sign : List Char} {negative : Bool} (hs : Sign sign negative) {c : Char}
    (hc : c ∈ sign ++ body) : isMargin c = false ∧ c ≠ '_' := by
  rcases List.mem_append.mp hc with hc | hc
  · cases hs with
    | none => cases hc
    | plus | minus =>
      obtain rfl := List.mem_singleton.mp hc
      decide
  · rcases h.mem hc with hd | rfl
    · refine ⟨isMargin_of_isDigit hd, ?_⟩
      rintro rfl
      revert hd
      decide
    · decide

/-- What stands before a decimal does not change how it is read, apart from the sign. -/
lemma read?_eq {margin sign : List Char} {negative : Bool} (hm : ∀ c ∈ margin, isMargin c = true)
    (hs : Sign sign negative) : read? (.ofList (margin ++ sign ++ body)) =
      some (ofDigits negative (whole.filterMap digit?) (fraction.filterMap digit?) 0) := by
  have htrim : trimBy isMargin (margin ++ sign ++ body) = sign ++ body := by
    rw [List.append_assoc]
    exact trimBy_append hm (fun c hc => (h.core_mem hs (List.mem_of_mem_head? hc)).1)
      fun c hc => (h.core_mem hs (List.mem_of_mem_getLast? hc)).1
  have hdrop : dropUnderscores none (sign ++ body) = some (sign ++ body) :=
    dropUnderscores_of_not_mem (fun hu => (h.core_mem hs hu).2 rfl) (by simp)
  have hn : 'n' ∉ body := h.not_mem (by decide) (by decide)
  have hword : ∀ word : List Char, 'n' ∈ word → body ≠ word := by
    rintro word hw rfl
    exact hn hw
  simp only [read?, String.toList_ofList, htrim, hdrop, Option.bind_eq_bind, Option.bind_some,
    h.takeSign_append hs, h.map_toLower]
  rw [if_neg, if_neg, h.decimal?_eq]
  · exact hword _ (by simp)
  · exact not_or.mpr ⟨hword _ (by simp), hword _ (by simp)⟩

end Decimal

end Number

end LineBasic
