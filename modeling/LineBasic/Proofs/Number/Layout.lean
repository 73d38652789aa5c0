import LineBasic.Number.Layout
import LineBasic.Proofs.Number.Shortest
import LineBasic.Proofs.Token.Lexeme

/-! Numbers that are written out. What is laid out without an exponent is a numeral, and its digits write the number
that was laid out. -/

namespace LineBasic

namespace Text

/-- The number that digits write. -/
def natOf (cs : List Char) : Nat := natOfDigits (cs.filterMap digit?)

lemma natOfDigits_append (ds es : List Nat) :
    natOfDigits (ds ++ es) = natOfDigits ds * 10 ^ es.length + natOfDigits es := by
  induction es using List.reverseRecOn with
  | nil => simp [natOfDigits_nil]
  | append_singleton es e ih =>
    rw [← List.append_assoc, natOfDigits_concat, ih, natOfDigits_concat, List.length_append,
      List.length_singleton, pow_succ]
    ring

lemma natOf_append {ds : List Char} (cs : List Char) (hd : ∀ c ∈ ds, isDigit c = true) :
    natOf (cs ++ ds) = natOf cs * 10 ^ ds.length + natOf ds := by
  have hl : (ds.filterMap digit?).length = ds.length := List.filterMap_length_eq_length.mpr hd
  rw [natOf, List.filterMap_append, natOfDigits_append, hl, natOf, natOf]

lemma isDigit_of_mem_zeros {k : Nat} {c : Char} (hc : c ∈ List.replicate k '0') : isDigit c = true := by
  rw [List.eq_of_mem_replicate hc]
  decide

lemma natOf_zeros (k : Nat) : natOf (List.replicate k '0') = 0 := by
  have hz : digit? '0' = some 0 := by decide
  induction k with
  | zero => rfl
  | succ k ih =>
    rw [natOf] at ih
    rw [natOf, List.replicate_succ', List.filterMap_append, List.filterMap_cons_some hz, List.filterMap_nil,
      natOfDigits_concat, ih]

end Text

namespace Number

open Text Token

section Digits

variable {ds : List Char}

lemma dropFinalZeros_append (ds : List Char) : ∃ z, ds = dropFinalZeros ds ++ List.replicate z '0' := by
  refine ⟨(ds.reverse.takeWhile (· == '0')).length, ?_⟩
  have hz : (ds.reverse.takeWhile (· == '0')).reverse =
      List.replicate (ds.reverse.takeWhile (· == '0')).length '0' := by
    rw [List.eq_replicate_iff]
    refine ⟨List.length_reverse, fun c hc => ?_⟩
    simpa using List.mem_takeWhile_imp (List.mem_reverse.mp hc)
  rw [← hz, dropFinalZeros, ← List.reverse_append, List.takeWhile_append_dropWhile, List.reverse_reverse]

lemma natOf_dropFinalZeros (ds : List Char) : ∃ z, ds.length = (dropFinalZeros ds).length + z ∧
    natOf ds = natOf (dropFinalZeros ds) * 10 ^ z := by
  obtain ⟨z, hz⟩ := dropFinalZeros_append ds
  refine ⟨z, ?_, ?_⟩
  · conv_lhs => rw [hz, List.length_append, List.length_replicate]
  · conv_lhs => rw [hz, natOf_append _ fun c => isDigit_of_mem_zeros, natOf_zeros, List.length_replicate, add_zero]

lemma dropFinalZeros_subset {c : Char} (hc : c ∈ dropFinalZeros ds) : c ∈ ds := by
  obtain ⟨z, hz⟩ := dropFinalZeros_append ds
  rw [hz]
  exact List.mem_append_left _ hc

end Digits

section Layout

variable {ds : List Char} {top : ℤ}

lemma isNumeric_of_mem_zeros {k : Nat} {c : Char} (hc : c ∈ List.replicate k '0') : isNumeric c = true := by
  rw [List.eq_of_mem_replicate hc]
  decide

lemma layout_of_neg (hl : -4 ≤ top) (hu : top < 0) (ds : List Char) :
    layout ds top = ['0'] ++ '.' :: (List.replicate (-top - 1).toNat '0' ++ ds) := by
  unfold layout
  rw [if_neg (by omega), if_pos hu]
  rfl

lemma layout_of_le (hl : 0 ≤ top) (hu : top < 16) (hds : ds.length ≤ top.toNat + 1) :
    layout ds top = ds ++ List.replicate (top.toNat + 1 - ds.length) '0' ++ '.' :: ['0'] := by
  unfold layout
  rw [if_neg (by omega), if_neg (by omega)]
  exact if_pos hds

lemma layout_of_lt (hl : 0 ≤ top) (hu : top < 16) (hds : top.toNat + 1 < ds.length) :
    layout ds top = ds.take (top.toNat + 1) ++ '.' :: ds.drop (top.toNat + 1) := by
  unfold layout
  rw [if_neg (by omega), if_neg (by omega)]
  exact if_neg (by omega)

/-- What is laid out without an exponent is a numeral, and it writes the digits with their first at its place. -/
lemma layout_numeral (hd : ∀ c ∈ ds, isNumeric c = true) (hne : ds ≠ []) (hl : -4 ≤ top) (hu : top < 16) :
    ∃ whole fraction, IsNumeral (layout ds top) whole fraction ∧ fraction.length ≤ ds.length + 4 ∧
      (natOf (whole ++ fraction) : ℚ) * 10 ^ (-fraction.length : ℤ) = natOf ds * 10 ^ (top + 1 - ds.length) := by
  have hd' : ∀ c ∈ ds, isDigit c = true := fun c hc => isDigit_of_isNumeric (hd c hc)
  rcases Int.lt_or_le top 0 with hneg | hpos
  · refine ⟨['0'], List.replicate (-top - 1).toNat '0' ++ ds, ?_, ?_, ?_⟩
    · rw [layout_of_neg hl hneg]
      exact .point (fun c hc => isNumeric_of_mem_zeros (k := 1) hc) (by simp)
        (List.forall_mem_append.mpr ⟨fun c => isNumeric_of_mem_zeros, hd⟩) (by simp [hne])
    · rw [List.length_append, List.length_replicate]
      omega
    · have hz : natOf (['0'] ++ (List.replicate (-top - 1).toNat '0' ++ ds)) = natOf ds := by
        rw [← List.append_assoc, natOf_append _ hd', ← List.replicate_one, List.replicate_append_replicate,
          natOf_zeros, zero_mul, zero_add]
      rw [hz, List.length_append, List.length_replicate]
      congr 2
      omega
  · rcases Nat.lt_or_ge (top.toNat + 1) ds.length with hlt | hle
    · refine ⟨ds.take (top.toNat + 1), ds.drop (top.toNat + 1), ?_, ?_, ?_⟩
      · rw [layout_of_lt hpos hu hlt]
        exact .point (fun c hc => hd c (List.mem_of_mem_take hc)) (by simp [hne])
          (fun c hc => hd c (List.mem_of_mem_drop hc)) (by simpa using hlt)
      · rw [List.length_drop]
        omega
      · rw [List.take_append_drop, List.length_drop]
        congr 2
        omega
    · refine ⟨ds ++ List.replicate (top.toNat + 1 - ds.length) '0', ['0'], ?_, by simp, ?_⟩
      · rw [layout_of_le hpos hu hle]
        exact .point (List.forall_mem_append.mpr ⟨hd, fun c => isNumeric_of_mem_zeros⟩) (by simp [hne])
          (fun c hc => isNumeric_of_mem_zeros (k := 1) hc) (by simp)
      · have hz : natOf (ds ++ List.replicate (top.toNat + 1 - ds.length) '0' ++ ['0']) =
            natOf ds * 10 ^ (top.toNat + 1 - ds.length + 1) := by
          rw [List.append_assoc, ← List.replicate_succ', natOf_append _ fun c => isDigit_of_mem_zeros,
            natOf_zeros, List.length_replicate, add_zero]
        have he : top + 1 - (ds.length : ℤ) = (top.toNat + 1 - ds.length : ℕ) := by omega
        rw [hz, he, zpow_natCast, List.length_singleton]
        push_cast
        field_simp
        ring

end Layout

section Magnitude

variable {m : Nat} {q : ℤ}

lemma zpow_bounds_of_digits {d : Nat} (hd : 0 < d) (e : ℤ) :
    (10 : ℚ) ^ (e + (digitsOf d).length - 1) ≤ d * 10 ^ e ∧ (d * 10 ^ e : ℚ) < 10 ^ (e + (digitsOf d).length) := by
  obtain ⟨hl, hu⟩ := decimalSize_bounds hd
  have hs := decimalSize_pos d
  change (10 : ℚ) ^ (e + (decimalSize d : ℤ) - 1) ≤ _ ∧ _ < (10 : ℚ) ^ (e + (decimalSize d : ℤ))
  have hp : (0 : ℚ) < 10 ^ e := zpow_pos (by norm_num) e
  have h₁ : (10 : ℚ) ^ (e + (decimalSize d : ℤ) - 1) = 10 ^ (decimalSize d - 1) * 10 ^ e := by
    rw [← zpow_natCast, ← zpow_add₀ (by norm_num)]
    congr 1
    omega
  have h₂ : (10 : ℚ) ^ (e + (decimalSize d : ℤ)) = 10 ^ decimalSize d * 10 ^ e := by
    rw [← zpow_natCast, ← zpow_add₀ (by norm_num), add_comm]
  rw [h₁, h₂, mul_le_mul_iff_left₀ hp, mul_lt_mul_iff_left₀ hp]
  exact ⟨by exact_mod_cast hl, by exact_mod_cast hu⟩

/-- A float that is not whole and not too near to zero is written as a numeral that is read as this float. -/
lemma magnitude_numeral (hf : Fits m q) (hm : 2 ^ 52 ≤ m) (hq : -1074 < q) (hneg : q < 0)
    (hlow : (10 : ℚ) ^ (-4 : ℤ) ≤ m * 2 ^ q) : ∃ whole fraction, IsNumeral (magnitude m q) whole fraction ∧
      fraction.length ≤ 400 ∧ Within m q (natOf (whole ++ fraction) * 10 ^ (-fraction.length : ℤ)) := by
  obtain ⟨d, e, hs, hw, he, hten⟩ := shortest_within hm hf.mantissa_lt hq
  have h10 : (1 : ℚ) < 10 := by norm_num
  have hlog : -4 ≤ Int.log 10 ((m : ℚ) * 2 ^ q) :=
    (Int.zpow_le_iff_le_log (by decide) (hlow.trans_lt' (by positivity))).mp (by exact_mod_cast hlow)
  have hd : 0 < d := by
    rcases Nat.eq_zero_or_pos d with rfl | hd
    · have hp : (0 : ℚ) < 10 ^ Int.log 10 ((m : ℚ) * 2 ^ q) := zpow_pos (by norm_num) _
      rw [Nat.cast_zero, zero_mul] at hten
      linarith
    · exact hd
  obtain ⟨hl, hu⟩ := zpow_bounds_of_digits hd e
  have htop : -4 ≤ e + (digitsOf d).length - 1 := by
    have := (zpow_lt_zpow_iff_right₀ h10).mp (hten.trans_lt hu)
    omega
  have htop' : e + (digitsOf d).length - 1 < 16 := by
    have hp : (0 : ℚ) < 2 ^ q := zpow_pos two_pos q
    have hhalf : (2 : ℚ) ^ q ≤ 2 ^ (-1 : ℤ) := zpow_le_zpow_right₀ one_le_two (by omega)
    have hm' : (m : ℚ) + 1 ≤ 2 ^ 53 := by exact_mod_cast hf.mantissa_lt
    have hw₂ := (div_le_iff₀ hp).mp hw.2.1
    refine (zpow_lt_zpow_iff_right₀ h10).mp (hl.trans_lt (hw₂.trans_lt ?_))
    calc ((m : ℚ) + 1 / 2) * 2 ^ q ≤ 2 ^ 53 * 2 ^ (-1 : ℤ) := by
          gcongr
          linarith
      _ < 10 ^ (16 : ℤ) := by norm_num
  have hmag : magnitude m q = layout (dropFinalZeros (digitsOf d)) (e + (digitsOf d).length - 1) := by
    rw [magnitude, if_neg (by omega), hs]
  have hnum : ∀ c ∈ digitsOf d, isNumeric c = true := fun c => isNumeric_of_mem_toDigits
  obtain ⟨z, hlen, hval⟩ := natOf_dropFinalZeros (digitsOf d)
  have hdig : natOf (digitsOf d) = d := natOfDigits_toDigits d
  have hne : dropFinalZeros (digitsOf d) ≠ [] := by
    intro h
    rw [h, hdig] at hval
    simp [natOf, natOfDigits_nil] at hval
    omega
  obtain ⟨whole, fraction, hn, hle, hw'⟩ := layout_numeral (fun c hc => hnum c (dropFinalZeros_subset hc)) hne htop htop'
  refine ⟨whole, fraction, hmag ▸ hn, by omega, ?_⟩
  have hsum : e + (digitsOf d).length - 1 + 1 - (dropFinalZeros (digitsOf d)).length = z + e := by omega
  rw [hw', hsum, zpow_add₀ (by norm_num), zpow_natCast, ← mul_assoc]
  rw [hdig] at hval
  rwa [hval, Nat.cast_mul, Nat.cast_pow, Nat.cast_ofNat] at hw

end Magnitude

end Number

end LineBasic
