import LineBasic.Proofs.Number.Layout
import LineBasic.Proofs.Number.Leading
import LineBasic.Value.Arithmetic

/-! A number that was printed can be typed in again, as an answer and as a part of a program, and is the same number
then. -/

namespace LineBasic

open Text (natOf digit?)
open Token (IsNumeral)

namespace Number

section Reading

variable {body whole fraction sign : List Char} {negative : Bool}

lemma decimalHead_numeral (h : IsNumeral body whole fraction) : decimalHead body = body := by
  have hle := h.decimal.le_decimalHead []
  rw [List.append_nil] at hle
  exact (decimalHead_le body).eq_of_length_le hle.length_le

lemma ofAnswer_numeral (h : IsNumeral body whole fraction) (hs : Sign sign negative) :
    Value.ofAnswer (.ofList (sign ++ body)) =
      .ok (ofDigits negative (whole.filterMap digit?) (fraction.filterMap digit?) 0) := by
  have hb : ∀ c ∈ ([] : List Char), Text.isBlank c = true := by simp
  have hm : ∀ c ∈ ([] : List Char), isMargin c = true := by simp
  have hl := leading?_append hs h.decimal hb []
  have hr := h.decimal.read?_eq hm hs
  rw [List.append_nil, List.append_nil, decimalHead_numeral h, List.nil_append] at hl
  rw [List.nil_append] at hr
  simp only [Value.ofAnswer, String.toList_ofList, hl, hr]

end Reading

end Number

namespace Token

lemma scan_numeral {body whole fraction : List Char} (h : IsNumeral body whole fraction) (line : Int) :
    ∃ column column', scan (.ofList body) line = .ok [⟨.number, .ofList body,
      .number (Number.ofDigits false (whole.filterMap digit?) (fraction.filterMap digit?) 0), line, column⟩,
      endToken line column'] := by
  obtain ⟨c, cs, rfl, hc, hr⟩ := (Spells.numeral h h.read?_eq).read_append parted_nil
  rw [List.append_nil] at hr
  obtain ⟨column, hs⟩ := scanFrom_found line 1 (List.dropWhile_cons_of_neg (by simp [hc])) hr (by decide)
  refine ⟨column, column + (c :: cs).length + ([] : List Char).length, ?_⟩
  rw [scan, String.toList_ofList, hs, scanFrom_end line _ rfl]
  rfl

end Token

namespace Number

section Printed

variable {x : Float} {m : Nat} {q : ℤ} {negative : Bool}

lemma within_self (m : Nat) (q : ℤ) : Within m q (m * 2 ^ q) := by
  have hp : (0 : ℚ) < 2 ^ q := zpow_pos two_pos q
  apply within_of_lt <;> rw [mul_div_cancel_right₀ _ hp.ne']
  · split_ifs <;> linarith
  · linarith

lemma ofDigits_numeral {body whole fraction : List Char} (h : IsNumeral body whole fraction) (negative : Bool) :
    ofDigits negative (whole.filterMap digit?) (fraction.filterMap digit?) 0 =
      ofDecimal negative (natOf (whole ++ fraction)) (-fraction.length) := by
  have hf : ∀ c ∈ fraction, Text.isDigit c = true := by
    cases h with
    | whole => simp
    | point _ _ he => exact fun c hc => Token.isDigit_of_isNumeric (he c hc)
  have hl : (fraction.filterMap digit?).length = fraction.length := List.filterMap_length_eq_length.mpr hf
  rw [ofDigits, hl, zero_sub, natOf, List.filterMap_append]

lemma integer?_eq_some {n : ℤ} (h : (Shape.finite negative m q).integer? = some n) :
    (n.natAbs : ℚ) = m * 2 ^ q ∧ (n < 0 ↔ negative = true ∧ 0 < m) := by
  simp only [Shape.integer?, pow2_eq] at h
  obtain ⟨hdvd, h⟩ := Option.ite_none_right_eq_some.mp h
  have hz := zpow_eq_div 2 q
  rw [Nat.cast_ofNat] at hz
  have hp := Nat.two_pow_pos (-q).toNat
  have hN : ((m / 2 ^ (-q).toNat * 2 ^ q.toNat : ℕ) : ℚ) = m * 2 ^ q := by
    rw [hz, Nat.cast_mul, Nat.cast_div (Nat.dvd_of_mod_eq_zero hdvd) (by positivity)]
    push_cast
    ring
  have hpos : 0 < m / 2 ^ (-q).toNat * 2 ^ q.toNat ↔ 0 < m := by
    rw [← Nat.cast_pos (α := ℚ), hN, mul_pos_iff_of_pos_right (zpow_pos two_pos q), Nat.cast_pos]
  generalize m / 2 ^ (-q).toNat * 2 ^ q.toNat = N at *
  obtain rfl := Option.some.inj h
  cases negative with
  | false => exact ⟨by simpa using hN, by simp⟩
  | true => exact ⟨by simpa using hN, by simpa using hpos⟩

lemma integer?_eq_none (h : (Shape.finite negative m q).integer? = none) : 0 < m ∧ q < 0 := by
  simp only [Shape.integer?, pow2_eq] at h
  split_ifs at h with hdvd
  constructor
  · rcases Nat.eq_zero_or_pos m with rfl | hm
    · simp at hdvd
    · exact hm
  · by_contra hq
    rw [Int.toNat_eq_zero.mpr (by omega), pow_zero, Nat.mod_one] at hdvd
    exact hdvd rfl

/-- What is printed of a float that is not too near to zero is a numeral with the sign of the float before it, and
this is read as the float. -/
lemma printed_numeral (h : shape x = .finite negative m q) (hm : 2 ^ 52 ≤ m) (hq : -1074 < q)
    (hlow : (10 : ℚ) ^ (-4 : ℤ) ≤ m * 2 ^ q) : ∃ body whole fraction, IsNumeral body whole fraction ∧
      printed x = signed negative body ∧
      ofDigits negative (whole.filterMap digit?) (fraction.filterMap digit?) 0 = x := by
  obtain ⟨hf, hx⟩ := fits_of_shape h
  have hread {whole fraction body : List Char} (hn : IsNumeral body whole fraction)
      (hl : fraction.length ≤ 400) (hw : Within m q (natOf (whole ++ fraction) * 10 ^ (-fraction.length : ℤ))) :
      ofDigits negative (whole.filterMap digit?) (fraction.filterMap digit?) 0 = x := by
    rw [ofDigits_numeral hn, ofDecimal_of_within hf hm hq hl hw, ← hx]
  cases hi : (Shape.finite negative m q).integer? with
  | none =>
    obtain ⟨-, hneg⟩ := integer?_eq_none hi
    obtain ⟨whole, fraction, hn, hl, hw⟩ := magnitude_numeral hf hm hq hneg hlow
    refine ⟨_, whole, fraction, hn, ?_, hread hn hl hw⟩
    simp only [printed, h, hi]
  | some n =>
    obtain ⟨hN, hneg⟩ := integer?_eq_some hi
    have hn : IsNumeral (digitsOf n.natAbs) (digitsOf n.natAbs) [] :=
      .whole (fun c => Token.isNumeric_of_mem_toDigits) Nat.toDigits_ne_nil
    refine ⟨_, _, [], hn, ?_, hread hn (by simp) ?_⟩
    · have hs : decide (n < 0) = negative := by
        rw [Bool.eq_iff_iff, decide_eq_true_iff, hneg]
        exact and_iff_left (by omega)
      simp only [printed, h, hi, hs]
    · have hd : natOf (digitsOf n.natAbs) = n.natAbs := Text.natOfDigits_toDigits _
      rw [List.append_nil, hd, hN]
      simpa using within_self m q

end Printed

section Conditions

lemma unpack_zero : (0 : Float).toModel.unpack = .zero .positive := by
  have hs : shape 0 = .finite false 0 (-1074) := by decide +kernel
  rw [unpack_toModel, hs]
  rfl

variable {x : Float} {m : Nat} {q : ℤ} {negative : Bool} (h : shape x = .finite negative m q)

include h

lemma beq_self_of_finite : (x == x) = true := by
  have hnone : (comparison x x).isNone = (x.isNaN || x.isNaN) := isNone_compare _ _
  have hswap : comparison x x = (comparison x x).map Ordering.swap := compare_swap _ _
  have hn : x.isNaN = false := by
    rw [Bool.eq_false_iff, ne_eq, isNaN_iff, h]
    simp
  rw [hn] at hnone
  rw [beq_iff]
  cases hc : comparison x x with
  | none => simp [hc] at hnone
  | some o =>
    rw [hc] at hswap
    cases o <;> simp at hswap ⊢

lemma unpack_of_pos (hm : 0 < m) : x.toModel.unpack = .finite (signOf negative) m q hm := by
  rw [unpack_toModel, h, Shape.unpacked_finite]

lemma eq_zero_of_beq (hx : (x == 0) = true) : m = 0 := by
  by_contra hm
  rw [beq_iff, comparison, unpack_of_pos h (Nat.pos_of_ne_zero hm), unpack_zero] at hx
  cases negative <;> cases hx

lemma not_negative (hm : 0 < m) (hx : 0 ≤ x) : negative = false := by
  obtain ⟨o, ho, hle⟩ := le_iff.mp hx
  rw [comparison, unpack_of_pos h hm, unpack_zero] at ho
  cases negative with
  | false => rfl
  | true =>
    obtain rfl := Option.some.inj ho
    cases hle

lemma normal_of_le (hx : 1e-4 ≤ x.abs) : 2 ^ 52 ≤ m ∧ -1074 < q ∧ (10 : ℚ) ^ (-4 : ℤ) ≤ m * 2 ^ q := by
  have hs : shape 1e-4 = .finite false 0x1A36E2EB1C432D (-66) := by decide +kernel
  obtain ⟨hf, -⟩ := fits_of_shape h
  have habs := shape_abs h
  obtain ⟨o, ho, hle⟩ := le_iff.mp hx
  have hm : 0 < m := by
    by_contra hm
    obtain rfl : m = 0 := by omega
    rw [comparison, unpack_of_pos hs (by decide), unpack_toModel, habs] at ho
    obtain rfl := Option.some.inj ho
    cases hle
  -- The exponents are compared first, and the mantissas if they are equal.
  have hcases : -66 < q ∨ q = -66 ∧ 0x1A36E2EB1C432D ≤ m := by
    rw [comparison, unpack_of_pos hs (by decide), unpack_of_pos habs hm] at ho
    obtain rfl := Option.some.inj ho
    rcases lt_trichotomy (-66) q with hq | rfl | hq
    · exact .inl hq
    · rw [compare_eq_iff_eq.mpr rfl, Ordering.eq_then] at hle
      exact .inr ⟨rfl, Nat.isLE_compare.mp hle⟩
    · rw [compare_gt_iff_gt.mpr hq] at hle
      cases hle
  have hm' : 2 ^ 52 ≤ m := hf.normal.resolve_right (by omega)
  refine ⟨hm', by omega, ?_⟩
  rcases hcases with hq | ⟨rfl, hM⟩
  · calc (10 : ℚ) ^ (-4 : ℤ) ≤ 2 ^ 52 * 2 ^ (-65 : ℤ) := by norm_num
      _ ≤ m * 2 ^ q := by
        gcongr
        · exact_mod_cast hm'
        · norm_num
        · omega
  · calc (10 : ℚ) ^ (-4 : ℤ) ≤ 0x1A36E2EB1C432D * 2 ^ (-66 : ℤ) := by norm_num
      _ ≤ m * 2 ^ (-66 : ℤ) := by
        gcongr
        exact_mod_cast hM

end Conditions

lemma printed_zero {x : Float} {q : ℤ} {negative : Bool} (h : shape x = .finite negative 0 q) :
    printed x = .ofList ['0'] ∧ (ofDigits false [0] [] 0 == x) = true := by
  constructor
  · cases negative <;> simp [printed, h, Shape.integer?, signed, digitsOf]
  · have hs : shape (ofDigits false [0] [] 0) = .finite false 0 (-1074) := by decide +kernel
    rw [beq_iff, comparison, unpack_toModel, unpack_toModel, hs, h]
    rfl

/-- What is printed is a numeral with a sign that may be missing, and is missing from what is not negative. -/
lemma printed_spec {x : Float} (hfin : x.isFinite = true) (hx : (x == 0) = true ∨ 1e-4 ≤ x.abs) :
    ∃ sign negative body whole fraction, Sign sign negative ∧ IsNumeral body whole fraction ∧
      printed x = .ofList (sign ++ body) ∧ (0 ≤ x → sign = []) ∧
      (ofDigits negative (whole.filterMap digit?) (fraction.filterMap digit?) 0 == x) = true := by
  obtain ⟨negative, m, q, h⟩ := isFinite_iff.mp hfin
  rcases Nat.eq_zero_or_pos m with rfl | hm
  · obtain ⟨hp, hy⟩ := printed_zero h
    have hn : IsNumeral ['0'] ['0'] [] := .whole (fun c hc => isNumeric_of_mem_zeros (k := 1) hc) (by simp)
    exact ⟨[], false, ['0'], ['0'], [], .none, hn, hp, fun _ => rfl, hy⟩
  · obtain ⟨hm', hq, hlow⟩ := normal_of_le h (hx.resolve_left fun hz => hm.ne' (eq_zero_of_beq h hz))
    obtain ⟨body, whole, fraction, hn, hp, hr⟩ := printed_numeral h hm' hq hlow
    have hy := beq_self_of_finite h
    nth_rewrite 1 [← hr] at hy
    cases negative with
    | false => exact ⟨[], false, body, whole, fraction, .none, hn, hp, fun _ => rfl, hy⟩
    | true =>
      refine ⟨['-'], true, body, whole, fraction, .minus, hn, hp, fun hle => ?_, hy⟩
      cases not_negative h hm hle

end Number

namespace Value

/-- Every finite number that is zero or not below `1e-4` can be typed in again. -/
theorem printed_retyped {x : Float} (hfin : x.isFinite = true) (hx : (x == 0) = true ∨ 1e-4 ≤ x.abs) :
    ∃ text, printed (.number x) = .ok text ∧ (∃ y, ofAnswer text = .ok y ∧ (y == x) = true) ∧
      (0 ≤ x → ∀ line, ∃ y column column', Token.scan text line =
        .ok [⟨.number, text, .number y, line, column⟩, Token.endToken line column'] ∧ (y == x) = true) := by
  obtain ⟨sign, negative, body, whole, fraction, hs, hn, hp, hnone, hy⟩ := Number.printed_spec hfin hx
  refine ⟨.ofList (sign ++ body), congrArg Except.ok hp, ⟨_, Number.ofAnswer_numeral hn hs, hy⟩, fun hle line => ?_⟩
  obtain rfl := hnone hle
  cases hs
  obtain ⟨column, column', hscan⟩ := Token.scan_numeral hn line
  exact ⟨_, column, column', hscan, hy⟩

theorem tenth_retyped :
    (∃ text, printed (.number 0.1) = .ok text ∧ ∀ line, ∃ y column column', Token.scan text line =
      .ok [⟨.number, text, .number y, line, column⟩, Token.endToken line column'] ∧ (y == 0.1) = true) ∧
    ∃ text y, printed (.number (-1e22)) = .ok text ∧ ofAnswer text = .ok y ∧ (y == -1e22) = true := by
  constructor
  · obtain ⟨text, hp, -, hs⟩ := printed_retyped (x := 0.1) (by decide +kernel) (.inr (by decide +kernel))
    exact ⟨text, hp, hs (by decide +kernel)⟩
  · obtain ⟨text, hp, ⟨y, ha, hy⟩, -⟩ := printed_retyped (x := -1e22) (by decide +kernel) (.inr (by decide +kernel))
    exact ⟨text, y, hp, ha, hy⟩

end Value

end LineBasic
