import LineBasic.Proofs.Number.Order
import LineBasic.Proofs.Number.Whole

/-! Correct rounding. The fractions that are rounded to a float are those of an interval around it, which
reaches half way to its neighbours. -/

namespace LineBasic.Number

lemma pow2_eq (k : Nat) : pow2 k = 2 ^ k := rfl

lemma pow10_eq (k : Nat) : pow10 k = 10 ^ k := rfl

section Powers

variable (b : Nat)

lemma zpow_eq_div (k : ℤ) : (b : ℚ) ^ k = (b : ℚ) ^ k.toNat / (b : ℚ) ^ (-k).toNat := by
  rcases Int.le_total 0 k with hk | hk
  · obtain ⟨n, rfl⟩ := Int.eq_ofNat_of_zero_le hk
    simp
  · obtain ⟨n, hn⟩ := Int.eq_ofNat_of_zero_le (Int.neg_nonneg.mpr hk)
    obtain rfl : k = -n := by omega
    simp

lemma scaled_div (num den : Nat) (k : ℤ) :
    ((num * b ^ (-k).toNat : ℕ) : ℚ) / (den * b ^ k.toNat : ℕ) = (num : ℚ) / den / (b : ℚ) ^ k := by
  rw [zpow_eq_div, div_div_eq_mul_div, div_mul_eq_mul_div, div_div]
  push_cast
  rfl

lemma scaled_lt_iff (hb : 0 < b) (num : Nat) {den : Nat} (hd : 0 < den) (k : ℤ) :
    num * b ^ (-k).toNat < den * b ^ k.toNat ↔ (num : ℚ) / den < (b : ℚ) ^ k := by
  have hp : (0 : ℚ) < (den * b ^ k.toNat : ℕ) := by
    have := Nat.mul_pos hd (Nat.pow_pos hb : 0 < b ^ k.toNat)
    exact_mod_cast this
  have hk : (0 : ℚ) < (b : ℚ) ^ k := zpow_pos (by exact_mod_cast hb) k
  rw [← Nat.cast_lt (α := ℚ), ← div_lt_one hp, scaled_div, div_lt_one hk]

end Powers

lemma log_eq {b : Nat} (hb : 1 < b) {r : ℚ} {k : ℤ} (hl : (b : ℚ) ^ k ≤ r) (hu : r < (b : ℚ) ^ (k + 1)) :
    Int.log b r = k := by
  have hb' : (0 : ℚ) < b := by exact_mod_cast hb.trans' one_pos
  have hr : 0 < r := (zpow_pos hb' k).trans_le hl
  have h₁ := (Int.zpow_le_iff_le_log hb hr).mp hl
  have h₂ := (Int.lt_zpow_iff_log_lt hb hr).mp hu
  omega

section RoundDiv

variable {num den k : Nat}

/-- Whole numbers that are at most a half away, and less than that if they are odd. -/
def Near (v : ℚ) (k : Nat) : Prop :=
  (k : ℚ) - 1 / 2 ≤ v ∧ v ≤ k + 1 / 2 ∧ (k % 2 = 1 → (k : ℚ) - 1 / 2 < v ∧ v < k + 1 / 2)

lemma roundDiv_of_near (hd : 0 < den) (h : Near ((num : ℚ) / den) k) : roundDiv num den = k := by
  have hd' : (0 : ℚ) < den := by exact_mod_cast hd
  obtain ⟨hl, hu, hodd⟩ := h
  rw [le_div_iff₀ hd'] at hl
  rw [div_le_iff₀ hd'] at hu
  rw [lt_div_iff₀ hd', div_lt_iff₀ hd'] at hodd
  have h₁ : 2 * (k * den) ≤ 2 * num + den := by
    exact_mod_cast (by linarith : 2 * ((k : ℚ) * den) ≤ 2 * num + den)
  have h₂ : 2 * num ≤ 2 * (k * den) + den := by
    exact_mod_cast (by linarith : 2 * (num : ℚ) ≤ 2 * (k * den) + den)
  have h₃ (hk : k % 2 = 1) : 2 * (k * den) < 2 * num + den ∧ 2 * num < 2 * (k * den) + den := by
    obtain ⟨hl, hu⟩ := hodd hk
    constructor
    · exact_mod_cast (by linarith : 2 * ((k : ℚ) * den) < 2 * num + den)
    · exact_mod_cast (by linarith : 2 * (num : ℚ) < 2 * (k * den) + den)
  have hn : num / den * den + num % den = num := Nat.div_add_mod' num den
  have hr := Nat.mod_lt num hd
  have hmul {i j : Nat} (h : i ≤ j) : i * den ≤ j * den := Nat.mul_le_mul_right den h
  have hsucc : (num / den + 1) * den = num / den * den + den := by ring
  -- The number is the quotient or the one after it, as its distance from `num / den` is less than 1.
  have hlow : num / den ≤ k := by
    by_contra hlt
    have := hmul (by omega : k + 1 ≤ num / den)
    have : (k + 1) * den = k * den + den := by ring
    omega
  have hhigh : k ≤ num / den + 1 := by
    by_contra hlt
    have := hmul (by omega : num / den + 1 + 1 ≤ k)
    have : (num / den + 1 + 1) * den = num / den * den + den + den := by ring
    omega
  simp only [roundDiv]
  rcases Nat.lt_or_eq_of_le hhigh with hk | rfl
  · obtain rfl : k = num / den := by omega
    rw [if_pos (by omega)]
  · rw [if_neg (by omega)]

end RoundDiv

section LastBit

variable {num den : Nat}

lemma lastBit_eq (hn : 0 < num) (hd : 0 < den) :
    lastBit num den = max (Int.log 2 ((num : ℚ) / den) - 52) (-1074) := by
  have hd' : (0 : ℚ) < den := by exact_mod_cast hd
  obtain ⟨hn₁, hn₂⟩ := log2_bounds hn
  obtain ⟨hd₁, hd₂⟩ := log2_bounds hd
  have hu : (num : ℚ) / den < 2 ^ ((num.log2 : ℤ) - den.log2 + 1) := by
    rw [div_lt_iff₀ hd']
    calc (num : ℚ) < 2 ^ (num.log2 + 1) := by exact_mod_cast hn₂
      _ = 2 ^ ((num.log2 : ℤ) - den.log2 + 1) * 2 ^ den.log2 := by
        rw [← zpow_natCast, ← zpow_natCast, ← zpow_add₀ two_ne_zero]
        congr 1
        omega
      _ ≤ 2 ^ ((num.log2 : ℤ) - den.log2 + 1) * den := by
        gcongr
        exact_mod_cast hd₁
  have hl : (2 : ℚ) ^ ((num.log2 : ℤ) - den.log2 - 1) ≤ num / den := by
    rw [le_div_iff₀ hd']
    calc (2 : ℚ) ^ ((num.log2 : ℤ) - den.log2 - 1) * den
        ≤ 2 ^ ((num.log2 : ℤ) - den.log2 - 1) * 2 ^ (den.log2 + 1) := by
          gcongr
          exact_mod_cast hd₂.le
      _ = 2 ^ num.log2 := by
        rw [← zpow_natCast, ← zpow_natCast, ← zpow_add₀ two_ne_zero]
        congr 1
        omega
      _ ≤ num := by exact_mod_cast hn₁
  have htest := scaled_lt_iff 2 two_pos num hd ((num.log2 : ℤ) - den.log2)
  simp only [lastBit, pow2_eq]
  congr 2
  by_cases hk : (num : ℚ) / den < 2 ^ ((num.log2 : ℤ) - den.log2)
  · rw [if_pos (htest.mpr hk)]
    exact (log_eq one_lt_two hl (by simpa using hk)).symm
  · rw [if_neg (htest.not.mpr hk)]
    exact (log_eq one_lt_two (not_lt.mp hk) hu).symm

lemma log_of_scaled {v : ℚ} {q : ℤ} (j : Nat) (hl : 2 ^ j ≤ v / 2 ^ q) (hu : v / 2 ^ q < 2 ^ (j + 1)) :
    Int.log 2 v = q + j := by
  have hp : (0 : ℚ) < 2 ^ q := zpow_pos two_pos q
  rw [le_div_iff₀ hp] at hl
  rw [div_lt_iff₀ hp] at hu
  refine log_eq one_lt_two (hl.trans_eq' ?_) (hu.trans_eq ?_)
  · rw [Nat.cast_ofNat, zpow_add₀ two_ne_zero, zpow_natCast, mul_comm]
  · rw [Nat.cast_ofNat, add_assoc, zpow_add₀ two_ne_zero, mul_comm]
    norm_cast

lemma nearestBits_of_near (hn : 0 < num) (hd : 0 < den) {q : ℤ} {m : Nat}
    (hl : Int.log 2 ((num : ℚ) / den) = q + 52) (hq : -1074 ≤ q) (hm : Near ((num : ℚ) / den / 2 ^ q) m)
    (hle : (q + 1074).toNat * 2 ^ 52 + m ≤ infinityBits) :
    nearestBits num den = (q + 1074).toNat * 2 ^ 52 + m := by
  have hlast : lastBit num den = q := by
    rw [lastBit_eq hn hd, hl]
    omega
  have hround : roundDiv (num * 2 ^ (-q).toNat) (den * 2 ^ q.toNat) = m := by
    apply roundDiv_of_near (Nat.mul_pos hd (Nat.two_pow_pos _))
    rw [scaled_div]
    exact hm
  simp only [nearestBits, if_neg hn.ne', hlast, pow2_eq, hround]
  exact Nat.min_eq_left hle

end LastBit

/-- The ends of an interval belong to it if the mantissa is even. The gap below a power of two is half the gap
above it. -/
def Within (m : Nat) (q : ℤ) (w : ℚ) : Prop :=
  (m : ℚ) - (if m = 2 ^ 52 then 1 / 4 else 1 / 2) ≤ w / 2 ^ q ∧ w / 2 ^ q ≤ m + 1 / 2 ∧
    (m % 2 = 1 → (m : ℚ) - 1 / 2 < w / 2 ^ q ∧ w / 2 ^ q < m + 1 / 2)

section Within

variable {m : Nat} {q : ℤ} (hf : Fits m q) (hm : 2 ^ 52 ≤ m) (hq : -1074 < q)

include hf hm hq

theorem nearestBits_of_within {num den : Nat} (hd : 0 < den) (h : Within m q ((num : ℚ) / den)) :
    nearestBits num den = magnitudeBits m q := by
  have hlt := hf.magnitudeBits_lt
  have hm₁ : (2 : ℚ) ^ 52 ≤ m := by exact_mod_cast hm
  have hm₂ : (m : ℚ) + 1 ≤ 2 ^ 53 := by exact_mod_cast hf.mantissa_lt
  obtain ⟨hl, hu, hodd⟩ := h
  have hgap : (if m = 2 ^ 52 then 1 / 4 else 1 / 2 : ℚ) ≤ 1 / 2 := by split_ifs <;> norm_num
  have hn : 0 < num := by
    rcases Nat.eq_zero_or_pos num with rfl | hn
    · norm_num at hl
      linarith
    · exact hn
  rcases le_or_gt ((2 : ℚ) ^ 52) ((num : ℚ) / den / 2 ^ q) with ht | ht
  · have hlog := log_of_scaled 52 ht (by linarith)
    exact nearestBits_of_near hn hd hlog hq.le ⟨by linarith, hu, hodd⟩ hlt.le
  · -- Only below a power of two can a fraction have one bit less, and then it is rounded up to that power.
    obtain rfl : m = 2 ^ 52 := by
      by_contra hne
      have hm₃ : (2 : ℚ) ^ 52 + 1 ≤ m := by exact_mod_cast (by omega : 2 ^ 52 + 1 ≤ m)
      linarith
    have hscale : (num : ℚ) / den / 2 ^ (q - 1) = 2 * ((num : ℚ) / den / 2 ^ q) := by
      rw [zpow_sub_one₀ two_ne_zero]
      field_simp
    rw [if_pos rfl] at hl
    push_cast at hl
    have hlog := log_of_scaled (v := (num : ℚ) / den) (q := q - 1) 52 (by linarith) (by linarith)
    have hnear : Near ((num : ℚ) / den / 2 ^ (q - 1)) (2 ^ 53) := by
      refine ⟨?_, ?_, by norm_num⟩
      · push_cast
        linarith
      · push_cast
        linarith
    have hbits : (q - 1 + 1074).toNat * 2 ^ 52 + 2 ^ 53 = magnitudeBits (2 ^ 52) q := by
      rw [magnitudeBits]
      omega
    rw [nearestBits_of_near hn hd hlog (by omega) hnear (hbits.trans_le hlt.le), hbits]

/-- A decimal of the interval is read as the float. -/
lemma ofDecimal_of_within {digits k : Nat} (hk : k ≤ 400) (h : Within m q (digits * 10 ^ (-k : ℤ)))
    (negative : Bool) :
    ofDecimal negative digits (-k) = .ofBits (.ofNat (signBit negative + magnitudeBits m q)) := by
  have hz : digits ≠ 0 := by
    rintro rfl
    have hm₁ : (2 : ℚ) ^ 52 ≤ m := by exact_mod_cast hm
    have hl := h.1
    have hgap : (if m = 2 ^ 52 then 1 / 4 else 1 / 2 : ℚ) ≤ 1 / 2 := by split_ifs <;> norm_num
    norm_num at hl
    linarith
  have hd : (digits : ℚ) * 10 ^ (-k : ℤ) = (digits * 10 ^ (-k : ℤ).toNat : ℕ) / (10 ^ (- -k : ℤ).toNat : ℕ) := by
    rw [zpow_neg, zpow_natCast]
    simp [div_eq_mul_inv]
  rw [hd] at h
  rw [ofDecimal, if_neg (by omega), if_neg (by omega), nearest]
  rw [pow10_eq, pow10_eq, nearestBits_of_within hf hm hq (by positivity) h]

end Within

end LineBasic.Number
