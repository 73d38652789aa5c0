import LineBasic.Number.Numeral
import LineBasic.Proofs.Number.Bits

/-! Whole numbers as floats. A float holds 53 bits, so that a whole number of more bits is rounded to
the nearest one whose last bits are zero. -/

namespace LineBasic.Number

/-- At most 53 bits, and zeros behind them. -/
def Representable (n : Nat) : Prop := ∃ m k, m < 2 ^ 53 ∧ n = m * 2 ^ k

/-- The whole number that the float nearest to `n` stands for. -/
def rounded (n : Nat) : Nat := roundDiv n (2 ^ (n.log2 - 52)) * 2 ^ (n.log2 - 52)

section RoundDiv

variable {n d : Nat}

lemma roundDiv_of_dvd (hd : 0 < d) (h : d ∣ n) : roundDiv n d = n / d := by
  have hr : n % d = 0 := Nat.mod_eq_zero_of_dvd h
  simp [roundDiv, hr, hd]

lemma roundDiv_bounds (n d : Nat) : n / d ≤ roundDiv n d ∧ roundDiv n d ≤ n / d + 1 := by
  simp only [roundDiv]
  split <;> omega

/-- No multiple of `d` is nearer than the one that rounding chooses. -/
lemma roundDiv_nearest (hd : 0 < d) (j : Nat) :
    ((n : ℤ) - (roundDiv n d * d : ℕ)).natAbs ≤ ((n : ℤ) - (j * d : ℕ)).natAbs := by
  have hn : n = n / d * d + n % d := (Nat.div_add_mod' n d).symm
  have hr := Nat.mod_lt n hd
  have hk : (n / d + 1) * d = n / d * d + d := by ring
  -- A multiple lies at or below the quotient, or past it; rounding takes the nearer of the two.
  have hj : j * d ≤ n / d * d ∨ n / d * d + d ≤ j * d := by
    rcases Nat.lt_or_ge (n / d) j with h | h
    · exact .inr (hk ▸ Nat.mul_le_mul_right d h)
    · exact .inl (Nat.mul_le_mul_right d h)
  simp only [roundDiv]
  generalize hq : n / d * d = q at *
  generalize j * d = m at *
  split
  · rw [hq]
    omega
  · rw [hk]
    omega

end RoundDiv

lemma two_pow_mul {a b c : Nat} (h : c = a + b) : 2 ^ c = 2 ^ a * 2 ^ b := by rw [h, pow_add]

variable {n : Nat}

lemma log2_bounds (hn : 0 < n) : 2 ^ n.log2 ≤ n ∧ n < 2 ^ (n.log2 + 1) :=
  (Nat.log2_eq_iff hn.ne').mp rfl

lemma rounded_of_representable (h : Representable n) : rounded n = n := by
  obtain ⟨m, k, hm, rfl⟩ := h
  rcases Nat.eq_zero_or_pos (m * 2 ^ k) with hz | hn
  · rw [hz]
    rfl
  · have hlt : m * 2 ^ k < 2 ^ (53 + k) := by
      rw [pow_add]
      exact Nat.mul_lt_mul_of_pos_right hm (Nat.two_pow_pos k)
    have hlog : (m * 2 ^ k).log2 - 52 ≤ k := by
      have := (Nat.log2_lt hn.ne').mpr hlt
      omega
    have hd : 2 ^ ((m * 2 ^ k).log2 - 52) ∣ m * 2 ^ k := (Nat.pow_dvd_pow 2 hlog).mul_left m
    rw [rounded, roundDiv_of_dvd (Nat.two_pow_pos _) hd, Nat.div_mul_cancel hd]

lemma quotient_bounds (hn : 0 < n) (hl : 52 ≤ n.log2) :
    2 ^ 52 ≤ n / 2 ^ (n.log2 - 52) ∧ n / 2 ^ (n.log2 - 52) < 2 ^ 53 := by
  obtain ⟨hlo, hhi⟩ := log2_bounds hn
  have hp := Nat.two_pow_pos (n.log2 - 52)
  have e₁ : 2 ^ n.log2 = 2 ^ 52 * 2 ^ (n.log2 - 52) := two_pow_mul (by omega)
  have e₂ : 2 ^ (n.log2 + 1) = 2 ^ 53 * 2 ^ (n.log2 - 52) := two_pow_mul (by omega)
  exact ⟨(Nat.le_div_iff_mul_le hp).mpr (e₁ ▸ hlo), (Nat.div_lt_iff_lt_mul hp).mpr (e₂ ▸ hhi)⟩

lemma representable_of_le {m : Nat} (hm : m ≤ 2 ^ 53) (k : Nat) : Representable (m * 2 ^ k) := by
  rcases Nat.lt_or_eq_of_le hm with hm | rfl
  · exact ⟨m, k, hm, rfl⟩
  · exact ⟨2 ^ 52, k + 1, by norm_num, by ring⟩

lemma representable_of_log2 (hn : 0 < n) (hl : n.log2 ≤ 52) : Representable n := by
  refine ⟨n, 0, ?_, by simp⟩
  have hp : 2 ^ (n.log2 + 1) ≤ 2 ^ 53 := Nat.pow_le_pow_right (by decide) (by omega)
  exact (log2_bounds hn).2.trans_le hp

lemma rounded_representable (hn : 0 < n) : Representable (rounded n) := by
  rcases Nat.lt_or_ge n.log2 52 with hl | hl
  · have hr := representable_of_log2 hn hl.le
    rwa [rounded_of_representable hr]
  · have hb := roundDiv_bounds n (2 ^ (n.log2 - 52))
    have hq := quotient_bounds hn hl
    exact representable_of_le (by omega) _

lemma rounded_nearest (hn : 0 < n) {v : Nat} (hv : Representable v) :
    ((n : ℤ) - rounded n).natAbs ≤ ((n : ℤ) - v).natAbs := by
  obtain ⟨m, k, hm, rfl⟩ := hv
  have hd := Nat.two_pow_pos (n.log2 - 52)
  rcases Nat.lt_or_ge k (n.log2 - 52) with hk | hk
  · -- What has bits below the last one kept is less than the leading bit of `n`.
    have hlt : m * 2 ^ k ≤ 2 ^ n.log2 := by
      calc m * 2 ^ k ≤ 2 ^ 53 * 2 ^ k := Nat.mul_le_mul_right _ hm.le
        _ = 2 ^ (53 + k) := (two_pow_mul rfl).symm
        _ ≤ 2 ^ n.log2 := Nat.pow_le_pow_right (by decide) (by omega)
    have he : 2 ^ n.log2 = 2 ^ 52 * 2 ^ (n.log2 - 52) := two_pow_mul (by omega)
    have hlo := (log2_bounds hn).1
    have hnear := roundDiv_nearest (n := n) hd (2 ^ 52)
    rw [← he] at hnear
    rw [rounded]
    omega
  · have he : 2 ^ k = 2 ^ (k - (n.log2 - 52)) * 2 ^ (n.log2 - 52) := two_pow_mul (by omega)
    rw [he, ← mul_assoc]
    exact roundDiv_nearest hd _

lemma rounded_eq_iff (hn : 0 < n) : rounded n = n ↔ Representable n :=
  ⟨fun h => h ▸ rounded_representable hn, rounded_of_representable⟩

lemma lastBit_whole (hn : 0 < n) : lastBit n 1 = n.log2 - 52 := by
  have hlo := (log2_bounds hn).1
  have h1 : Nat.log2 1 = 0 := by decide
  have hk : ¬ n * pow2 (-((n.log2 : Int) - (0 : Nat))).toNat <
      1 * pow2 ((n.log2 : Int) - (0 : Nat)).toNat := by
    have ht : ((n.log2 : Int) - (0 : Nat)).toNat = n.log2 := by omega
    have hz : (-((n.log2 : Int) - (0 : Nat))).toNat = 0 := by omega
    rw [ht, hz]
    simpa using hlo
  simp only [lastBit, h1]
  rw [if_neg hk]
  omega

/-- The 53 bits that are kept, the first of which is set, or one more if rounding carries. -/
def mantissa (n : Nat) : Nat := roundDiv (n * 2 ^ (52 - n.log2)) (2 ^ (n.log2 - 52))

lemma mantissa_bounds (hn : 0 < n) : 2 ^ 52 ≤ mantissa n ∧ mantissa n ≤ 2 ^ 53 := by
  rcases Nat.lt_or_ge n.log2 52 with hl | hl
  · obtain ⟨hlo, hhi⟩ := log2_bounds hn
    have hm : mantissa n = n * 2 ^ (52 - n.log2) := by
      rw [mantissa, Nat.sub_eq_zero_of_le hl.le, pow_zero, roundDiv_of_dvd one_pos (one_dvd _), Nat.div_one]
    have e₁ : 2 ^ 52 = 2 ^ n.log2 * 2 ^ (52 - n.log2) := two_pow_mul (by omega)
    have e₂ : 2 ^ 53 = 2 ^ (n.log2 + 1) * 2 ^ (52 - n.log2) := two_pow_mul (by omega)
    rw [hm, e₁, e₂]
    exact ⟨Nat.mul_le_mul_right _ hlo, Nat.mul_le_mul_right _ hhi.le⟩
  · have hm : mantissa n = roundDiv n (2 ^ (n.log2 - 52)) := by
      rw [mantissa, Nat.sub_eq_zero_of_le hl, pow_zero, mul_one]
    have hb := roundDiv_bounds n (2 ^ (n.log2 - 52))
    have hq := quotient_bounds hn hl
    omega

lemma mantissa_mul (hn : 0 < n) :
    mantissa n * 2 ^ (n.log2 - 52) = rounded n * 2 ^ (52 - n.log2) := by
  rcases Nat.lt_or_ge n.log2 52 with hl | hl
  · rw [rounded_of_representable (representable_of_log2 hn hl.le), mantissa, Nat.sub_eq_zero_of_le hl.le,
      pow_zero, roundDiv_of_dvd one_pos (one_dvd _), Nat.div_one, mul_one]
  · rw [rounded, mantissa, Nat.sub_eq_zero_of_le hl, pow_zero, mul_one, mul_one]

lemma nearestBits_whole (hn : 0 < n) :
    nearestBits n 1 = min ((n.log2 + 1022) * 2 ^ 52 + mantissa n) infinityBits := by
  have hq : ((n.log2 : Int) - 52 + 1074).toNat = n.log2 + 1022 := by omega
  have hp : ((n.log2 : Int) - 52).toNat = n.log2 - 52 := by omega
  have hm : (-((n.log2 : Int) - 52)).toNat = 52 - n.log2 := by omega
  simp only [nearestBits, if_neg hn.ne', lastBit_whole hn, hq, hp, hm, one_mul]
  rfl

lemma shapeOfBits_normal {e f : Nat} (he : 0 < e) (he' : e < 2047) (hf : f < 2 ^ 52) :
    shapeOfBits (e * 2 ^ 52 + f) = .finite false (2 ^ 52 + f) (e - 1075) := by
  have h₁ : (e * 2 ^ 52 + f) / pow2 63 % 2 = 0 := by
    change (e * 2 ^ 52 + f) / 2 ^ 63 % 2 = 0
    omega
  have h₂ : (e * 2 ^ 52 + f) / pow2 52 % pow2 11 = e := by
    change (e * 2 ^ 52 + f) / 2 ^ 52 % 2 ^ 11 = e
    omega
  have h₃ : (e * 2 ^ 52 + f) % pow2 52 = f := by
    change (e * 2 ^ 52 + f) % 2 ^ 52 = f
    omega
  simp only [shapeOfBits, h₁, h₂, h₃]
  rw [if_neg he'.ne, if_neg he.ne']
  rfl

lemma shapeOfBits_infinity : shapeOfBits infinityBits = .infinite false := by decide

lemma integer?_finite {m v : Nat} {q : Int} (h : m * 2 ^ q.toNat = v * 2 ^ (-q).toNat) :
    (Shape.finite false m q).integer? = some (v : Int) := by
  have hp := Nat.two_pow_pos (-q).toNat
  rcases Int.le_total 0 q with hq | hq
  · have hz : (-q).toNat = 0 := by omega
    rw [hz] at h
    simp [Shape.integer?, hz, h, Nat.mod_one]
  · have hz : q.toNat = 0 := by omega
    rw [hz, pow_zero, mul_one] at h
    subst h
    simp [Shape.integer?, hz, Nat.mul_div_cancel _ hp]

lemma shape_nearest (num den : Nat) : shape (nearest false num den) = shapeOfBits (nearestBits num den) := by
  have hle := nearestBits_le num den
  have hi : infinityBits < 2 ^ 63 := by decide
  rw [shape, nearest, signBit, if_neg Bool.false_ne_true, zero_add, toNat_toBits_ofBits]
  · rwa [Nat.mod_eq_of_lt (by omega)]
  · omega

lemma rounded_lt_iff (hn : 0 < n) :
    rounded n < 2 ^ 1024 ↔ (n.log2 + 1022) * 2 ^ 52 + mantissa n < infinityBits := by
  have hi : infinityBits = 2047 * 2 ^ 52 := rfl
  have hb := mantissa_bounds hn
  rcases Nat.lt_or_ge n.log2 52 with hl | hl
  · obtain ⟨-, hhi⟩ := log2_bounds hn
    rw [rounded_of_representable (representable_of_log2 hn hl.le)]
    have hp : n.log2 + 1 ≤ 1024 := by omega
    exact iff_of_true (hhi.trans_le (pow_le_pow_right₀ one_le_two hp)) (by omega)
  · have hr : rounded n = mantissa n * 2 ^ (n.log2 - 52) := by
      rw [mantissa_mul hn, Nat.sub_eq_zero_of_le hl, pow_zero, mul_one]
    rw [hr]
    rcases lt_trichotomy n.log2 1023 with h | h | h
    · refine iff_of_true ?_ (by omega)
      rw [show (2 : Nat) ^ 1024 = 2 ^ 53 * 2 ^ 971 from two_pow_mul rfl]
      have hp : 2 ^ (n.log2 - 52) < 2 ^ 971 := pow_lt_pow_right₀ one_lt_two (by omega)
      exact Nat.mul_lt_mul_of_le_of_lt hb.2 hp (Nat.two_pow_pos 53)
    · rw [h, show (2 : Nat) ^ 1024 = 2 ^ 53 * 2 ^ (1023 - 52) from two_pow_mul rfl,
        Nat.mul_lt_mul_right (Nat.two_pow_pos _)]
      omega
    · refine iff_of_false (Nat.not_lt.mpr ?_) (by omega)
      rw [show (2 : Nat) ^ 1024 = 2 ^ 52 * 2 ^ 972 from two_pow_mul rfl]
      have hp : 2 ^ 972 ≤ 2 ^ (n.log2 - 52) := pow_le_pow_right₀ one_le_two (by omega)
      exact Nat.mul_le_mul hb.1 hp

lemma integer?_nearest (hn : 0 < n) : (shape (nearest false n 1)).integer? =
    if rounded n < 2 ^ 1024 then some (rounded n : Int) else none := by
  obtain ⟨hlo, hhi⟩ := mantissa_bounds hn
  have hm := mantissa_mul hn
  have hi : infinityBits = 2047 * 2 ^ 52 := rfl
  rw [shape_nearest, nearestBits_whole hn]
  by_cases hlt : (n.log2 + 1022) * 2 ^ 52 + mantissa n < infinityBits
  · rw [if_pos ((rounded_lt_iff hn).mpr hlt), Nat.min_eq_left hlt.le]
    rcases Nat.lt_or_eq_of_le hhi with hc | hc
    · have he : (n.log2 + 1022) * 2 ^ 52 + mantissa n =
          (n.log2 + 1023) * 2 ^ 52 + (mantissa n - 2 ^ 52) := by omega
      rw [he, shapeOfBits_normal (by omega) (by omega) (by omega)]
      refine integer?_finite ?_
      have h₁ : (((n.log2 + 1023 : ℕ) : Int) - 1075).toNat = n.log2 - 52 := by omega
      have h₂ : (-(((n.log2 + 1023 : ℕ) : Int) - 1075)).toNat = 52 - n.log2 := by omega
      rw [h₁, h₂, ← hm, Nat.add_sub_cancel' hlo]
    · -- Rounding has carried into the next power of two.
      have he : (n.log2 + 1022) * 2 ^ 52 + mantissa n = (n.log2 + 1024) * 2 ^ 52 + 0 := by omega
      rw [he, shapeOfBits_normal (by omega) (by omega) (by omega)]
      refine integer?_finite ?_
      have h₁ : (((n.log2 + 1024 : ℕ) : Int) - 1075).toNat = n.log2 - 51 := by omega
      have h₂ : (-(((n.log2 + 1024 : ℕ) : Int) - 1075)).toNat = 51 - n.log2 := by omega
      rw [h₁, h₂]
      rw [hc] at hm
      rcases Nat.lt_or_ge n.log2 52 with hl | hl
      · have e₁ : 2 ^ (52 - n.log2) = 2 ^ (51 - n.log2) * 2 ^ 1 := two_pow_mul (by omega)
        rw [Nat.sub_eq_zero_of_le hl.le, e₁, ← mul_assoc] at hm
        rw [Nat.sub_eq_zero_of_le (by omega : n.log2 ≤ 51)]
        omega
      · have e₁ : 2 ^ (n.log2 - 51) = 2 ^ (n.log2 - 52) * 2 ^ 1 := two_pow_mul (by omega)
        rw [Nat.sub_eq_zero_of_le hl] at hm
        rw [Nat.sub_eq_zero_of_le (by omega : 51 ≤ n.log2), e₁]
        omega
  · rw [if_neg (mt (rounded_lt_iff hn).mp hlt), Nat.min_eq_right (Nat.le_of_not_lt hlt),
      shapeOfBits_infinity]
    rfl

end LineBasic.Number
