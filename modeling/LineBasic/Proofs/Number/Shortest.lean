import LineBasic.Number.Shortest
import LineBasic.Proofs.Number.Nearest

/-! The shortest decimal of a float lies in the interval of the numbers that are rounded to it. The search for
it comes to an end because the interval is wider than the grid of seventeen digits. -/

namespace LineBasic.Number

section Leading

variable {n num den : Nat}

lemma decimalSize_pos (n : Nat) : 0 < decimalSize n := Nat.length_toDigits_pos

lemma decimalSize_bounds (hn : 0 < n) : 10 ^ (decimalSize n - 1) ≤ n ∧ n < 10 ^ decimalSize n := by
  have hs := decimalSize_pos n
  refine ⟨?_, (Nat.length_toDigits_le_iff (by decide) hs).mp le_rfl⟩
  rcases Nat.eq_or_lt_of_le hs with h | h
  · rw [← h]
    exact hn
  · have hk := (Nat.length_toDigits_le_iff (n := n) (k := decimalSize n - 1) (b := 10) (by decide) (by omega)).not
    rw [not_lt] at hk
    exact hk.mp (by rw [decimalSize] at *; omega)

lemma leadingPower_eq (hn : 0 < num) (hd : 0 < den) : leadingPower num den = Int.log 10 ((num : ℚ) / den) := by
  have hn' : (0 : ℚ) < num := by exact_mod_cast hn
  have hd' : (0 : ℚ) < den := by exact_mod_cast hd
  rw [leadingPower]
  symm
  split_ifs with h
  · obtain ⟨hl, hu⟩ := decimalSize_bounds (Nat.div_pos h hd)
    have hs := decimalSize_pos (num / den)
    generalize decimalSize (num / den) = s at *
    rw [Nat.le_div_iff_mul_le hd] at hl
    rw [Nat.div_lt_iff_lt_mul hd] at hu
    refine log_eq (by decide) ?_ ?_
    · rw [show (s : ℤ) - 1 = (s - 1 : ℕ) by omega, zpow_natCast, le_div_iff₀ hd']
      exact_mod_cast hl
    · rw [sub_add_cancel, zpow_natCast, div_lt_iff₀ hd']
      exact_mod_cast hu
  · have hN : 0 < (den - 1) / num := Nat.div_pos (by omega) hn
    obtain ⟨hl, hu⟩ := decimalSize_bounds hN
    have hs := decimalSize_pos ((den - 1) / num)
    generalize decimalSize ((den - 1) / num) = s at *
    rw [Nat.le_div_iff_mul_le hn] at hl
    rw [Nat.div_lt_iff_lt_mul hn] at hu
    refine log_eq (by decide) ?_ ?_
    · rw [zpow_neg, zpow_natCast, le_div_iff₀ hd', inv_mul_le_iff₀ (by positivity)]
      exact_mod_cast (by omega : den ≤ 10 ^ s * num)
    · rw [show -(s : ℤ) + 1 = -(s - 1 : ℕ) by omega, zpow_neg, zpow_natCast, div_lt_iff₀ hd',
        lt_inv_mul_iff₀ (by positivity)]
      exact_mod_cast (by omega : 10 ^ (s - 1) * num < den)

end Leading

section Band

variable {m : Nat} {q : ℤ}

lemma within_of_lt {w : ℚ} (hl : (m : ℚ) - (if m = 2 ^ 52 then 1 / 4 else 1 / 2) < w / 2 ^ q)
    (hu : w / 2 ^ q < m + 1 / 2) : Within m q w := by
  refine ⟨hl.le, hu.le, fun hodd => ⟨?_, hu⟩⟩
  rwa [if_neg (by omega)] at hl

lemma band_value (m : Nat) (q : ℤ) : ((band m q).value : ℚ) / (band m q).den = m * 2 ^ q := by
  have hp := zpow_eq_div 2 q
  rw [Nat.cast_ofNat] at hp
  rw [hp]
  simp only [band, pow2_eq]
  push_cast
  field_simp

lemma grid_eq (d : Nat) (e q : ℤ) : ((d * 10 ^ e.toNat * (4 * 2 ^ (-q).toNat) : ℕ) : ℚ) =
    d * 10 ^ e / 2 ^ q * (4 * 2 ^ q.toNat * 10 ^ (-e).toNat) := by
  have h2 := zpow_eq_div 2 q
  have h10 := zpow_eq_div 10 e
  rw [Nat.cast_ofNat] at h2 h10
  rw [h2, h10]
  push_cast
  field_simp

lemma holds_iff (hm : 2 ^ 52 ≤ m) (hq : -1074 < q) (d : Nat) (e : ℤ) :
    (band m q).holds d e = true ↔ Within m q (d * 10 ^ e) := by
  have hx := grid_eq d e q
  have hk : (0 : ℚ) < 4 * 2 ^ q.toNat * 10 ^ (-e).toNat := by positivity
  have hlow : (((4 * m - if m = 2 ^ 52 then 1 else 2) * 2 ^ q.toNat * 10 ^ (-e).toNat : ℕ) : ℚ) =
      ((m : ℚ) - if m = 2 ^ 52 then 1 / 4 else 1 / 2) * (4 * 2 ^ q.toNat * 10 ^ (-e).toNat) := by
    split_ifs
    · push_cast [Nat.cast_sub (by omega : 1 ≤ 4 * m)]
      ring
    · push_cast [Nat.cast_sub (by omega : 2 ≤ 4 * m)]
      ring
  have hhigh : (((4 * m + 2) * 2 ^ q.toNat * 10 ^ (-e).toNat : ℕ) : ℚ) =
      ((m : ℚ) + 1 / 2) * (4 * 2 ^ q.toNat * 10 ^ (-e).toNat) := by
    push_cast
    ring
  simp only [Band.holds, band, pow2_eq, pow10_eq, hq, and_true, Within]
  generalize d * 10 ^ e.toNat * (4 * 2 ^ (-q).toNat) = x at *
  generalize (4 * m - if m = 2 ^ 52 then 1 else 2) * 2 ^ q.toNat * 10 ^ (-e).toNat = low at *
  generalize (4 * m + 2) * 2 ^ q.toNat * 10 ^ (-e).toNat = high at *
  generalize (4 * 2 ^ q.toNat * 10 ^ (-e).toNat : ℚ) = k at *
  rcases Nat.mod_two_eq_zero_or_one m with hpar | hpar
  · have hl : low ≤ x ↔ ((m : ℚ) - if m = 2 ^ 52 then 1 / 4 else 1 / 2) ≤ d * 10 ^ e / 2 ^ q := by
      rw [← Nat.cast_le (α := ℚ), hlow, hx, mul_le_mul_iff_left₀ hk]
    have hh : x ≤ high ↔ (d * 10 ^ e / 2 ^ q : ℚ) ≤ m + 1 / 2 := by
      rw [← Nat.cast_le (α := ℚ), hhigh, hx, mul_le_mul_iff_left₀ hk]
    simp [hpar, hl, hh]
  · have hg : m ≠ 2 ^ 52 := by omega
    rw [if_neg hg] at hlow ⊢
    have hl : low < x ↔ (m : ℚ) - 1 / 2 < d * 10 ^ e / 2 ^ q := by
      rw [← Nat.cast_lt (α := ℚ), hlow, hx, mul_lt_mul_iff_left₀ hk]
    have hh : x < high ↔ (d * 10 ^ e / 2 ^ q : ℚ) < m + 1 / 2 := by
      rw [← Nat.cast_lt (α := ℚ), hhigh, hx, mul_lt_mul_iff_left₀ hk]
    have hodd : (1 == 0) = false := rfl
    simp only [hpar, hodd, Bool.false_eq_true, if_false, Bool.and_eq_true, decide_eq_true_eq, hl, hh, true_imp_iff]
    exact ⟨fun h => ⟨h.1.le, h.2.le, h⟩, fun h => h.2.2⟩


end Band

section Search

variable {m d : Nat} {q e e' : ℤ} {b : Band}

/-- The lower neighbour on a grid. -/
def Band.floorOn (b : Band) (e : ℤ) : Nat := b.value * 10 ^ (-e).toNat / (b.den * 10 ^ e.toNat)

lemma onGrid?_eq_some (h : b.onGrid? e = some (d, e')) :
    e' = e ∧ b.holds d e = true ∧ b.floorOn e ≤ d := by
  have hf : b.value * pow10 (-e).toNat / (b.den * pow10 e.toNat) = b.floorOn e := rfl
  simp only [Band.onGrid?, hf] at h
  split at h
  · rename_i hd _
    obtain ⟨rfl, rfl⟩ := Prod.mk.inj (Option.some.inj h)
    exact ⟨rfl, hd, le_rfl⟩
  · rename_i _ hd
    obtain ⟨rfl, rfl⟩ := Prod.mk.inj (Option.some.inj h)
    exact ⟨rfl, hd, Nat.le_succ _⟩
  · rename_i hd hd'
    split_ifs at h
    · obtain ⟨rfl, rfl⟩ := Prod.mk.inj (Option.some.inj h)
      exact ⟨rfl, hd, le_rfl⟩
    · obtain ⟨rfl, rfl⟩ := Prod.mk.inj (Option.some.inj h)
      exact ⟨rfl, hd', Nat.le_succ _⟩
  · cases h

lemma onGrid?_isSome (h : b.holds (b.floorOn e) e = true ∨ b.holds (b.floorOn e + 1) e = true) :
    (b.onGrid? e).isSome = true := by
  have hf : b.value * pow10 (-e).toNat / (b.den * pow10 e.toNat) = b.floorOn e := rfl
  simp only [Band.onGrid?, hf]
  split
  · rfl
  · rfl
  · split_ifs <;> rfl
  · rename_i hd hd'
    rw [hd, hd'] at h
    simp at h

lemma floorOn_bounds (m : Nat) (q e : ℤ) : ((band m q).floorOn e : ℚ) * 10 ^ e ≤ m * 2 ^ q ∧
    (m * 2 ^ q : ℚ) < ((band m q).floorOn e + 1) * 10 ^ e := by
  have hp : (0 : ℚ) < 10 ^ e := zpow_pos (by norm_num) e
  have hs := scaled_div 10 (band m q).value (band m q).den e
  rw [band_value, Nat.cast_ofNat] at hs
  rw [← le_div_iff₀ hp, ← div_lt_iff₀ hp, ← hs]
  refine ⟨Nat.cast_div_le, ?_⟩
  rw [Band.floorOn, ← Nat.floor_div_eq_div (K := ℚ)]
  exact Nat.lt_floor_add_one _

lemma seventeen_suffice (hm : 2 ^ 52 ≤ m) (hm' : m < 2 ^ 53) (hq : -1074 < q) :
    ((band m q).onGrid? (Int.log 10 ((m : ℚ) * 2 ^ q) - 16)).isSome = true := by
  apply onGrid?_isSome
  rw [holds_iff hm hq, holds_iff hm hq]
  generalize he : Int.log 10 ((m : ℚ) * 2 ^ q) - 16 = e
  obtain ⟨hl, hu⟩ := floorOn_bounds m q e
  generalize (band m q).floorOn e = d at *
  have hp : (0 : ℚ) < 2 ^ q := zpow_pos two_pos q
  have hm₀ : (0 : ℚ) < m := by exact_mod_cast (by omega : 0 < m)
  have hm₁ : (m : ℚ) + 1 ≤ 2 ^ 53 := by exact_mod_cast hm'
  -- The grid is so fine that half of a unit is less than what the interval reaches out to.
  have hunit : (10 : ℚ) ^ e / 2 ^ q * 10 ^ 16 ≤ m := by
    have hlog := Int.zpow_log_le_self (b := 10) (by decide) (mul_pos hm₀ hp)
    rw [div_mul_eq_mul_div, div_le_iff₀ hp, ← zpow_natCast, ← zpow_add₀ (by norm_num)]
    rw [← he]
    simpa using hlog
  have hd : (d : ℚ) * (10 ^ e / 2 ^ q) ≤ m := by
    rw [← mul_div_assoc, div_le_iff₀ hp]
    exact hl
  have hd' : (m : ℚ) < (d + 1) * (10 ^ e / 2 ^ q) := by
    rw [← mul_div_assoc, lt_div_iff₀ hp]
    exact hu
  have hgap : (10 : ℚ) ^ e / 2 ^ q / 2 < if m = 2 ^ 52 then 1 / 4 else 1 / 2 := by
    split_ifs with h
    · rw [h] at hunit
      push_cast at hunit
      linarith
    · linarith
  have hhalf : (10 : ℚ) ^ e / 2 ^ q / 2 < 1 / 2 := by linarith
  rcases le_or_gt ((m : ℚ) - d * (10 ^ e / 2 ^ q)) (10 ^ e / 2 ^ q / 2) with hnear | hfar
  · left
    apply within_of_lt <;> rw [mul_div_assoc] <;> linarith
  · right
    apply within_of_lt <;> rw [mul_div_assoc] <;> push_cast <;> linarith

/-- The decimal that is found is read back as the float, has at most seventeen digits, and is not below the power of
ten of the leading digit. -/
theorem shortest_within (hm : 2 ^ 52 ≤ m) (hm' : m < 2 ^ 53) (hq : -1074 < q) : ∃ d e, shortest m q = (d, e) ∧
    Within m q (d * 10 ^ e) ∧ Int.log 10 ((m : ℚ) * 2 ^ q) - 16 ≤ e ∧
      (10 : ℚ) ^ Int.log 10 ((m : ℚ) * 2 ^ q) ≤ d * 10 ^ e := by
  have hv : 0 < (band m q).value := Nat.mul_pos (by omega) (Nat.two_pow_pos _)
  have hden : 0 < (band m q).den := Nat.mul_pos (by decide) (Nat.two_pow_pos _)
  have hm₀ : (0 : ℚ) < m := by exact_mod_cast (by omega : 0 < m)
  have hten := Int.zpow_log_le_self (b := 10) (by decide) (mul_pos hm₀ (zpow_pos (two_pos (α := ℚ)) q))
  rw [Nat.cast_ofNat] at hten
  have htop := leadingPower_eq hv hden
  rw [band_value] at htop
  generalize hlog : Int.log 10 ((m : ℚ) * 2 ^ q) = top at *
  have hsome : ((List.range 17).findSome? fun n : Nat => (band m q).onGrid? (top - n)).isSome = true := by
    rw [List.findSome?_isSome_iff]
    refine ⟨16, by decide, ?_⟩
    rw [← hlog]
    exact seventeen_suffice hm hm' hq
  obtain ⟨⟨d, e⟩, hfound⟩ := Option.isSome_iff_exists.mp hsome
  obtain ⟨n, hn, hgrid⟩ := List.exists_of_findSome?_eq_some hfound
  obtain ⟨rfl, hd, hfloor⟩ := onGrid?_eq_some hgrid
  refine ⟨d, _, ?_, (holds_iff hm hq _ _).mp hd, ?_, ?_⟩
  · simp only [shortest, htop, hfound, Option.getD_some]
  · have := List.mem_range.mp hn
    omega
  · have hsplit : (10 : ℚ) ^ top = 10 ^ n * 10 ^ (top - n) := by
      rw [← zpow_natCast, ← zpow_add₀ (by norm_num)]
      congr 1
      omega
    have hp : (0 : ℚ) < 10 ^ (top - n) := zpow_pos (by norm_num) _
    have hlt := hten.trans_lt (floorOn_bounds m q (top - n)).2
    rw [hsplit, mul_lt_mul_iff_left₀ hp] at hlt
    have hle : 10 ^ n ≤ d := by
      have : 10 ^ n < (band m q).floorOn (top - n) + 1 := by exact_mod_cast hlt
      omega
    rw [hsplit]
    gcongr
    exact_mod_cast hle

end Search

end LineBasic.Number
