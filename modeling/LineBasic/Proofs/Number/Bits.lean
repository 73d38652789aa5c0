import LineBasic.Number.Binary
import Mathlib

/-! A float that is made from bits has these bits, unless they say that it is not a number. -/

namespace LineBasic.Number

open Float.Model Float.Model.UnpackedFloat

lemma toNat_append {j k : Nat} (a : BitVec j) (b : BitVec k) :
    (a ++ b).toNat = a.toNat * 2 ^ k + b.toNat := by
  rw [BitVec.toNat_append, ← Nat.shiftLeft_add_eq_or_of_lt b.isLt, Nat.shiftLeft_eq]

lemma toNat_packComponents (s : Sign) (e : BitVec 11) (m : BitVec 52) :
    (packComponents .binary64 s e m).toNat = s.toBitVec.toNat * 2 ^ 63 + e.toNat * 2 ^ 52 + m.toNat := by
  change (s.toBitVec ++ e ++ m).toNat = _
  rw [toNat_append, toNat_append]
  ring

lemma toNat_unpackMantissa (v : BitVec 64) : (@unpackMantissa .binary64 v).toNat = v.toNat % 2 ^ 52 := by
  simp [unpackMantissa]

lemma toNat_unpackExponent (v : BitVec 64) :
    (@unpackExponent .binary64 v).toNat = v.toNat / 2 ^ 52 % 2 ^ 11 := by
  simp [unpackExponent, Nat.shiftRight_eq_div_pow]

lemma toNat_unpackSign (v : BitVec 64) : (@unpackSign .binary64 v).toNat = v.toNat / 2 ^ 63 := by
  have hv := v.isLt
  have hs : (@unpackSign .binary64 v).toNat = v.toNat / 2 ^ 63 % 2 := by
    simp [unpackSign, Nat.shiftRight_eq_div_pow]
  omega

lemma toBitVec_ofBitVec (b : BitVec 1) : (Sign.ofBitVec b).toBitVec = b := by
  revert b
  decide

lemma packComponents_unpack (v : BitVec 64) :
    packComponents .binary64 (Sign.ofBitVec (@unpackSign .binary64 v)) (@unpackExponent .binary64 v)
      (@unpackMantissa .binary64 v) = v := by
  apply BitVec.eq_of_toNat_eq
  rw [toNat_packComponents, toBitVec_ofBitVec, toNat_unpackSign, toNat_unpackExponent,
    toNat_unpackMantissa]
  have hv := v.isLt
  omega

lemma pack_normal (s : Sign) {e : BitVec 11} (m : BitVec 52) (he : e ≠ -1#11)
    (h : 0 < (1#1 ++ m).toNat) :
    UnpackedFloat.pack .binary64 (.finite s (1#1 ++ m).toNat (e.toNat - (1023 + 52)) h) =
      packComponents .binary64 s e m := by
  have he₁ : e.toNat ≠ 2047 := fun hz => he (BitVec.eq_of_toNat_eq hz)
  have he₂ : e.toNat < 2048 := e.isLt
  have hb : ((e.toNat : Int) - (1023 + 52) + 1023 + 52).toNat = e.toNat := by omega
  have hm := m.isLt
  have hmant : (1#1 ++ m).toNat = 2 ^ 52 + m.toNat := by
    rw [toNat_append]
    simp
  have hlog : (1#1 ++ m).toNat.log2 = 52 := by
    refine (Nat.log2_eq_iff h.ne').mpr ?_
    omega
  have hexp : BitVec.ofNat 11 ((e.toNat : Int) - (1023 + 52) + 1023 + 52).toNat = e := by
    rw [hb, BitVec.ofNat_toNat, BitVec.setWidth_eq]
  have hmod : BitVec.ofNat 52 (1#1 ++ m).toNat = m := by
    apply BitVec.eq_of_toNat_eq
    rw [BitVec.toNat_ofNat, hmant]
    omega
  change (if 2048 ≤ ((e.toNat : Int) - (1023 + 52) + 1023 + 52).toNat + 1 then _ else
    if (1#1 ++ m).toNat.log2 + 1 = 53 then _ else _) = _
  rw [if_neg (by omega), if_pos (by omega)]
  exact congrArg₂ (packComponents .binary64 s) hexp hmod

lemma pack_subnormal (s : Sign) (m : BitVec 52) (h : 0 < m.toNat) :
    UnpackedFloat.pack .binary64 (.finite s m.toNat (0 - (1023 + 52) + 1) h) =
      packComponents .binary64 s 0#11 m := by
  have hlog : m.toNat.log2 < 52 := (Nat.log2_lt h.ne').mpr m.isLt
  simp only [UnpackedFloat.pack]
  rw [if_neg (by decide), if_neg (by simp only [Format.mantissaBits]; omega)]
  simp

lemma pack_unpack {v : BitVec 64} (h : v.toNat % 2 ^ 63 ≤ 2047 * 2 ^ 52) :
    UnpackedFloat.pack .binary64 (UnpackedFloat.unpack .binary64 v) = v := by
  have hv := packComponents_unpack v
  have he := toNat_unpackExponent v
  have hm := toNat_unpackMantissa v
  simp only [UnpackedFloat.unpack]
  split_ifs with h₁ h₂ h₃ h₄
  · rw [h₁, h₂] at hv
    exact hv
  · exfalso
    have hm₀ : (@unpackMantissa .binary64 v).toNat ≠ 0 := fun hz => h₂ (BitVec.eq_of_toNat_eq hz)
    have he₁ : (@unpackExponent .binary64 v).toNat = 2047 := by
      rw [h₁]
      rfl
    omega
  · rw [h₃, h₄] at hv
    exact hv
  · rw [h₃] at hv ⊢
    exact (pack_subnormal _ _ _).trans hv
  · exact (pack_normal _ _ h₁ _).trans hv

lemma toNat_toBits_ofBits {b : Nat} (h : b % 2 ^ 63 ≤ infinityBits) (hb : b < 2 ^ 64) :
    (Float.ofBits (.ofNat b)).toBits.toNat = b := by
  have hn : (BitVec.ofNat 64 b).toNat = b := by
    rw [BitVec.toNat_ofNat]
    exact Nat.mod_eq_of_lt hb
  have hp : UnpackedFloat.pack .binary64 (UnpackedFloat.unpack .binary64 (BitVec.ofNat 64 b)) =
      BitVec.ofNat 64 b := pack_unpack (by rwa [hn])
  exact (congrArg BitVec.toNat hp).trans hn

lemma nearestBits_le (num den : Nat) : nearestBits num den ≤ infinityBits := by
  rw [nearestBits]
  split
  · exact Nat.zero_le _
  · exact Nat.min_le_right _ _

end LineBasic.Number
