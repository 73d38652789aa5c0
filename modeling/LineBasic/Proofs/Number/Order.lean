import LineBasic.Proofs.Number.Bits

/-! Comparing floats. The comparison goes by the shapes: of two numbers the one is at most the other or
greater than it, and what is not a number is neither. -/

namespace LineBasic.Number

open Float.Model Float.Model.UnpackedFloat

def signOf (negative : Bool) : Sign := if negative then .negative else .positive

/-- The taken apart float that has a shape. -/
def Shape.unpacked : Shape → UnpackedFloat
  | .nan => .notANumber
  | .infinite negative => .infinity (signOf negative)
  | .finite negative m q =>
    if h : m = 0 then .zero (signOf negative) else .finite (signOf negative) m q (Nat.pos_of_ne_zero h)

lemma Shape.unpacked_finite (negative : Bool) {m : Nat} (h : 0 < m) (q : Int) :
    (Shape.finite negative m q).unpacked = .finite (signOf negative) m q h := dif_neg h.ne'

lemma shapeOfBits_eq (b : Nat) : shapeOfBits b =
    if b / 2 ^ 52 % 2 ^ 11 = 2047 then
      if b % 2 ^ 52 = 0 then .infinite (b / 2 ^ 63 % 2 == 1) else .nan
    else if b / 2 ^ 52 % 2 ^ 11 = 0 then .finite (b / 2 ^ 63 % 2 == 1) (b % 2 ^ 52) (-1074)
    else .finite (b / 2 ^ 63 % 2 == 1) (2 ^ 52 + b % 2 ^ 52) ((b / 2 ^ 52 % 2 ^ 11 : Nat) - 1075) := rfl

section Unpack

variable (v : BitVec 64)

lemma ofBitVec_unpackSign :
    Sign.ofBitVec (@unpackSign .binary64 v) = signOf (v.toNat / 2 ^ 63 % 2 == 1) := by
  have hs := toNat_unpackSign v
  have hv := v.isLt
  by_cases hz : @unpackSign .binary64 v = 0#1
  · rw [hz] at hs ⊢
    have hn : v.toNat / 2 ^ 63 % 2 = 0 := by simp at hs; omega
    rw [hn]
    rfl
  · have hne : (@unpackSign .binary64 v).toNat ≠ 0 := fun h => hz (BitVec.eq_of_toNat_eq h)
    have hn : v.toNat / 2 ^ 63 % 2 = 1 := by omega
    rw [hn, Sign.ofBitVec, if_neg hz]
    rfl

lemma unpack_eq : UnpackedFloat.unpack .binary64 v = (shapeOfBits v.toNat).unpacked := by
  have he := toNat_unpackExponent v
  have hm := toNat_unpackMantissa v
  have hones : @unpackExponent .binary64 v = -1#11 ↔ v.toNat / 2 ^ 52 % 2 ^ 11 = 2047 := by
    rw [← he, BitVec.toNat_eq]
    rfl
  have hzero : @unpackExponent .binary64 v = 0#11 ↔ v.toNat / 2 ^ 52 % 2 ^ 11 = 0 := by
    rw [← he, BitVec.toNat_eq]
    rfl
  have hnone : @unpackMantissa .binary64 v = 0#52 ↔ v.toNat % 2 ^ 52 = 0 := by
    rw [← hm, BitVec.toNat_eq]
    rfl
  simp only [UnpackedFloat.unpack, ofBitVec_unpackSign]
  rw [shapeOfBits_eq]
  by_cases h₁ : v.toNat / 2 ^ 52 % 2 ^ 11 = 2047
  · rw [if_pos (hones.mpr h₁), if_pos h₁]
    by_cases h₂ : v.toNat % 2 ^ 52 = 0
    · rw [if_pos (hnone.mpr h₂), if_pos h₂]
      rfl
    · rw [if_neg (hnone.not.mpr h₂), if_neg h₂]
      rfl
  · rw [if_neg (hones.not.mpr h₁), if_neg h₁]
    by_cases h₃ : v.toNat / 2 ^ 52 % 2 ^ 11 = 0
    · rw [if_pos (hzero.mpr h₃), if_pos h₃]
      by_cases h₂ : v.toNat % 2 ^ 52 = 0
      · rw [dif_pos (hnone.mpr h₂), h₂]
        rfl
      · rw [dif_neg (hnone.not.mpr h₂), Shape.unpacked_finite _ (Nat.pos_of_ne_zero h₂),
          UnpackedFloat.finite.injEq, he, h₃]
        exact ⟨rfl, hm, rfl⟩
    · rw [if_neg (hzero.not.mpr h₃), if_neg h₃, Shape.unpacked_finite _ (by positivity),
        UnpackedFloat.finite.injEq, he, toNat_append, hm]
      exact ⟨rfl, rfl, rfl⟩

end Unpack

lemma unpack_toModel (x : Float) : x.toModel.unpack = (shape x).unpacked := unpack_eq x.toBits.toBitVec

lemma compare_swap (a b : UnpackedFloat) : b.compare a = (a.compare b).map Ordering.swap := by
  have hthen (e e' : Int) (m m' : Nat) :
      (compare e' e).then (compare m' m) = ((compare e e').then (compare m m')).swap := by
    rw [Ordering.swap_then, ← Std.OrientedOrd.eq_swap, ← Std.OrientedOrd.eq_swap]
  cases a with
  | notANumber => cases b <;> rfl
  | infinity s => rcases b with (_ | _) | _ | _ | _ <;> cases s <;> rfl
  | zero s => rcases b with (_ | _) | _ | _ | ⟨_ | _, _, _, _⟩ <;> rfl
  | finite s m e hm =>
    rcases b with (_ | _) | _ | _ | ⟨_ | _, m', e', hm'⟩ <;> cases s <;> try rfl
    · simp only [UnpackedFloat.compare, Option.map_some, hthen e e']
    · simp only [UnpackedFloat.compare, Option.map_some, hthen e e']

lemma isNone_compare (a b : UnpackedFloat) : (a.compare b).isNone = (a.isNaN || b.isNaN) := by
  cases a with
  | notANumber => cases b <;> rfl
  | infinity s => rcases b with (_ | _) | _ | _ | _ <;> cases s <;> rfl
  | zero s => rcases b with (_ | _) | _ | _ | ⟨_ | _, _, _, _⟩ <;> rfl
  | finite s m e hm => rcases b with (_ | _) | _ | _ | ⟨_ | _, _, _, _⟩ <;> cases s <;> rfl

section Compare

variable {x y : Float}

def comparison (x y : Float) : Option Ordering := x.toModel.unpack.compare y.toModel.unpack

lemma lt_iff : x < y ↔ comparison x y = some .lt := by
  change decide ((comparison x y == some .lt) = true) = true ↔ _
  rw [decide_eq_true_eq, beq_iff_eq]

lemma le_iff : x ≤ y ↔ ∃ o, comparison x y = some o ∧ o.isLE = true := by
  change decide ((comparison x y).any (·.isLE) = true) = true ↔ _
  rw [decide_eq_true_eq, Option.any_eq_true]

lemma not_lt_of_isNaN (h : y.isNaN = true) : ¬ x < y := by
  have hnone : (comparison x y).isNone = (x.isNaN || y.isNaN) := isNone_compare _ _
  rw [lt_iff]
  intro hx
  rw [hx, h, Bool.or_true] at hnone
  cases hnone

lemma not_le_iff : ¬ x ≤ y ↔ x.isNaN = true ∨ y.isNaN = true ∨ y < x := by
  have hswap : comparison y x = (comparison x y).map Ordering.swap := compare_swap _ _
  have hnone : (comparison x y).isNone = (x.isNaN || y.isNaN) := isNone_compare _ _
  rw [le_iff, lt_iff, hswap, ← or_assoc, ← Bool.or_eq_true, ← hnone]
  cases comparison x y with
  | none => simp
  | some o => cases o <;> simp

end Compare

section Sign

variable {b : Nat}

def Shape.withSign (negative : Bool) : Shape → Shape
  | .nan => .nan
  | .infinite _ => .infinite negative
  | .finite _ m q => .finite negative m q

lemma shapeOfBits_signBit (negative : Bool) (hb : b < 2 ^ 63) :
    shapeOfBits (signBit negative + b) = (shapeOfBits b).withSign negative := by
  have hs : signBit negative = negative.toNat * 2 ^ 63 := by cases negative <;> rfl
  have h₁ : (signBit negative + b) / pow2 63 % 2 = negative.toNat := by
    change (signBit negative + b) / 2 ^ 63 % 2 = _
    have hn : negative.toNat ≤ 1 := negative.toNat_le
    omega
  have h₂ : (signBit negative + b) / pow2 52 % pow2 11 = b / pow2 52 % pow2 11 := by
    change (signBit negative + b) / 2 ^ 52 % 2 ^ 11 = b / 2 ^ 52 % 2 ^ 11
    omega
  have h₃ : (signBit negative + b) % pow2 52 = b % pow2 52 := by
    change (signBit negative + b) % 2 ^ 52 = b % 2 ^ 52
    omega
  have hb' : (negative.toNat == 1) = negative := by cases negative <;> rfl
  simp only [shapeOfBits, h₁, h₂, h₃, hb']
  split_ifs <;> rfl

lemma shape_ofBits (negative : Bool) (hb : b ≤ infinityBits) :
    shape (.ofBits (.ofNat (signBit negative + b))) = (shapeOfBits b).withSign negative := by
  have hi : infinityBits < 2 ^ 63 := by decide
  have hs : signBit negative = negative.toNat * 2 ^ 63 := by cases negative <;> rfl
  have hn : negative.toNat ≤ 1 := negative.toNat_le
  rw [shape, toNat_toBits_ofBits (by omega) (by omega), shapeOfBits_signBit negative (by omega)]

lemma shapeOfBits_ne_nan (hb : b ≤ infinityBits) : shapeOfBits b ≠ .nan := by
  have he : b / pow2 52 % pow2 11 = 2047 → b % pow2 52 = 0 := by
    change b / 2 ^ 52 % 2 ^ 11 = 2047 → b % 2 ^ 52 = 0
    have hi : infinityBits = 2047 * 2 ^ 52 := rfl
    omega
  simp only [shapeOfBits]
  split_ifs with h₁ h₂ <;> simp_all

lemma isNaN_iff {x : Float} : x.isNaN = true ↔ shape x = .nan := by
  change x.toModel.unpack.isNaN = true ↔ _
  rw [unpack_toModel]
  cases shape x with
  | nan | infinite => simp [Shape.unpacked, UnpackedFloat.isNaN]
  | finite negative m q =>
    rw [Shape.unpacked]
    split <;> simp [UnpackedFloat.isNaN]

lemma isNaN_ofBits (negative : Bool) (hb : b ≤ infinityBits) :
    (Float.ofBits (.ofNat (signBit negative + b))).isNaN = false := by
  rw [Bool.eq_false_iff, ne_eq, isNaN_iff, shape_ofBits negative hb]
  have hn := shapeOfBits_ne_nan hb
  cases hs : shapeOfBits b <;> simp_all [Shape.withSign]

lemma isNaN_ofDecimal (negative : Bool) (digits : Nat) (e : Int) :
    (ofDecimal negative digits e).isNaN = false := by
  rw [ofDecimal]
  split_ifs
  · exact isNaN_ofBits negative (nearestBits_le 0 1)
  · exact isNaN_ofBits negative le_rfl
  · exact isNaN_ofBits negative (nearestBits_le _ _)

end Sign

section Finite

variable {x : Float} {b m : Nat} {q : Int} {negative : Bool}

/-- The bits of `m * 2 ^ q`, up to the sign. -/
def magnitudeBits (m : Nat) (q : Int) : Nat := (q + 1074).toNat * 2 ^ 52 + m

/-- The mantissas and the exponents of finite floats. -/
structure Fits (m : Nat) (q : Int) : Prop where
  mantissa_lt : m < 2 ^ 53
  normal : 2 ^ 52 ≤ m ∨ q = -1074
  least : -1074 ≤ q
  greatest : q ≤ 971

lemma Fits.magnitudeBits_lt (h : Fits m q) : magnitudeBits m q < infinityBits := by
  have hi : infinityBits = 2047 * 2 ^ 52 := rfl
  have hm := h.mantissa_lt
  have hq := h.greatest
  rw [magnitudeBits]
  omega

lemma Fits.shapeOfBits_magnitude (h : Fits m q) : shapeOfBits (magnitudeBits m q) = .finite false m q := by
  obtain ⟨hm, hn, hl, hg⟩ := h
  have h₁ : magnitudeBits m q / 2 ^ 63 % 2 = 0 := by
    rw [magnitudeBits]
    omega
  have h₂ : magnitudeBits m q / 2 ^ 52 % 2 ^ 11 = (q + 1074).toNat + m / 2 ^ 52 := by
    rw [magnitudeBits]
    omega
  have h₃ : magnitudeBits m q % 2 ^ 52 = m % 2 ^ 52 := by
    rw [magnitudeBits]
    omega
  rw [shapeOfBits_eq, h₁, h₂, h₃, if_neg (by omega)]
  rcases Nat.lt_or_ge m (2 ^ 52) with hlt | hge
  · obtain rfl : q = -1074 := by omega
    rw [if_pos (by omega), Nat.mod_eq_of_lt hlt]
    rfl
  · rw [if_neg (by omega), Shape.finite.injEq]
    exact ⟨rfl, by omega, by omega⟩

lemma fits_of_shapeOfBits (hb : b < 2 ^ 64) (h : shapeOfBits b = .finite negative m q) :
    Fits m q ∧ b = signBit negative + magnitudeBits m q := by
  have hs (n : Nat) (hn : n < 2) : signBit (n == 1) = n * 2 ^ 63 := by
    obtain rfl | rfl : n = 0 ∨ n = 1 := by omega
    all_goals rfl
  rw [shapeOfBits_eq] at h
  split_ifs at h with h₁ h₂ h₃
  · obtain ⟨rfl, rfl, rfl⟩ := Shape.finite.inj h
    rw [hs _ (by omega), magnitudeBits]
    exact ⟨⟨by omega, .inr rfl, by omega, by omega⟩, by omega⟩
  · obtain ⟨rfl, rfl, rfl⟩ := Shape.finite.inj h
    rw [hs _ (by omega), magnitudeBits]
    exact ⟨⟨by omega, .inl (by omega), by omega, by omega⟩, by omega⟩

lemma fits_of_shape (h : shape x = .finite negative m q) :
    Fits m q ∧ x = .ofBits (.ofNat (signBit negative + magnitudeBits m q)) := by
  obtain ⟨hf, hb⟩ := fits_of_shapeOfBits x.toBits.toNat_lt h
  refine ⟨hf, ?_⟩
  rw [← hb, UInt64.ofNat_toNat, Float.ofBits_toBits]

lemma isFinite_iff : x.isFinite = true ↔ ∃ negative m q, shape x = .finite negative m q := by
  change x.toModel.unpack.isFinite = true ↔ _
  rw [unpack_toModel]
  cases shape x with
  | nan | infinite => simp [Shape.unpacked, UnpackedFloat.isFinite]
  | finite negative m q =>
    rw [Shape.unpacked]
    split <;> simp [UnpackedFloat.isFinite]

lemma shape_abs (h : shape x = .finite negative m q) : shape x.abs = .finite false m q := by
  obtain ⟨hf, -⟩ := fits_of_shape h
  have hi : infinityBits = 2047 * 2 ^ 52 := rfl
  have hlt := hf.magnitudeBits_lt
  have hn : (BitVec.ofNat 64 (magnitudeBits m q)).toNat = magnitudeBits m q := by
    rw [BitVec.toNat_ofNat]
    omega
  have habs : (Shape.finite negative m q).unpacked.abs = (Shape.finite false m q).unpacked := by
    rw [Shape.unpacked, Shape.unpacked]
    split <;> rfl
  have hbits : x.abs.toBits.toNat = magnitudeBits m q := by
    change (UnpackedFloat.pack .binary64 x.toModel.unpack.abs).toNat = _
    rw [unpack_toModel, h, habs, ← hf.shapeOfBits_magnitude, ← hn, ← unpack_eq, pack_unpack (by omega)]
  rw [shape, hbits, hf.shapeOfBits_magnitude]

lemma beq_iff {y : Float} : (x == y) = true ↔ comparison x y = some .eq := by
  change (comparison x y == some .eq) = true ↔ _
  rw [beq_iff_eq]

end Finite

end LineBasic.Number
