import LineBasic.Text.Utf8
import Mathlib.Tactic.Common

/-! Decoding undoes encoding: the bytes that are decoded are those that spell a text, and what is decoded
is the text that they spell. -/

namespace LineBasic.Text.Utf8

/-- The bytes that spell a text. -/
def encode (text : String) : List UInt8 := text.toList.flatMap String.utf8EncodeChar

section Bytes

variable {a b : UInt8}

lemma isContinuation_iff : isContinuation b = true ↔ 0x80 ≤ b.toNat ∧ b.toNat < 0xC0 := by
  simp [isContinuation, UInt8.le_iff_toNat_le, UInt8.lt_iff_toNat_lt]

lemma second3_iff : second3 a b = true ↔ 0x80 ≤ b.toNat ∧ b.toNat < 0xC0 ∧
    (a.toNat = 0xE0 → 0xA0 ≤ b.toNat) ∧ (a.toNat = 0xED → b.toNat < 0xA0) := by
  simp [second3, isContinuation_iff, UInt8.le_iff_toNat_le, UInt8.lt_iff_toNat_lt, ← UInt8.toNat_inj]
  omega

lemma second4_iff : second4 a b = true ↔ 0x80 ≤ b.toNat ∧ b.toNat < 0xC0 ∧
    (a.toNat = 0xF0 → 0x90 ≤ b.toNat) ∧ (a.toNat = 0xF4 → b.toNat < 0x90) := by
  simp [second4, isContinuation_iff, UInt8.le_iff_toNat_le, UInt8.lt_iff_toNat_lt, ← UInt8.toNat_inj]
  omega

end Bytes

/-- The bytes of one character, which has the given number. -/
inductive Spells : List UInt8 → Nat → Prop
  | one {a : UInt8} : a.toNat < 0x80 → Spells [a] a.toNat
  | two {a b : UInt8} : 0xC2 ≤ a.toNat → a.toNat < 0xE0 → isContinuation b = true →
      Spells [a, b] ((a.toNat - 0xC0) * 64 + payload b)
  | three {a b c : UInt8} : 0xE0 ≤ a.toNat → a.toNat < 0xF0 → second3 a b = true → isContinuation c = true →
      Spells [a, b, c] (((a.toNat - 0xE0) * 64 + payload b) * 64 + payload c)
  | four {a b c d : UInt8} : 0xF0 ≤ a.toNat → a.toNat < 0xF5 → second4 a b = true → isContinuation c = true →
      isContinuation d = true →
      Spells [a, b, c, d] ((((a.toNat - 0xF0) * 64 + payload b) * 64 + payload c) * 64 + payload d)

section Spells

variable {a : UInt8} {bs front rest : List UInt8} {n : Nat} {c : Char}

lemma decodeOne_eq (a : UInt8) (bs : List UInt8) : decodeOne a bs =
    if a.toNat < 0x80 then .ok (Char.ofNat a.toNat, bs)
    else if a.toNat < 0xC2 then .error (.invalidStart, 1)
    else if a.toNat < 0xE0 then tail2 a bs
    else if a.toNat < 0xF0 then tail3 a bs
    else if a.toNat < 0xF5 then tail4 a bs
    else .error (.invalidStart, 1) := by
  simp only [decodeOne, UInt8.lt_iff_toNat_lt]
  rfl

lemma Spells.decodeOne (h : Spells (a :: front) n) (rest : List UInt8) :
    decodeOne a (front ++ rest) = .ok (Char.ofNat n, rest) := by
  cases h with
  | one ha =>
    rw [decodeOne_eq, if_pos ha]
    rfl
  | two ha ha' hb =>
    rw [decodeOne_eq, if_neg (by omega), if_neg (by omega), if_pos (by omega)]
    simp [tail2, hb]
  | three ha ha' hb hc =>
    rw [decodeOne_eq, if_neg (by omega), if_neg (by omega), if_neg (by omega), if_pos (by omega)]
    simp [tail3, hb, hc]
  | four ha ha' hb hc hd =>
    rw [decodeOne_eq, if_neg (by omega), if_neg (by omega), if_neg (by omega), if_neg (by omega),
      if_pos (by omega)]
    simp [tail4, hb, hc, hd]

lemma spells_of_decodeOne (h : decodeOne a bs = .ok (c, rest)) :
    ∃ front n, a :: bs = front ++ rest ∧ Spells front n ∧ c = Char.ofNat n := by
  rw [decodeOne_eq] at h
  split_ifs at h with h₁ h₂ h₃ h₄ h₅
  · obtain ⟨rfl, rfl⟩ := Prod.mk.inj (Except.ok.inj h)
    exact ⟨[a], _, rfl, .one h₁, rfl⟩
  · rw [tail2.eq_def] at h
    split at h
    · cases h
    · split_ifs at h with hb
      obtain ⟨rfl, rfl⟩ := Prod.mk.inj (Except.ok.inj h)
      exact ⟨[a, _], _, rfl, .two (by omega) h₃ hb, rfl⟩
  · rw [tail3.eq_def] at h
    split at h
    · cases h
    · split_ifs at h with hb
      split at h
      · cases h
      · split_ifs at h with hc
        obtain ⟨rfl, rfl⟩ := Prod.mk.inj (Except.ok.inj h)
        exact ⟨[a, _, _], _, rfl, .three (by omega) h₄ (by simpa using hb) hc, rfl⟩
  · rw [tail4.eq_def] at h
    split at h
    · cases h
    · split_ifs at h with hb
      split at h
      · cases h
      · split_ifs at h with hc
        split at h
        · cases h
        · split_ifs at h with hd
          obtain ⟨rfl, rfl⟩ := Prod.mk.inj (Except.ok.inj h)
          exact ⟨[a, _, _, _], _, rfl, .four (by omega) h₅ (by simpa using hb) (by simpa using hc) hd, rfl⟩

lemma spells_encodeChar (c : Char) : Spells (String.utf8EncodeChar c) c.toNat := by
  have hv : c.val.toNat < 0xD800 ∨ 0xDFFF < c.val.toNat ∧ c.val.toNat < 0x110000 := c.valid
  have hb {k : Nat} (hk : k < 256) : (UInt8.ofNat k).toNat = k := UInt8.toNat_ofNat_of_lt' hk
  change Spells (String.utf8EncodeChar c) c.val.toNat
  unfold String.utf8EncodeChar
  generalize c.val.toNat = v at *
  dsimp only
  split_ifs with h₁ h₂ h₃
  · convert Spells.one (a := UInt8.ofNat v) ?_ <;> rw [hb] <;> omega
  · convert Spells.two (a := UInt8.ofNat (v / 64 % 32 + 192)) (b := UInt8.ofNat (v % 64 + 128)) ?_ ?_ ?_
    all_goals simp only [payload, isContinuation_iff, hb (show v / 64 % 32 + 192 < 256 by omega),
      hb (show v % 64 + 128 < 256 by omega)]; omega
  · have ha := hb (show v / 4096 % 16 + 224 < 256 by omega)
    have hb' := hb (show v / 64 % 64 + 128 < 256 by omega)
    have hc := hb (show v % 64 + 128 < 256 by omega)
    convert Spells.three (a := UInt8.ofNat (v / 4096 % 16 + 224)) (b := UInt8.ofNat (v / 64 % 64 + 128))
      (c := UInt8.ofNat (v % 64 + 128)) ?_ ?_ ?_ ?_
    all_goals simp only [payload, isContinuation_iff, second3_iff, ha, hb', hc]; omega
  · have ha := hb (show v / 262144 % 8 + 240 < 256 by omega)
    have hb' := hb (show v / 4096 % 64 + 128 < 256 by omega)
    have hc := hb (show v / 64 % 64 + 128 < 256 by omega)
    have hd := hb (show v % 64 + 128 < 256 by omega)
    convert Spells.four (a := UInt8.ofNat (v / 262144 % 8 + 240)) (b := UInt8.ofNat (v / 4096 % 64 + 128))
      (c := UInt8.ofNat (v / 64 % 64 + 128)) (d := UInt8.ofNat (v % 64 + 128)) ?_ ?_ ?_ ?_ ?_
    all_goals simp only [payload, isContinuation_iff, second4_iff, ha, hb', hc, hd]; omega

lemma Spells.isValidChar (h : Spells front n) : n.isValidChar := by
  change n < 0xD800 ∨ 0xDFFF < n ∧ n < 0x110000
  cases h with
  | one ha => omega
  | two ha ha' hb =>
    simp only [payload]
    omega
  | three ha ha' hb hc =>
    rw [second3_iff] at hb
    simp only [payload]
    omega
  | four ha ha' hb hc hd =>
    rw [second4_iff] at hb
    simp only [payload]
    omega

lemma Spells.encodeChar (h : Spells front n) : String.utf8EncodeChar (Char.ofNat n) = front := by
  have hv : (Char.ofNat n).val.toNat = n := by
    rw [Char.ofNat, dif_pos h.isValidChar]
    rfl
  have byte {b : UInt8} {k : Nat} (hk : k = b.toNat) : UInt8.ofNat k = b := by
    rw [hk, UInt8.ofNat_toNat]
  unfold String.utf8EncodeChar
  rw [hv]
  dsimp only
  cases h with
  | one ha => rw [if_pos (by omega), byte rfl]
  | @two a b ha ha' hb =>
    rw [isContinuation_iff] at hb
    unfold payload
    rw [if_neg (by omega), if_pos (by omega), byte (b := a) (by omega), byte (b := b) (by omega)]
  | @three a b c ha ha' hb hc =>
    rw [second3_iff] at hb
    rw [isContinuation_iff] at hc
    unfold payload
    rw [if_neg (by omega), if_neg (by omega), if_pos (by omega), byte (b := a) (by omega),
      byte (b := b) (by omega), byte (b := c) (by omega)]
  | @four a b c d ha ha' hb hc hd =>
    rw [second4_iff] at hb
    rw [isContinuation_iff] at hc hd
    unfold payload
    rw [if_neg (by omega), if_neg (by omega), if_neg (by omega), byte (b := a) (by omega),
      byte (b := b) (by omega), byte (b := c) (by omega), byte (b := d) (by omega)]

end Spells

section Decode

variable {bytes : List UInt8} {text : String} {position : Nat} {acc cs : List Char}

lemma decodeFrom_cons (position : Nat) (acc : List Char) (a : UInt8) (bs : List UInt8) :
    decodeFrom position acc (a :: bs) =
      match decodeOne a bs with
      | .error (defect, count) => .error ⟨position, count, a, defect⟩
      | .ok (c, rest) => decodeFrom (position + c.utf8Size) (c :: acc) rest := by
  rw [decodeFrom]
  split <;> simp_all

lemma decodeFrom_encode (position : Nat) (acc cs : List Char) :
    decodeFrom position acc (cs.flatMap String.utf8EncodeChar) = .ok (acc.reverse ++ cs) := by
  induction cs generalizing position acc with
  | nil => simp [decodeFrom]
  | cons c cs ih =>
    have hs := spells_encodeChar c
    rw [List.flatMap_cons]
    cases hf : String.utf8EncodeChar c with
    | nil =>
      rw [hf] at hs
      cases hs
    | cons a front =>
      rw [hf] at hs
      simp only [List.cons_append, decodeFrom_cons, hs.decodeOne, ih, Char.ofNat_toNat]
      simp

lemma encode_of_decodeFrom (h : decodeFrom position acc bytes = .ok cs) :
    ∃ tail, cs = acc.reverse ++ tail ∧ bytes = tail.flatMap String.utf8EncodeChar := by
  fun_induction decodeFrom position acc bytes with
  | case1 position acc => exact ⟨[], by simpa using (Except.ok.inj h).symm, rfl⟩
  | case2 => cases h
  | case3 position acc a bs c rest hone ih =>
    obtain ⟨tail, rfl, rfl⟩ := ih h
    obtain ⟨front, n, hbs, hspells, rfl⟩ := spells_of_decodeOne hone
    exact ⟨Char.ofNat n :: tail, by simp, by rw [hbs, List.flatMap_cons, hspells.encodeChar]⟩

/-- The bytes that are decoded are those that spell a text. -/
theorem decode_eq_ok_iff : decode bytes = .ok text ↔ bytes = encode text := by
  constructor
  · intro h
    rw [decode] at h
    cases hd : decodeFrom 0 [] bytes with
    | error m =>
      rw [hd] at h
      cases h
    | ok cs =>
      rw [hd] at h
      obtain rfl : String.ofList cs = text := Except.ok.inj h
      obtain ⟨tail, rfl, rfl⟩ := encode_of_decodeFrom hd
      simp [encode]
  · rintro rfl
    rw [decode, encode, decodeFrom_encode]
    simp [Except.map]

end Decode

end LineBasic.Text.Utf8
