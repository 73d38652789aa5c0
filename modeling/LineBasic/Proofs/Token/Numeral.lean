import LineBasic.Proofs.Number.Whole
import LineBasic.Token.Scan

/-! Decimal numerals of whole numbers, and how a jump to one is scanned. -/

namespace LineBasic

lemma Text.digit?_digitChar {d : Nat} (hd : d < 10) : digit? d.digitChar = some d := by
  revert d
  decide

lemma Text.natOfDigits_toDigits (n : Nat) : natOfDigits ((Nat.toDigits 10 n).filterMap digit?) = n := by
  induction n using Nat.strong_induction_on with
  | _ n ih =>
    rcases Nat.lt_or_ge n 10 with hn | hn
    · rw [Nat.toDigits_of_lt_base hn]
      simp [digit?_digitChar hn, natOfDigits]
    · have hd : n % 10 < 10 := Nat.mod_lt n (by decide)
      rw [Nat.toDigits_of_base_le (by decide) hn, List.filterMap_append]
      simp only [List.filterMap_cons, digit?_digitChar hd, List.filterMap_nil]
      rw [natOfDigits_concat, ih (n / 10) (by omega)]
      omega

lemma Number.ofDigits_whole {ds : List Nat} (h : 0 < Text.natOfDigits ds) :
    ofDigits false ds [] 0 = nearest false (Text.natOfDigits ds) 1 := by
  have hn : ¬ (Text.natOfDigits ds = 0 ∨ (0 : Int) - ([] : List Nat).length <
      -(400 + (Text.natOfDigits ds).log2)) := by
    rintro (hz | hz)
    · omega
    · simp at hz
      omega
  rw [ofDigits, List.append_nil, ofDecimal, if_neg hn, if_neg (by simp)]
  simp

namespace Token

lemma isNumeric_of_mem_toDigits {n : Nat} {c : Char} (h : c ∈ Nat.toDigits 10 n) : isNumeric c = true := by
  have hc := Nat.isDigit_of_mem_toDigits (by decide) (by decide) h
  simpa [isNumeric, Char.isDigit, Char.le_def] using hc

lemma takeNumeral_of_all {cs : List Char} (h : ∀ c ∈ cs, isNumeric c = true) :
    takeNumeral cs = (cs, [], []) := by
  have hd : cs.dropWhile isNumeric = [] := List.dropWhile_eq_nil_iff.mpr h
  have ht : cs.takeWhile isNumeric = cs := List.takeWhile_eq_self_iff.mpr h
  simp only [takeNumeral, hd, ht]

lemma isLetter_of_isNumeric {c : Char} (h : isNumeric c = true) : isLetter c = false := by
  have hc : 48 ≤ c.toNat ∧ c.toNat ≤ 57 := by
    simpa [isNumeric, Char.le_def, UInt32.le_iff_toNat_le] using h
  have hu : c ≠ '_' := by
    rintro rfl
    simp at hc
  simp [isLetter, Char.le_def, UInt32.le_iff_toNat_le, hu]
  omega

lemma isGap_of_isNumeric {c : Char} (h : isNumeric c = true) : isGap c = false := by
  rw [Bool.eq_false_iff]
  intro hg
  simp only [isGap, Bool.or_eq_true, beq_iff_eq] at hg
  rcases hg with (rfl | rfl) | rfl <;> revert h <;> decide

section ScanFrom

variable (line column : Int) {cs : List Char}

lemma scanFrom_end (h : cs.dropWhile isGap = []) :
    scanFrom line column cs = .ok [endToken line (column + cs.length)] := by
  rw [scanFrom]
  split
  · rfl
  · rename_i heq
    cases h.symm.trans heq

lemma scanFrom_found {c : Char} {rest lexeme after : List Char} {kind : Kind} {literal : Value}
    (h : cs.dropWhile isGap = c :: rest) (hr : read c rest = .found kind lexeme literal after)
    (hk : kind ≠ .rem) : ∃ column', scanFrom line column cs =
      (scanFrom line (column' + lexeme.length) after).map
        (⟨kind, .ofList lexeme, literal, line, column'⟩ :: ·) := by
  refine ⟨column + (cs.takeWhile isGap).length, ?_⟩
  rw [scanFrom]
  split
  · rename_i heq
    cases h.symm.trans heq
  · rename_i heq
    obtain ⟨rfl, rfl⟩ := List.cons.inj (h.symm.trans heq)
    split
    · rename_i heq'
      cases hr.symm.trans heq'
    · rename_i heq'
      obtain ⟨rfl, rfl, rfl, rfl⟩ := Reading.found.inj (hr.symm.trans heq')
      rw [if_neg hk]

end ScanFrom

lemma read_numeral {n : Nat} (hn : 0 < n) {c : Char} {cs : List Char} (h : Nat.toDigits 10 n = c :: cs) :
    read c cs = .found .number (c :: cs) (.number (Number.nearest false n 1)) [] := by
  have hall : ∀ d ∈ c :: cs, isNumeric d = true := fun d hd => isNumeric_of_mem_toDigits (h ▸ hd)
  have hc := hall c List.mem_cons_self
  have hv := Text.natOfDigits_toDigits n
  rw [h] at hv
  rw [read, if_neg (by simp [isLetter_of_isNumeric hc]), if_pos hc, readNumeral, takeNumeral_of_all hall]
  simp only [List.filterMap_nil]
  rw [Number.ofDigits_whole (by omega), hv]
  simp

lemma scan_goto {n : Nat} (hn : 0 < n) (line : Int) : ∃ a b c, scan ("GOTO " ++ toString n) line =
    .ok [⟨.goto, "GOTO", .absent, line, a⟩,
      ⟨.number, toString n, .number (Number.nearest false n 1), line, b⟩, endToken line c] := by
  obtain ⟨c, cs, hd⟩ := List.exists_cons_of_ne_nil (Nat.toDigits_ne_nil (n := n) (b := 10))
  have hs : ("GOTO " ++ toString n).toList = 'G' :: 'O' :: 'T' :: 'O' :: ' ' :: c :: cs := by
    rw [String.toList_append, Nat.toString_eq_ofList_toDigits, hd]
    simp
  have hc : isGap c = false := isGap_of_isNumeric (isNumeric_of_mem_toDigits (hd ▸ List.mem_cons_self))
  have hw : read 'G' ('O' :: 'T' :: 'O' :: ' ' :: c :: cs) =
      .found .goto ['G', 'O', 'T', 'O'] .absent (' ' :: c :: cs) := rfl
  obtain ⟨a, ha⟩ := scanFrom_found line 1 (List.dropWhile_cons_of_neg (by decide)) hw (by decide)
  have hg : (' ' :: c :: cs).dropWhile isGap = c :: cs := by
    rw [List.dropWhile_cons_of_pos (by decide), List.dropWhile_cons_of_neg (by simp [hc])]
  obtain ⟨b, hb⟩ := scanFrom_found line (a + 4) hg (read_numeral hn hd) (by decide)
  have he := @scanFrom_end line (b + (c :: cs).length) [] rfl
  have hl : ((['G', 'O', 'T', 'O'].length : Nat) : Int) = 4 := rfl
  refine ⟨a, b, b + (c :: cs).length + ([] : List Char).length, ?_⟩
  rw [scan, hs, ha, hl, hb, he, Nat.toString_eq_ofList_toDigits, hd]
  rfl

end Token

end LineBasic
