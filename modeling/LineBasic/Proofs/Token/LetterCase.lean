import LineBasic.Proofs.Token.Rendering

/-! Letter case in a line. It tells nothing in the words of a line, while texts in quotes and what
stands behind `REM` are kept as they are. -/

namespace LineBasic.Token

/-- A letter with the letters and digits that follow it. -/
def IsRun (w : List Char) : Prop := (∃ c ∈ w.head?, isLetter c = true) ∧ ∀ d ∈ w, isWordPart d = true

/-- Two lines that differ at most in the case of the letters in their words. A word goes as far as
letters and digits do; behind the word `REM`, unless a dollar sign makes it a name, stands a remark. -/
inductive Recased : List Char → List Char → Prop
  | nil : Recased [] []
  | other {c : Char} {cs cs' : List Char} (hl : isLetter c = false) (hq : c ≠ '"') (h : Recased cs cs') :
      Recased (c :: cs) (c :: cs')
  | text {body cs cs' : List Char} (hb : '"' ∉ body) (h : Recased cs cs') :
      Recased ('"' :: (body ++ '"' :: cs)) ('"' :: (body ++ '"' :: cs'))
  | unclosed {body : List Char} (hb : '"' ∉ body) : Recased ('"' :: body) ('"' :: body)
  | word {w w' cs cs' : List Char} (hw : IsRun w) (hu : w.map Char.toUpper = w'.map Char.toUpper)
      (hc : ∀ d ∈ cs.head?, isWordPart d = false)
      (hr : w.map Char.toUpper ≠ ['R', 'E', 'M'] ∨ cs.head? = some '$') (h : Recased cs cs') :
      Recased (w ++ cs) (w' ++ cs')
  | remark {w w' cs : List Char} (hw : w.map Char.toUpper = ['R', 'E', 'M'])
      (hu : w.map Char.toUpper = w'.map Char.toUpper)
      (hc : ∀ d ∈ cs.head?, isWordPart d = false ∧ d ≠ '$') : Recased (w ++ cs) (w' ++ cs)

section Upper

lemma toUpper_cases (c : Char) : c.toUpper = c ∨ (isLetter c = true ∧ isLetter c.toUpper = true) := by
  by_cases hc : c.toNat < 0x80
  · have ha : ∀ n < 0x80, (Char.ofNat n).toUpper = Char.ofNat n ∨
        (isLetter (Char.ofNat n) = true ∧ isLetter (Char.ofNat n).toUpper = true) := by decide
    simpa using ha c.toNat hc
  · refine .inl ?_
    rw [Char.toUpper]
    split
    · rename_i h
      have hz : c.toNat ≤ 122 := UInt32.le_iff_toNat_le.mp h.2
      omega
    · rfl

lemma isLetter_toUpper (c : Char) : isLetter c.toUpper = isLetter c := by
  rcases toUpper_cases c with h | ⟨hl, hu⟩
  · rw [h]
  · rw [hl, hu]

lemma isWordPart_toUpper (c : Char) : isWordPart c.toUpper = isWordPart c := by
  rcases toUpper_cases c with h | ⟨hl, hu⟩
  · rw [h]
  · simp [isWordPart, hl, hu]

end Upper

section Runs

variable {w w' cs : List Char}

lemma IsRun.of_toUpper (h : IsRun w) (hu : w.map Char.toUpper = w'.map Char.toUpper) : IsRun w' := by
  obtain ⟨⟨c, hc, hl⟩, hw⟩ := h
  constructor
  · have hh : w'.head?.map Char.toUpper = some c.toUpper := by
      rw [← List.head?_map, ← hu, List.head?_map, Option.mem_def.mp hc]
      rfl
    obtain ⟨c', hc', he⟩ := Option.map_eq_some_iff.mp hh
    exact ⟨c', hc', by rw [← isLetter_toUpper, he, isLetter_toUpper, hl]⟩
  · intro d hd
    have hm : d.toUpper ∈ w.map Char.toUpper := hu ▸ List.mem_map_of_mem hd
    obtain ⟨e, he, hde⟩ := List.mem_map.mp hm
    rw [← isWordPart_toUpper, ← hde, isWordPart_toUpper, hw e he]

lemma isRun_of_rem (h : w.map Char.toUpper = ['R', 'E', 'M']) : IsRun w := by
  have hr : IsRun ['R', 'E', 'M'] := ⟨⟨'R', rfl, by decide⟩, by simp [isWordPart, isLetter]⟩
  exact hr.of_toUpper h.symm

lemma IsRun.exists_cons (h : IsRun w) : ∃ c ws, w = c :: ws ∧ isLetter c = true := by
  obtain ⟨⟨c, hc, hl⟩, -⟩ := h
  obtain ⟨ws, rfl⟩ := List.head?_eq_some_iff.mp hc
  exact ⟨c, ws, rfl, hl⟩

lemma IsRun.read_eq (h : IsRun w) {c : Char} {tail : List Char} (he : w ++ cs = c :: tail) :
    read c tail = readWord (w ++ cs) := by
  obtain ⟨d, ws, rfl, hl⟩ := h.exists_cons
  obtain ⟨rfl, rfl⟩ := List.cons.inj he
  rw [read, if_pos hl]
  rfl

lemma IsRun.takeWord_dollar (h : IsRun w) : takeWord (w ++ '$' :: cs) = (w ++ ['$'], cs) := by
  obtain ⟨ht, hd⟩ := Text.span_append_cons (c := '$') h.2 (by decide) cs
  rw [takeWord, ht, hd]
  rfl

lemma IsRun.takeWord_eq (h : IsRun w) (hc : ∀ d ∈ cs.head?, isWordPart d = false)
    (hd : cs.head? ≠ some '$') : takeWord (w ++ cs) = (w, cs) := by
  obtain ⟨ht, hdr⟩ := Text.span_append h.2 hc
  rw [takeWord, ht, hdr]
  split
  · exact absurd rfl hd
  · rfl

end Runs

namespace Recased

variable {cs cs' : List Char} {c : Char}

lemma length_eq (h : Recased cs cs') : cs.length = cs'.length := by
  induction h with
  | nil | unclosed => rfl
  | other _ _ _ ih => simp [ih]
  | text _ _ ih => simp [ih]
  | word _ hu _ _ _ ih =>
    have hl := congrArg List.length hu
    simp only [List.length_map] at hl
    simp [ih, hl]
  | remark _ hu =>
    have hl := congrArg List.length hu
    simp only [List.length_map] at hl
    simp [hl]

lemma head_of_run {w : List Char} (hw : IsRun w) (hl : isLetter c = false) : (w ++ cs).head? ≠ some c := by
  obtain ⟨d, ws, rfl, hd⟩ := hw.exists_cons
  rintro ⟨⟩
  exact Bool.false_ne_true (hl.symm.trans hd)

/-- Beyond letters, two such lines begin with the same character. -/
lemma head?_iff (h : Recased cs cs') (hl : isLetter c = false) :
    cs.head? = some c ↔ cs'.head? = some c := by
  cases h with
  | nil | other | text | unclosed => rfl
  | word hw hu => exact iff_of_false (head_of_run hw hl) (head_of_run (hw.of_toUpper hu) hl)
  | remark hw hu =>
    have hr := isRun_of_rem hw
    exact iff_of_false (head_of_run hr hl) (head_of_run (hr.of_toUpper hu) hl)

lemma head?_wordPart (h : Recased cs cs') : cs.head?.map isWordPart = cs'.head?.map isWordPart := by
  have hrun {w rest : List Char} (hw : IsRun w) : (w ++ rest).head?.map isWordPart = some true := by
    obtain ⟨d, ws, rfl, -⟩ := hw.exists_cons
    simpa using hw.2 d List.mem_cons_self
  cases h with
  | nil | other | text | unclosed => rfl
  | word hw hu => rw [hrun hw, hrun (hw.of_toUpper hu)]
  | remark hw hu =>
    have hr := isRun_of_rem hw
    rw [hrun hr, hrun (hr.of_toUpper hu)]

lemma tail (h : Recased (c :: cs) cs') (hl : isLetter c = false) (hq : c ≠ '"') :
    ∃ cs'', cs' = c :: cs'' ∧ Recased cs cs'' := by
  generalize he : c :: cs = l at h
  have hn {w rest : List Char} (hw : IsRun w) : c :: cs ≠ w ++ rest := by
    intro hr
    apply head_of_run hw hl
    rw [← hr]
    rfl
  cases h with
  | nil => cases he
  | other _ _ h =>
    cases he
    exact ⟨_, rfl, h⟩
  | text | unclosed =>
    cases he
    exact absurd rfl hq
  | word hw => exact absurd he (hn hw)
  | remark hw => exact absurd he (hn (isRun_of_rem hw))

lemma span {p : Char → Bool} (hp : ∀ c, p c = true → isLetter c = false ∧ c ≠ '"') (h : Recased cs cs') :
    cs.takeWhile p = cs'.takeWhile p ∧ Recased (cs.dropWhile p) (cs'.dropWhile p) := by
  have hrun {w rest : List Char} (hw : IsRun w) :
      (w ++ rest).takeWhile p = [] ∧ (w ++ rest).dropWhile p = w ++ rest := by
    obtain ⟨d, ws, rfl, hd⟩ := hw.exists_cons
    have hn : ¬ p d = true := fun hd' => Bool.false_ne_true ((hp d hd').1.symm.trans hd)
    exact ⟨List.takeWhile_cons_of_neg hn, List.dropWhile_cons_of_neg hn⟩
  have hquote : ¬ p '"' = true := fun hq => (hp _ hq).2 rfl
  induction h with
  | nil => exact ⟨rfl, .nil⟩
  | @other c cs cs' hl hq h ih =>
    by_cases hc : p c = true
    · rw [List.takeWhile_cons_of_pos hc, List.takeWhile_cons_of_pos hc, List.dropWhile_cons_of_pos hc,
        List.dropWhile_cons_of_pos hc, ih.1]
      exact ⟨rfl, ih.2⟩
    · rw [List.takeWhile_cons_of_neg hc, List.takeWhile_cons_of_neg hc, List.dropWhile_cons_of_neg hc,
        List.dropWhile_cons_of_neg hc]
      exact ⟨rfl, .other hl hq h⟩
  | text hb h =>
    rw [List.takeWhile_cons_of_neg hquote, List.takeWhile_cons_of_neg hquote,
      List.dropWhile_cons_of_neg hquote, List.dropWhile_cons_of_neg hquote]
    exact ⟨rfl, .text hb h⟩
  | unclosed hb =>
    rw [List.dropWhile_cons_of_neg hquote]
    exact ⟨rfl, .unclosed hb⟩
  | word hw hu hc hr h =>
    obtain ⟨ht, hd⟩ := hrun hw
    obtain ⟨ht', hd'⟩ := hrun (hw.of_toUpper hu)
    rw [ht, ht', hd, hd']
    exact ⟨rfl, .word hw hu hc hr h⟩
  | remark hw hu hc =>
    have hrw := isRun_of_rem hw
    obtain ⟨ht, hd⟩ := hrun hrw
    obtain ⟨ht', hd'⟩ := hrun (hrw.of_toUpper hu)
    rw [ht, ht', hd, hd']
    exact ⟨rfl, .remark hw hu hc⟩

end Recased

/-- Two readings that find the same, and go on with lines that differ in letter case only. -/
inductive Reread : Reading → Reading → Prop
  | fault {cause : Cause} {rest rest' : List Char} : Reread (.fault cause rest) (.fault cause rest')
  | found {kind : Kind} {shown rest rest' : List Char} {value : Value} (hk : kind ≠ .rem)
      (h : Recased rest rest') : Reread (.found kind shown value rest) (.found kind shown value rest')
  | remark {shown rest : List Char} {value : Value} :
      Reread (.found .rem shown value rest) (.found .rem shown value rest)

section Read

variable {c c' : Char} {cs cs' w w' : List Char}

lemma not_letter_of_isNumeric (h : isNumeric c = true) : isLetter c = false ∧ c ≠ '"' := by
  refine ⟨isLetter_of_isNumeric h, ?_⟩
  rintro rfl
  cases h

lemma takeNumeral_point {rest : List Char} (h : cs.dropWhile isNumeric = '.' :: rest) :
    takeNumeral cs = if (rest.takeWhile isNumeric).isEmpty then (cs.takeWhile isNumeric, [], '.' :: rest)
      else (cs.takeWhile isNumeric, rest.takeWhile isNumeric, rest.dropWhile isNumeric) := by
  rw [takeNumeral, h]
  rfl

lemma takeNumeral_whole (h : (cs.dropWhile isNumeric).head? ≠ some '.') :
    takeNumeral cs = (cs.takeWhile isNumeric, [], cs.dropWhile isNumeric) := by
  rw [takeNumeral]
  split
  · rename_i heq
    rw [heq] at h
    exact absurd rfl h
  · rfl

lemma Recased.readNumeral (h : Recased cs cs') : Reread (readNumeral cs) (readNumeral cs') := by
  obtain ⟨ht, hd⟩ := h.span fun c => not_letter_of_isNumeric
  by_cases hp : (cs.dropWhile isNumeric).head? = some '.'
  · obtain ⟨rest, hrest⟩ := List.head?_eq_some_iff.mp hp
    rw [hrest] at hd
    obtain ⟨rest', hrest', hr⟩ := hd.tail (by decide) (by decide)
    obtain ⟨ht', hd'⟩ := hr.span fun c => not_letter_of_isNumeric
    rw [Token.readNumeral, Token.readNumeral, takeNumeral_point hrest, takeNumeral_point hrest', ht, ht']
    split_ifs
    · exact .found (by decide) (.other (by decide) (by decide) hr)
    · exact .found (by decide) hd'
  · have hp' := mt (hd.head?_iff (by decide)).mpr hp
    rw [Token.readNumeral, Token.readNumeral, takeNumeral_whole hp, takeNumeral_whole hp', ht]
    exact .found (by decide) hd

lemma ofWord_dollar_ne_rem (w : List Char) : Kind.ofWord (.ofList (w ++ ['$'])) ≠ .rem := by
  intro hk
  have hl := congrArg List.getLast? (Means.rem (means_iff.mpr hk))
  rw [List.getLast?_concat] at hl
  revert hl
  decide

lemma ofWord_ne_rem (h : w ≠ ['R', 'E', 'M']) : Kind.ofWord (.ofList w) ≠ .rem :=
  fun hk => h (Means.rem (means_iff.mpr hk))

lemma reread_word (hw : IsRun w) (hu : w.map Char.toUpper = w'.map Char.toUpper)
    (hc : ∀ d ∈ cs.head?, isWordPart d = false)
    (hr : w.map Char.toUpper ≠ ['R', 'E', 'M'] ∨ cs.head? = some '$') (h : Recased cs cs') :
    Reread (readWord (w ++ cs)) (readWord (w' ++ cs')) := by
  have hw' := hw.of_toUpper hu
  by_cases hd : cs.head? = some '$'
  · obtain ⟨rest, rfl⟩ := List.head?_eq_some_iff.mp hd
    obtain ⟨rest', rfl, hrest⟩ := h.tail (by decide) (by decide)
    rw [readWord, readWord, hw.takeWord_dollar, hw'.takeWord_dollar]
    simp only [List.map_append, hu]
    exact .found (ofWord_dollar_ne_rem _) hrest
  · have hd' := mt (h.head?_iff (by decide)).mpr hd
    have hc' : ∀ d ∈ cs'.head?, isWordPart d = false := by
      intro d hm
      have hh := h.head?_wordPart
      rw [Option.mem_def.mp hm] at hh
      obtain ⟨e, he, hed⟩ := Option.map_eq_some_iff.mp hh
      rw [← hed, hc e he]
    have hn := ofWord_ne_rem (hr.resolve_right hd)
    rw [readWord, readWord, hw.takeWord_eq hc hd, hw'.takeWord_eq hc' hd']
    simp only [hu] at hn ⊢
    exact .found hn h

lemma reread_remark (hw : w.map Char.toUpper = ['R', 'E', 'M'])
    (hu : w.map Char.toUpper = w'.map Char.toUpper)
    (hc : ∀ d ∈ cs.head?, isWordPart d = false ∧ d ≠ '$') :
    Reread (readWord (w ++ cs)) (readWord (w' ++ cs)) := by
  have hr := isRun_of_rem hw
  have hc' : ∀ d ∈ cs.head?, isWordPart d = false := fun d hd => (hc d hd).1
  have hd : cs.head? ≠ some '$' := fun hd => (hc '$' hd).2 rfl
  rw [readWord, readWord, hr.takeWord_eq hc' hd, (hr.of_toUpper hu).takeWord_eq hc' hd]
  simp only [← hu, hw]
  exact .remark

lemma read_quote (cs : List Char) : read '"' cs = readText cs := by
  rw [read, if_neg (by decide), if_neg (by decide), if_pos rfl]

lemma reread_other (hn : isLetter c = false) (hq : c ≠ '"') (h : Recased cs cs') :
    Reread (read c cs) (read c cs') := by
  have hl : ¬ isLetter c = true := by simp [hn]
  simp only [read, if_neg hl, if_neg hq]
  split_ifs
  · exact (Recased.other hn hq h).readNumeral
  · cases hm : Kind.ofMark? c with
    | none => exact .fault
    | some kind =>
      refine .found ?_ h
      rintro rfl
      exact (isMark_iff.mpr hm).not_mem (by decide)

lemma readText_unclosed {body : List Char} (h : '"' ∉ body) :
    readText body = .fault .unterminatedString [] := by
  have hd : body.dropWhile (· ≠ '"') = [] := by
    rw [List.dropWhile_eq_nil_iff]
    intro d hd
    rw [decide_eq_true_eq]
    rintro rfl
    exact h hd
  rw [readText, hd]

lemma Recased.read {l l' : List Char} (h : Recased l l') (hl : l = c :: cs) (hl' : l' = c' :: cs') :
    Reread (read c cs) (read c' cs') := by
  cases h with
  | nil => cases hl
  | other hn hq h =>
    cases hl
    cases hl'
    exact reread_other hn hq h
  | text hb h =>
    cases hl
    cases hl'
    rw [read_quote, read_quote, readText_append hb, readText_append hb]
    exact .found (by decide) h
  | unclosed hb =>
    cases hl
    cases hl'
    rw [read_quote, readText_unclosed hb]
    exact .fault
  | word hw hu hc hr h =>
    rw [hw.read_eq hl, (hw.of_toUpper hu).read_eq hl']
    exact reread_word hw hu hc hr h
  | remark hw hu hc =>
    have hr := isRun_of_rem hw
    rw [hr.read_eq hl, (hr.of_toUpper hu).read_eq hl']
    exact reread_remark hw hu hc

end Read

section Scan

variable {line column : Int} {cs cs' : List Char}

lemma not_letter_of_isGap {c : Char} (h : isGap c = true) : isLetter c = false ∧ c ≠ '"' := by
  rcases isGap_iff.mp h with rfl | rfl | rfl <;> decide

lemma Recased.gap (h : Recased cs cs') : (cs.takeWhile isGap).length = (cs'.takeWhile isGap).length ∧
    Recased (cs.dropWhile isGap) (cs'.dropWhile isGap) := by
  obtain ⟨ht, hd⟩ := h.span fun c => not_letter_of_isGap
  rw [ht]
  exact ⟨rfl, hd⟩

lemma Recased.behind_gap (h : Recased cs cs') {c : Char} {tail : List Char}
    (he : cs.dropWhile isGap = c :: tail) : ∃ c' tail', cs'.dropWhile isGap = c' :: tail' ∧
      Reread (Token.read c tail) (Token.read c' tail') := by
  have hd := h.gap.2
  cases he' : cs'.dropWhile isGap with
  | nil =>
    have hl := hd.length_eq
    rw [he, he'] at hl
    cases hl
  | cons c' tail' => exact ⟨c', tail', rfl, hd.read he he'⟩

/-- The scanner meets the same in both lines. -/
lemma Scans.recased {outcome : Except Diagnostic (List Token)} (h : Scans line column cs outcome)
    (hr : Recased cs cs') : Scans line column cs' outcome := by
  induction h generalizing cs' with
  | blank he =>
    obtain ⟨-, hd⟩ := hr.gap
    rw [he] at hd
    rw [hr.length_eq]
    exact .blank (List.eq_nil_of_length_eq_zero hd.length_eq.symm)
  | fault he hf =>
    obtain ⟨c', tail', he', hx⟩ := hr.behind_gap he
    rw [hf] at hx
    generalize hy : read c' tail' = y at hx
    cases hx
    exact .fault he' hy
  | remark he hf =>
    obtain ⟨c', tail', he', hx⟩ := hr.behind_gap he
    rw [hf] at hx
    generalize hy : read c' tail' = y at hx
    rw [hr.gap.1]
    cases hx with
    | found hk => exact absurd rfl hk
    | remark => exact .remark he' hy
  | token he hf hk _ ih =>
    obtain ⟨c', tail', he', hx⟩ := hr.behind_gap he
    rw [hf] at hx
    generalize hy : read c' tail' = y at hx
    rw [hr.gap.1] at ih ⊢
    cases hx with
    | found _ h => exact .token he' hy hk (ih h)
    | remark => exact absurd rfl hk

lemma Scans.unique {outcome outcome' : Except Diagnostic (List Token)} (h : Scans line column cs outcome)
    (h' : Scans line column cs outcome') : outcome = outcome' := by
  induction h generalizing outcome' with
  | blank he =>
    cases h' with
    | blank => rfl
    | fault he' | remark he' | token he' => cases he.symm.trans he'
  | fault he hf =>
    cases h' with
    | blank he' => cases he.symm.trans he'
    | fault he' hf' =>
      cases he.symm.trans he'
      cases hf.symm.trans hf'
      rfl
    | remark he' hf' | token he' hf' =>
      cases he.symm.trans he'
      cases hf.symm.trans hf'
  | remark he hf =>
    cases h' with
    | blank he' => cases he.symm.trans he'
    | fault he' hf' =>
      cases he.symm.trans he'
      cases hf.symm.trans hf'
    | remark he' hf' =>
      cases he.symm.trans he'
      cases hf.symm.trans hf'
      rfl
    | token he' hf' hk =>
      cases he.symm.trans he'
      cases hf.symm.trans hf'
      exact absurd rfl hk
  | token he hf hk _ ih =>
    cases h' with
    | blank he' => cases he.symm.trans he'
    | fault he' hf' =>
      cases he.symm.trans he'
      cases hf.symm.trans hf'
    | remark he' hf' =>
      cases he.symm.trans he'
      cases hf.symm.trans hf'
      exact absurd rfl hk
    | token he' hf' _ h' =>
      cases he.symm.trans he'
      cases hf.symm.trans hf'
      rw [ih h']

lemma scan_recased {source source' : String} (h : Recased source.toList source'.toList) (line : Int) :
    scan source line = scan source' line :=
  ((scans_scanFrom line 1 source.toList).recased h).unique (scans_scanFrom line 1 source'.toList)

end Scan

end LineBasic.Token
