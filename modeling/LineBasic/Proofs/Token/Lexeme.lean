import LineBasic.Proofs.Number.Reading
import LineBasic.Proofs.Token.Numeral
import LineBasic.Proofs.Tree.Plain

/-! The four kinds of lexemes, and that reading at a place of a line finds exactly these. -/

namespace LineBasic.Token

inductive IsWord : List Char → Prop
  | plain {c : Char} {cs : List Char} : isLetter c = true → (∀ d ∈ cs, isWordPart d = true) →
      IsWord (c :: cs)
  | dollar {c : Char} {cs : List Char} : isLetter c = true → (∀ d ∈ cs, isWordPart d = true) →
      IsWord (c :: cs ++ ['$'])

inductive IsNumeral : List Char → List Char → List Char → Prop
  | whole {ds : List Char} : (∀ d ∈ ds, isNumeric d = true) → ds ≠ [] → IsNumeral ds ds []
  | point {ds es : List Char} : (∀ d ∈ ds, isNumeric d = true) → ds ≠ [] →
      (∀ d ∈ es, isNumeric d = true) → es ≠ [] → IsNumeral (ds ++ '.' :: es) ds es

inductive IsMark : Char → Kind → Prop
  | leftParen : IsMark '(' .leftParen
  | rightParen : IsMark ')' .rightParen
  | equal : IsMark '=' .equal
  | plus : IsMark '+' .plus
  | minus : IsMark '-' .minus
  | star : IsMark '*' .star
  | slash : IsMark '/' .slash
  | comma : IsMark ',' .comma
  | semicolon : IsMark ';' .semicolon

inductive IsKeyword : List Char → Kind → Prop
  | print : IsKeyword ['P', 'R', 'I', 'N', 'T'] .print
  | goto : IsKeyword ['G', 'O', 'T', 'O'] .goto
  | let : IsKeyword ['L', 'E', 'T'] .let
  | rem : IsKeyword ['R', 'E', 'M'] .rem
  | cls : IsKeyword ['C', 'L', 'S'] .cls
  | list : IsKeyword ['L', 'I', 'S', 'T'] .list
  | input : IsKeyword ['I', 'N', 'P', 'U', 'T'] .input

/-- The kind of a word in capitals. -/
inductive Means : List Char → Kind → Prop
  | keyword {cs : List Char} {kind : Kind} : IsKeyword cs kind → Means cs kind
  | identifier {cs : List Char} : (∀ kind, ¬ IsKeyword cs kind) → Means cs .identifier

/-- The characters spell a token of this kind, with the text it shows and its meaning. -/
inductive Spells : List Char → Kind → List Char → Value → Prop
  | word {cs : List Char} {kind : Kind} : IsWord cs → Means (cs.map Char.toUpper) kind →
      Spells cs kind (cs.map Char.toUpper) .absent
  | numeral {cs whole fraction : List Char} {x : Float} : IsNumeral cs whole fraction →
      Number.read? (.ofList cs) = some x → Spells cs .number cs (.number x)
  | text {body : List Char} : '"' ∉ body →
      Spells ('"' :: body ++ ['"']) .string ('"' :: body ++ ['"']) (.text (.ofList body))
  | mark {c : Char} {kind : Kind} : IsMark c kind → Spells [c] kind [c] .absent

/-- Nothing follows, or a gap does. -/
def Parted (rest : List Char) : Prop := ∀ c ∈ rest.head?, isGap c = true

lemma parted_nil : Parted [] := by simp [Parted]

section Tables

variable {c : Char} {cs : List Char} {kind : Kind}

lemma isMark_iff : IsMark c kind ↔ Kind.ofMark? c = some kind := by
  constructor
  · intro h
    cases h <;> rfl
  · intro h
    unfold Kind.ofMark? at h
    split at h <;> cases h <;> constructor

lemma isKeyword_iff : IsKeyword cs kind ↔ kind ∈ Kind.keywords ∧ kind.name = .ofList cs := by
  constructor
  · intro h
    cases h <;> decide
  · rintro ⟨hk, hn⟩
    obtain rfl : cs = kind.name.toList := by rw [hn, String.toList_ofList]
    rcases (by simpa [Kind.keywords] using hk) with rfl | rfl | rfl | rfl | rfl | rfl | rfl <;> constructor

lemma IsKeyword.ofWord (h : IsKeyword cs kind) : Kind.ofWord (.ofList cs) = kind := by
  cases h <;> decide

lemma means_iff : Means cs kind ↔ Kind.ofWord (.ofList cs) = kind := by
  constructor
  · intro h
    cases h with
    | keyword h => exact h.ofWord
    | identifier h =>
      have hn : Kind.keywords.find? (·.name == .ofList cs) = none :=
        List.find?_eq_none.mpr fun k hk hc => h k (isKeyword_iff.mpr ⟨hk, beq_iff_eq.mp hc⟩)
      rw [Kind.ofWord, hn]
      rfl
  · rintro rfl
    rw [Kind.ofWord]
    cases hf : Kind.keywords.find? (·.name == .ofList cs) with
    | none =>
      refine .identifier fun k hk => ?_
      obtain ⟨hm, hn⟩ := isKeyword_iff.mp hk
      exact List.find?_eq_none.mp hf k hm (beq_iff_eq.mpr hn)
    | some k =>
      have hn := List.find?_some hf
      exact .keyword (isKeyword_iff.mpr ⟨List.mem_of_find?_eq_some hf, beq_iff_eq.mp hn⟩)

lemma Means.rem (h : Means cs .rem) : cs = ['R', 'E', 'M'] := by
  obtain h | - := h
  cases h
  rfl

lemma Means.mem (h : Means cs kind) : kind ∈ .identifier :: Kind.keywords := by
  cases h with
  | keyword h => exact List.mem_cons_of_mem _ (isKeyword_iff.mp h).1
  | identifier => exact List.mem_cons_self

lemma IsMark.not_mem (h : IsMark c kind) : kind ∉ .identifier :: Kind.keywords := by
  cases h <;> decide

lemma IsMark.kind_ne_eof (h : IsMark c kind) : kind ≠ .eof := by
  cases h <;> decide

lemma IsMark.classes (h : IsMark c kind) :
    isGap c = false ∧ isLetter c = false ∧ isNumeric c = false ∧ c ≠ '"' := by
  cases h <;> decide

end Tables

section Classes

variable {c : Char}

lemma isGap_iff : isGap c = true ↔ c = ' ' ∨ c = '\t' ∨ c = '\r' := by
  simp [isGap, or_assoc]

lemma isWordPart_of_isGap (h : isGap c = true) : isWordPart c = false ∧ c ≠ '$' := by
  rcases isGap_iff.mp h with rfl | rfl | rfl <;> decide

lemma isNumeric_of_isGap (h : isGap c = true) : isNumeric c = false ∧ c ≠ '.' := by
  rcases isGap_iff.mp h with rfl | rfl | rfl <;> decide

lemma isGap_of_isLetter (h : isLetter c = true) : isGap c = false := by
  rw [Bool.eq_false_iff]
  intro hg
  have hw := isWordPart_of_isGap hg
  simp [isWordPart, h] at hw

lemma isDigit_of_isNumeric (h : isNumeric c = true) : Text.isDigit c = true := by
  have hc : '0' ≤ c ∧ c ≤ '9' := by simpa [isNumeric] using h
  have hn : c.toNat < 0x80 := by
    have := hc.2
    simp [Char.le_def, UInt32.le_iff_toNat_le] at this
    omega
  simp [Text.isDigit, Text.digit?, hn, hc]

end Classes

section Words

variable {c : Char} {cs rest : List Char}

lemma takeWord_spec (hc : isLetter c = true) (cs : List Char) :
    IsWord (takeWord (c :: cs)).1 ∧ c :: cs = (takeWord (c :: cs)).1 ++ (takeWord (c :: cs)).2 := by
  have hw : isWordPart c = true := by simp [isWordPart, hc]
  have hall : ∀ d ∈ cs.takeWhile isWordPart, isWordPart d = true :=
    fun _ hd => List.mem_takeWhile_imp hd
  have hsplit := List.takeWhile_append_dropWhile (p := isWordPart) (l := cs)
  unfold takeWord
  rw [List.dropWhile_cons_of_pos hw, List.takeWhile_cons_of_pos hw]
  split
  · rename_i rest heq
    refine ⟨.dollar hc hall, ?_⟩
    rw [heq] at hsplit
    simp [hsplit]
  · refine ⟨.plain hc hall, ?_⟩
    simp [hsplit]

lemma IsWord.head (h : IsWord cs) : ∃ c rest, cs = c :: rest ∧ isLetter c = true := by
  cases h with
  | plain hc => exact ⟨_, _, rfl, hc⟩
  | dollar hc => exact ⟨_, _, rfl, hc⟩

lemma takeWord_append (h : IsWord cs) (hr : Parted rest) : takeWord (cs ++ rest) = (cs, rest) := by
  have hg : ∀ c ∈ rest.head?, isWordPart c = false := fun c hc => (isWordPart_of_isGap (hr c hc)).1
  unfold takeWord
  cases h with
  | @plain c parts hc hp =>
    have hall : ∀ d ∈ c :: parts, isWordPart d = true :=
      List.forall_mem_cons.mpr ⟨by simp [isWordPart, hc], hp⟩
    obtain ⟨ht, hd⟩ := Text.span_append hall hg
    rw [ht, hd]
    split
    · exact absurd rfl (isWordPart_of_isGap (hr _ rfl)).2
    · rfl
  | @dollar c parts hc hp =>
    have hall : ∀ d ∈ c :: parts, isWordPart d = true :=
      List.forall_mem_cons.mpr ⟨by simp [isWordPart, hc], hp⟩
    obtain ⟨ht, hd⟩ := Text.span_append_cons (c := '$') hall (by decide) rest
    rw [List.append_assoc, List.singleton_append, ht, hd]
    rfl

end Words

section Numerals

variable {c : Char} {cs lexeme whole fraction rest : List Char}

namespace IsNumeral

lemma decimal (h : IsNumeral lexeme whole fraction) : Number.Decimal lexeme whole fraction := by
  cases h with
  | whole hd hne => exact .whole (fun c hc => isDigit_of_isNumeric (hd c hc)) hne
  | point hd hne he =>
    refine .point (fun c hc => isDigit_of_isNumeric (hd c hc))
      (fun c hc => isDigit_of_isNumeric (he c hc)) ?_
    simp [hne]

lemma lexeme_eq (h : IsNumeral lexeme whole fraction) :
    lexeme = whole ++ if fraction.isEmpty then [] else '.' :: fraction := by
  cases h with
  | whole => simp
  | point _ _ _ hne => simp [hne]

lemma head (h : IsNumeral lexeme whole fraction) : ∃ c rest, lexeme = c :: rest ∧ isNumeric c = true := by
  cases h with
  | whole hd hne =>
    obtain ⟨c, ds, rfl⟩ := List.exists_cons_of_ne_nil hne
    exact ⟨c, ds, rfl, hd c List.mem_cons_self⟩
  | point hd hne =>
    obtain ⟨c, ds, rfl⟩ := List.exists_cons_of_ne_nil hne
    exact ⟨c, _, rfl, hd c List.mem_cons_self⟩

lemma read?_eq (h : IsNumeral lexeme whole fraction) : Number.read? (.ofList lexeme) =
    some (Number.ofDigits false (whole.filterMap Text.digit?) (fraction.filterMap Text.digit?) 0) := by
  have hm : ∀ c ∈ ([] : List Char), Number.isMargin c = true := by simp
  simpa using h.decimal.read?_eq hm .none

end IsNumeral

lemma takeNumeral_spec (hc : isNumeric c = true) (cs : List Char) : ∃ lexeme whole fraction rest,
    takeNumeral (c :: cs) = (whole, fraction, rest) ∧ IsNumeral lexeme whole fraction ∧
      c :: cs = lexeme ++ rest := by
  have hw : ∀ d ∈ (c :: cs).takeWhile isNumeric, isNumeric d = true :=
    fun _ hd => List.mem_takeWhile_imp hd
  have hne : (c :: cs).takeWhile isNumeric ≠ [] := by simp [List.takeWhile_cons_of_pos hc]
  have hsplit := List.takeWhile_append_dropWhile (p := isNumeric) (l := c :: cs)
  unfold takeNumeral
  split
  · rename_i rest heq
    rw [heq] at hsplit
    split
    · exact ⟨_, _, _, _, rfl, .whole hw hne, hsplit.symm⟩
    · rename_i hf
      refine ⟨_, _, _, _, rfl, .point hw hne (fun _ hd => List.mem_takeWhile_imp hd) ?_, ?_⟩
      · simpa using hf
      · rw [List.append_assoc, List.cons_append, List.takeWhile_append_dropWhile, hsplit]
  · exact ⟨_, _, _, _, rfl, .whole hw hne, hsplit.symm⟩

lemma takeNumeral_append (h : IsNumeral lexeme whole fraction) (hr : Parted rest) :
    takeNumeral (lexeme ++ rest) = (whole, fraction, rest) := by
  have hg : ∀ c ∈ rest.head?, isNumeric c = false := fun c hc => (isNumeric_of_isGap (hr c hc)).1
  unfold takeNumeral
  cases h with
  | whole hd hne =>
    obtain ⟨ht, hw⟩ := Text.span_append hd hg
    rw [ht, hw]
    split
    · exact absurd rfl (isNumeric_of_isGap (hr _ rfl)).2
    · rfl
  | point hd hne he hne' =>
    obtain ⟨ht, hw⟩ := Text.span_append_cons (c := '.') hd (by decide) (fraction ++ rest)
    obtain ⟨ht', hw'⟩ := Text.span_append he hg
    rw [List.append_assoc, List.cons_append, ht, hw]
    simp [ht', hw', hne']

end Numerals

section Read

variable {c : Char} {cs rest : List Char} {kind : Kind} {shown : List Char} {value : Value}

lemma readText_spec (h : readText cs = .found kind shown value rest) :
    ∃ lexeme, '"' :: cs = lexeme ++ rest ∧ Spells lexeme kind shown value := by
  rw [readText] at h
  have hsplit := List.takeWhile_append_dropWhile (p := (· ≠ '"')) (l := cs)
  have hbody : '"' ∉ cs.takeWhile (· ≠ '"') := by
    intro hq
    simpa using List.mem_takeWhile_imp hq
  have hhead := List.head?_dropWhile_not (· ≠ '"') cs
  split at h
  · cases h
  · rename_i d rest' heq
    obtain ⟨rfl, rfl, rfl, rfl⟩ := Reading.found.inj h
    rw [heq] at hsplit hhead
    have hd : d = '"' := by simpa using hhead
    subst hd
    refine ⟨_, ?_, .text hbody⟩
    rw [List.append_assoc, List.singleton_append, List.cons_append, hsplit]

lemma readText_append {body : List Char} (h : '"' ∉ body) (rest : List Char) :
    readText (body ++ '"' :: rest) =
      .found .string ('"' :: body ++ ['"']) (.text (.ofList body)) rest := by
  have hb : ∀ c ∈ body, decide (c ≠ '"') = true := by
    intro c hc
    rw [decide_eq_true_eq]
    rintro rfl
    exact h hc
  obtain ⟨ht, hd⟩ := Text.span_append_cons (c := '"') hb (by decide) rest
  rw [readText, hd, ht]

lemma spells_of_read (h : read c cs = .found kind shown value rest) :
    ∃ lexeme, c :: cs = lexeme ++ rest ∧ Spells lexeme kind shown value := by
  rw [read] at h
  split_ifs at h with hc hc' hq
  · obtain ⟨rfl, rfl, rfl, rfl⟩ := Reading.found.inj h
    obtain ⟨hw, hs⟩ := takeWord_spec hc cs
    exact ⟨_, hs, .word hw (means_iff.mpr rfl)⟩
  · obtain ⟨lexeme, whole, fraction, rest', ht, hn, hs⟩ := takeNumeral_spec hc' cs
    rw [readNumeral, ht] at h
    obtain ⟨rfl, rfl, rfl, rfl⟩ := Reading.found.inj h
    rw [← hn.lexeme_eq]
    exact ⟨lexeme, hs, .numeral hn hn.read?_eq⟩
  · subst hq
    exact readText_spec h
  · split at h
    · rename_i k hm
      obtain ⟨rfl, rfl, rfl, rfl⟩ := Reading.found.inj h
      exact ⟨[c], rfl, .mark (isMark_iff.mpr hm)⟩
    · cases h

namespace Spells

variable {lexeme : List Char} (h : Spells lexeme kind shown value)

include h

lemma read_append (hr : Parted rest) : ∃ c cs, lexeme = c :: cs ∧ isGap c = false ∧
    read c (cs ++ rest) = .found kind shown value rest := by
  cases h with
  | word hw hm =>
    obtain ⟨c, cs, rfl, hc⟩ := hw.head
    refine ⟨c, cs, rfl, isGap_of_isLetter hc, ?_⟩
    rw [read, if_pos hc, readWord, ← List.cons_append, takeWord_append hw hr, ← means_iff.mp hm]
  | numeral hn hx =>
    obtain ⟨c, cs, rfl, hc⟩ := hn.head
    refine ⟨c, cs, rfl, isGap_of_isNumeric hc, ?_⟩
    obtain rfl := Option.some.inj (hx.symm.trans hn.read?_eq)
    rw [read, if_neg (by simp [isLetter_of_isNumeric hc]), if_pos hc, readNumeral,
      ← List.cons_append, takeNumeral_append hn hr]
    simp only [← hn.lexeme_eq]
  | @text body hb =>
    refine ⟨'"', body ++ ['"'], rfl, by decide, ?_⟩
    rw [read, if_neg (by decide), if_neg (by decide), if_pos rfl, List.append_assoc,
      List.singleton_append, readText_append hb]
  | mark hm =>
    obtain ⟨hg, hl, hn, hq⟩ := hm.classes
    refine ⟨_, [], rfl, hg, ?_⟩
    rw [read, if_neg (by simp [hl]), if_neg (by simp [hn]), if_neg hq, isMark_iff.mp hm]
    rfl

lemma length_eq : shown.length = lexeme.length := by
  cases h with
  | word => simp
  | numeral | text | mark => rfl

lemma kind_ne_eof : kind ≠ .eof := by
  cases h with
  | word _ hm =>
    rintro rfl
    exact absurd hm.mem (by decide)
  | numeral | text => decide
  | mark hm => exact hm.kind_ne_eof

end Spells

end Read

/-- What the scanner can meet from a column on, and what it makes of that. -/
inductive Scans (line : Int) : Int → List Char → Except Diagnostic (List Token) → Prop
  | blank {column : Int} {cs : List Char} : cs.dropWhile isGap = [] →
      Scans line column cs (.ok [endToken line (column + cs.length)])
  | fault {column : Int} {cs tail rest : List Char} {c : Char} {cause : Cause} :
      cs.dropWhile isGap = c :: tail → read c tail = .fault cause rest →
      Scans line column cs (.error (.of cause (some line)))
  | remark {column : Int} {cs tail shown rest : List Char} {c : Char} {value : Value} :
      cs.dropWhile isGap = c :: tail → read c tail = .found .rem shown value rest →
      Scans line column cs
        (.ok [⟨.rem, .ofList shown, value, line, column + (cs.takeWhile isGap).length⟩,
          comment line (column + (cs.takeWhile isGap).length + shown.length) rest,
          endToken line (column + (cs.takeWhile isGap).length + shown.length + rest.length)])
  | token {column : Int} {cs tail shown rest : List Char} {c : Char} {kind : Kind} {value : Value}
      {outcome : Except Diagnostic (List Token)} :
      cs.dropWhile isGap = c :: tail → read c tail = .found kind shown value rest → kind ≠ .rem →
      Scans line (column + (cs.takeWhile isGap).length + shown.length) rest outcome →
      Scans line column cs (outcome.map
        (⟨kind, .ofList shown, value, line, column + (cs.takeWhile isGap).length⟩ :: ·))

lemma scans_scanFrom (line column : Int) (cs : List Char) :
    Scans line column cs (scanFrom line column cs) := by
  fun_induction scanFrom line column cs with
  | case1 _ _ h => exact .blank h
  | case2 _ _ _ _ h _ _ hr => exact .fault h hr
  | case3 _ _ _ _ h _ _ _ _ _ hr => exact .remark h hr
  | case4 _ _ _ _ h _ _ _ _ _ hr _ _ hk ih => exact .token h hr hk ih

end LineBasic.Token
