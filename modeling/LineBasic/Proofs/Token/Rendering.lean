import LineBasic.Proofs.Token.Lexeme

/-! Scanning a line that was laid out from lexemes gives these lexemes back, one token each. -/

namespace LineBasic.Token

inductive IsLexeme : List Char → Prop
  | word {cs : List Char} : IsWord cs → cs.map Char.toUpper ≠ ['R', 'E', 'M'] → IsLexeme cs
  | numeral {cs whole fraction : List Char} : IsNumeral cs whole fraction → IsLexeme cs
  | text {body : List Char} : '"' ∉ body → IsLexeme ('"' :: body ++ ['"'])
  | mark {c : Char} {kind : Kind} : IsMark c kind → IsLexeme [c]

structure Remark where
  word : List Char
  blanks : List Char
  comment : List Char
  word_upper : word.map Char.toUpper = ['R', 'E', 'M']
  blanks_gap : ∀ c ∈ blanks, isGap c = true
  blanks_ne : blanks ≠ []
  comment_head : ∀ c ∈ comment.head?, isGap c = false

/-- Lexemes with the gaps around them, and a remark that may end the line. What has something
behind it is parted from that by a gap. -/
structure Layout where
  margin : List Char
  body : List (List Char × List Char)
  remark : Option Remark
  margin_gap : ∀ c ∈ margin, isGap c = true
  lexeme : ∀ p ∈ body, IsLexeme p.1
  gap : ∀ p ∈ body, ∀ c ∈ p.2, isGap c = true
  apart : ∀ front p back, body = front ++ p :: back → back ≠ [] ∨ remark.isSome = true → p.2 ≠ []

def Remark.text (r : Remark) : List Char := r.word ++ r.blanks ++ r.comment

namespace Layout

def text (l : Layout) : List Char :=
  l.margin ++ l.body.flatMap (fun p => p.1 ++ p.2) ++ (l.remark.map Remark.text).getD []

def source (l : Layout) : String := .ofList l.text

def behind (l : Layout) {p : List Char × List Char} {ps : List (List Char × List Char)}
    (h : l.body = p :: ps) : Layout where
  margin := p.2
  body := ps
  remark := l.remark
  margin_gap := l.gap p (h ▸ List.mem_cons_self)
  lexeme q hq := l.lexeme q (h ▸ List.mem_cons_of_mem p hq)
  gap q hq := l.gap q (h ▸ List.mem_cons_of_mem p hq)
  apart front q back hs := l.apart (p :: front) q back (by rw [h, hs, List.cons_append])

end Layout

def Shows (line : Int) (p : List Char × List Char) (t : Token) : Prop :=
  t.line = line ∧ Spells p.1 t.kind t.lexeme.toList t.literal

/-- The tokens that end a line: `REM` and its comment, if there is one, and the end marker. -/
inductive Closes (line : Int) : Option Remark → List Token → Prop
  | bare {column : Int} : Closes line none [endToken line column]
  | remark {r : Remark} {a b column : Int} : Closes line (some r)
      [⟨.rem, "REM", .absent, line, a⟩,
        ⟨.string, .ofList r.comment, .text (.ofList r.comment), line, b⟩, endToken line column]

section Words

lemma isLetter_of_toUpper {c : Char} (h : isLetter c.toUpper = true) : isLetter c = true := by
  rw [Char.toUpper] at h
  split at h
  · rename_i hc
    simpa [isLetter, Char.le_def] using .inl (.inl hc)
  · exact h

lemma IsLexeme.spells {cs : List Char} (h : IsLexeme cs) :
    ∃ kind shown value, Spells cs kind shown value ∧ kind ≠ .rem := by
  cases h with
  | word hw hr => exact ⟨_, _, _, .word hw (means_iff.mpr rfl), fun hk => hr (Means.rem (means_iff.mpr hk))⟩
  | numeral hn => exact ⟨_, _, _, .numeral hn hn.read?_eq, by decide⟩
  | text hb => exact ⟨_, _, _, .text hb, by decide⟩
  | mark hm =>
    refine ⟨_, _, _, .mark hm, ?_⟩
    rintro rfl
    exact hm.not_mem (by decide)

lemma Remark.spells (r : Remark) : Spells r.word .rem ['R', 'E', 'M'] .absent := by
  have hrem : ∀ d ∈ ['R', 'E', 'M'], isLetter d = true := by simp [isLetter]
  have hall : ∀ c ∈ r.word, isLetter c = true := by
    intro c hc
    exact isLetter_of_toUpper (hrem _ (r.word_upper ▸ List.mem_map_of_mem hc))
  have hw : IsWord r.word := by
    cases hr : r.word with
    | nil => simpa [hr] using r.word_upper
    | cons c cs =>
      rw [hr] at hall
      exact .plain (hall c List.mem_cons_self) fun d hd => by
        simp [isWordPart, hall d (List.mem_cons_of_mem c hd)]
  have hm : Means (r.word.map Char.toUpper) .rem := by
    rw [r.word_upper]
    exact .keyword .rem
  have hs := Spells.word hw hm
  rwa [r.word_upper] at hs

end Words

section ScanFrom

variable (line column : Int) {gap lexeme shown rest : List Char} {kind : Kind} {value : Value}

lemma scanFrom_lexeme (hg : ∀ c ∈ gap, isGap c = true) (hs : Spells lexeme kind shown value)
    (hk : kind ≠ .rem) (hr : Parted rest) : ∃ column',
      scanFrom line column (gap ++ lexeme ++ rest) = (scanFrom line (column' + shown.length) rest).map
        (⟨kind, .ofList shown, value, line, column'⟩ :: ·) := by
  obtain ⟨c, cs, rfl, hc, hread⟩ := hs.read_append hr
  rw [List.append_assoc, List.cons_append]
  exact scanFrom_found line column (Text.span_append_cons hg hc _).2 hread hk

lemma scanFrom_remark (hg : ∀ c ∈ gap, isGap c = true) (hs : Spells lexeme .rem shown value)
    (hr : Parted rest) : ∃ a b last, scanFrom line column (gap ++ lexeme ++ rest) =
      .ok [⟨.rem, .ofList shown, value, line, a⟩, comment line b rest, endToken line last] := by
  obtain ⟨c, cs, rfl, hc, hread⟩ := hs.read_append hr
  have hd := (Text.span_append_cons hg hc (cs ++ rest)).2
  rw [List.append_assoc, List.cons_append, scanFrom]
  split
  · rename_i heq
    cases hd.symm.trans heq
  · rename_i heq
    obtain ⟨rfl, rfl⟩ := List.cons.inj (hd.symm.trans heq)
    split
    · rename_i heq'
      cases hread.symm.trans heq'
    · rename_i heq'
      obtain ⟨rfl, rfl, rfl, rfl⟩ := Reading.found.inj (hread.symm.trans heq')
      exact ⟨_, _, _, if_pos rfl⟩

end ScanFrom

namespace Remark

variable (r : Remark)

lemma parted : Parted (r.blanks ++ r.comment) := by
  obtain ⟨c, cs, hc⟩ := List.exists_cons_of_ne_nil r.blanks_ne
  have hg := r.blanks_gap c (hc ▸ List.mem_cons_self)
  simpa [Parted, hc] using hg

lemma comment_eq (line column : Int) : Token.comment line column (r.blanks ++ r.comment) =
    ⟨.string, .ofList r.comment, .text (.ofList r.comment), line, column + r.blanks.length⟩ := by
  obtain ⟨ht, hd⟩ := Text.span_append r.blanks_gap r.comment_head
  rw [Token.comment, ht, hd]

end Remark

namespace Layout

variable (l : Layout) {p : List Char × List Char} {ps : List (List Char × List Char)}

lemma text_of_body (h : l.body = p :: ps) : l.text = l.margin ++ p.1 ++ (l.behind h).text := by
  simp [text, behind, h]

lemma parted_behind (h : l.body = p :: ps) : Parted (l.behind h).text := by
  have hgap := l.gap p (h ▸ List.mem_cons_self)
  cases hm : p.2 with
  | cons c cs =>
    rw [hm] at hgap
    simpa [Parted, text, behind, hm] using hgap c List.mem_cons_self
  | nil =>
    -- Only the last lexeme of a line without a remark may go without a gap.
    have hlast : ¬ (ps ≠ [] ∨ l.remark.isSome = true) := fun hx => l.apart [] p ps h hx hm
    simp only [not_or, not_not, Bool.not_eq_true, Option.isSome_eq_false_iff, Option.isNone_iff_eq_none] at hlast
    simp [Parted, text, behind, hm, hlast]

lemma scanFrom_text (line column : Int) : ∃ ts closing,
    scanFrom line column l.text = .ok (ts ++ closing) ∧ List.Forall₂ (Shows line) l.body ts ∧
      Closes line l.remark closing := by
  induction hb : l.body generalizing l column with
  | nil =>
    cases hr : l.remark with
    | none =>
      have ht : l.text = l.margin := by simp [text, hb, hr]
      rw [ht, scanFrom_end line column (List.dropWhile_eq_nil_iff.mpr l.margin_gap)]
      exact ⟨[], _, rfl, .nil, .bare⟩
    | some r =>
      have ht : l.text = l.margin ++ r.word ++ (r.blanks ++ r.comment) := by
        simp [text, hb, hr, Remark.text]
      obtain ⟨a, b, last, hscan⟩ := scanFrom_remark line column l.margin_gap r.spells r.parted
      rw [ht, hscan, r.comment_eq]
      exact ⟨[], _, rfl, .nil, .remark⟩
  | cons p ps ih =>
    obtain ⟨kind, shown, value, hs, hk⟩ := (l.lexeme p (hb ▸ List.mem_cons_self)).spells
    obtain ⟨a, ha⟩ := scanFrom_lexeme line column l.margin_gap hs hk (l.parted_behind hb)
    obtain ⟨ts, closing, hrest, hshow, hclose⟩ := ih (l.behind hb) (a + shown.length) rfl
    rw [l.text_of_body hb, ha, hrest]
    refine ⟨⟨kind, .ofList shown, value, line, a⟩ :: ts, closing, rfl, .cons ⟨rfl, ?_⟩ hshow, hclose⟩
    rwa [String.toList_ofList]

end Layout

/-- A line that is laid out from lexemes is scanned into one token each, of the kind, the text and
the meaning that the lexeme spells, and then into what ends the line. -/
theorem scan_layout (l : Layout) (line : Int) : ∃ ts closing,
    scan l.source line = .ok (ts ++ closing) ∧ List.Forall₂ (Shows line) l.body ts ∧
      Closes line l.remark closing := by
  rw [scan, Layout.source, String.toList_ofList]
  exact l.scanFrom_text line 1

def assorted : Layout where
  margin := [' ']
  body := [(['l', 'e', 't'], [' ']), (['a', '$'], ['\t']), (['='], [' ']), (['('], [' ']),
    (['"', 'a', ' ', 'b', '"'], [' ', ' ']), (['+'], [' ']), (['1', '.', '5'], [' ']), ([')'], [' '])]
  remark := some
    { word := ['r', 'e', 'm']
      blanks := [' ', ' ']
      comment := ['d', 'o', 'n', 'e', ' ']
      word_upper := by decide
      blanks_gap := by simp [isGap]
      blanks_ne := by simp
      comment_head := by simp [isGap] }
  margin_gap := by simp [isGap]
  lexeme := by
    simp only [List.forall_mem_cons, List.not_mem_nil, IsEmpty.forall_iff, implies_true, and_true]
    refine ⟨?_, ?_, .mark .equal, .mark .leftParen, @IsLexeme.text ['a', ' ', 'b'] (by simp),
      .mark .plus, ?_, .mark .rightParen⟩
    · exact .word (.plain (by decide) (by simp [isWordPart, isLetter])) (by decide)
    · exact .word (@IsWord.dollar 'a' [] (by decide) (by simp)) (by decide)
    · exact .numeral (@IsNumeral.point ['1'] ['5'] (by simp [isNumeric]) (by simp)
        (by simp [isNumeric]) (by simp))
  gap := by simp [isGap]
  apart := by
    intro front p back hs _
    have hp : ∀ q ∈ front ++ p :: back, q.2 ≠ [] := by simp [← hs]
    exact hp p (by simp)

theorem assorted_scanned : assorted.source = " let a$\t= ( \"a b\"  + 1.5 ) rem  done " ∧ ∃ ts closing,
    scan assorted.source 10 = .ok (ts ++ closing) ∧ List.Forall₂ (Shows 10) assorted.body ts ∧
      Closes 10 assorted.remark closing ∧ (ts ++ closing).map (·.kind) = [.let, .identifier, .equal,
        .leftParen, .string, .plus, .number, .rightParen, .rem, .string, .eof] := by
  obtain ⟨ts, closing, hs, hb, hc⟩ := scan_layout assorted 10
  refine ⟨by decide +kernel, ts, closing, hs, hb, hc, ?_⟩
  have hk : (match scan assorted.source 10 with
      | .ok ts => ts.map (·.kind)
      | .error _ => []) = [.let, .identifier, .equal, .leftParen, .string, .plus, .number, .rightParen,
        .rem, .string, .eof] := by decide +kernel
  rwa [hs] at hk

end LineBasic.Token
