import LineBasic.Proofs.Token.Stream

/-! Nothing of a line is lost when it is scanned, and nothing is made up: each token stands for a
slice of the line, and what lies between the slices is blank. -/

namespace LineBasic.Token

def start (t : Token) : Nat := (t.column - 1).toNat

def stop (t : Token) : Nat := t.start + t.lexeme.toList.length

def slice (source : List Char) (t : Token) : List Char :=
  (source.drop t.start).take t.lexeme.toList.length

/-- The lexeme is what stands in the line, in capitals if the token is a word. -/
def Shown (t : Token) (cs : List Char) : Prop :=
  t.lexeme.toList = if t.kind ∈ .identifier :: Kind.keywords then cs.map Char.toUpper else cs

/-- From a position on, the slices of the tokens follow each other with blanks between them. -/
structure Tiled (source : List Char) (n : Nat) (ts : List Token) : Prop where
  after : ∀ t ∈ ts, n < t.column
  shown : ∀ t ∈ ts, t.Shown (t.slice source)
  ordered : ts.Pairwise fun a b => a.stop ≤ b.start
  gaps : ∀ i c, n ≤ i → source[i]? = some c → (∀ t ∈ ts, ¬ (t.start ≤ i ∧ i < t.stop)) →
    c = ' ' ∨ c = '\t' ∨ c = '\r'

/-- What the tokens of a line stand for, apart from the end marker. -/
structure Meant (source : List Char) (line : Int) (ts : List Token) : Prop where
  place : ∀ t ∈ ts, t.kind ≠ .eof ∧ t.line = line
  numbers : ∀ t ∈ ts, t.kind = .number →
    ∃ x, Number.read? t.lexeme = some x ∧ t.literal = .number x
  texts : ∀ (front : List Token) (t : Token) (back : List Token), ts = front ++ t :: back →
    t.kind = .string → (∃ r, front.getLast? = some r ∧ r.kind = .rem) ∨
      ∃ body : String, t.lexeme = "\"" ++ body ++ "\"" ∧ t.literal = .text body
  remarks : ∀ (front : List Token) (t : Token) (back : List Token), ts = front ++ t :: back →
    t.kind = .rem → ∃ r, back = [r] ∧ r.kind = .string ∧
      r.lexeme = .ofList ((source.drop t.stop).dropWhile isGap) ∧
      r.literal = .text r.lexeme

lemma read_fault {c : Char} {cs rest : List Char} {cause : Cause} (h : read c cs = .fault cause rest) :
    cause.category = .lexical := by
  rw [read] at h
  split_ifs at h
  · cases h
  · cases h
  · rw [readText] at h
    split at h
    · cases h
      rfl
    · cases h
  · split at h
    · cases h
    · cases h
      rfl

namespace Spells

variable {lexeme shown : List Char} {kind : Kind} {value : Value} (h : Spells lexeme kind shown value)

include h

lemma shown_eq (line column : Int) : Shown ⟨kind, .ofList shown, value, line, column⟩ lexeme := by
  rw [Shown, String.toList_ofList]
  cases h with
  | word _ hm => rw [if_pos hm.mem]
  | numeral | text => rfl
  | mark hm => rw [if_neg hm.not_mem]

lemma number (hk : kind = .number) : ∃ x, Number.read? (.ofList shown) = some x ∧ value = .number x := by
  cases h with
  | word _ hm => exact absurd (hk ▸ hm.mem) (by decide)
  | numeral _ hx => exact ⟨_, hx, rfl⟩
  | text => cases hk
  | mark hm => exact absurd hk (Kind.ofMark?_not_literal (isMark_iff.mp hm)).2

lemma string (hk : kind = .string) :
    ∃ body, String.ofList shown = "\"" ++ body ++ "\"" ∧ value = .text body := by
  cases h with
  | word _ hm => exact absurd (hk ▸ hm.mem) (by decide)
  | numeral => cases hk
  | @text body => exact ⟨.ofList body, by simp [← String.toList_inj], rfl⟩
  | mark hm => exact absurd hk (Kind.ofMark?_not_literal (isMark_iff.mp hm)).1

end Spells

lemma start_eq {before gap : List Char} {t : Token} (hc : t.column = before.length + gap.length + 1) :
    t.start = (before ++ gap).length := by
  rw [start, hc, List.length_append]
  omega

lemma stop_eq {before gap lexeme : List Char} {t : Token} (hc : t.column = before.length + gap.length + 1)
    (hl : t.lexeme.toList.length = lexeme.length) : t.stop = (before ++ gap ++ lexeme).length := by
  rw [stop, start_eq hc, hl, ← List.length_append]

namespace Tiled

variable {source before gap lexeme rest : List Char} {t : Token} {ts : List Token}

lemma nil (hs : source = before ++ gap) (hg : ∀ c ∈ gap, isGap c = true) :
    Tiled source before.length [] := by
  refine ⟨by simp, by simp, .nil, ?_⟩
  intro i c hi hc _
  rw [hs, List.getElem?_append_right hi] at hc
  exact isGap_iff.mp (hg c (List.mem_of_getElem? hc))

lemma cons (hs : source = before ++ gap ++ lexeme ++ rest) (hg : ∀ c ∈ gap, isGap c = true)
    (hc : t.column = before.length + gap.length + 1) (hl : t.lexeme.toList.length = lexeme.length)
    (hshown : t.Shown lexeme) (h : Tiled source (before ++ gap ++ lexeme).length ts) :
    Tiled source before.length (t :: ts) := by
  have hstart := start_eq hc
  have hstop := stop_eq hc hl
  have hslice : t.slice source = lexeme := by
    rw [slice, hstart, hl, hs, List.append_assoc (before ++ gap), List.drop_left, List.take_left]
  refine ⟨?_, ?_, ?_, ?_⟩
  · refine List.forall_mem_cons.mpr ⟨by omega, fun u hu => ?_⟩
    have := h.after u hu
    simp only [List.length_append] at this
    omega
  · exact List.forall_mem_cons.mpr ⟨hslice ▸ hshown, h.shown⟩
  · refine List.pairwise_cons.mpr ⟨fun u hu => ?_, h.ordered⟩
    have := h.after u hu
    rw [hstop, start]
    omega
  · intro i c hi hic hout
    obtain ⟨hout, hrest⟩ := List.forall_mem_cons.mp hout
    rw [hstart, hstop, not_and, not_lt] at hout
    rcases Nat.lt_or_ge i (before ++ gap).length with hlt | hge
    · rw [hs, List.append_assoc (before ++ gap), List.getElem?_append_left hlt,
        List.getElem?_append_right hi] at hic
      exact isGap_iff.mp (hg c (List.mem_of_getElem? hic))
    · exact h.gaps i c (hout hge) hic hrest

end Tiled

namespace Meant

variable {source : List Char} {line : Int} {t : Token} {ts : List Token}

lemma nil : Meant source line [] :=
  ⟨by simp, by simp, by simp, by simp⟩

lemma cons {lexeme : List Char} (hs : Spells lexeme t.kind t.lexeme.toList t.literal)
    (hk : t.kind ≠ .rem) (hl : t.line = line) (h : Meant source line ts) :
    Meant source line (t :: ts) := by
  refine ⟨?_, ?_, ?_, ?_⟩
  · exact List.forall_mem_cons.mpr ⟨⟨hs.kind_ne_eof, hl⟩, h.place⟩
  · refine List.forall_mem_cons.mpr ⟨fun hn => ?_, h.numbers⟩
    simpa using hs.number hn
  · intro front u back he hu
    cases front with
    | nil =>
      obtain ⟨rfl, -⟩ := List.cons.inj he
      exact .inr (by simpa using hs.string hu)
    | cons v front =>
      rcases h.texts front u back (List.cons.inj he).2 hu with ⟨r, hr, hrem⟩ | hq
      · exact .inl ⟨r, by rw [List.getLast?_cons, hr]; rfl, hrem⟩
      · exact .inr hq
  · intro front u back he hu
    cases front with
    | nil =>
      obtain ⟨rfl, -⟩ := List.cons.inj he
      exact absurd hu hk
    | cons v front => exact h.remarks front u back (List.cons.inj he).2 hu

lemma remark {r c : Token} (hr : r.kind = .rem) (hc : c.kind = .string)
    (hl : r.line = line ∧ c.line = line) (ht : c.literal = .text c.lexeme)
    (hrest : c.lexeme = .ofList ((source.drop r.stop).dropWhile isGap)) :
    Meant source line [r, c] := by
  refine ⟨?_, ?_, ?_, ?_⟩
  · simp [hr, hc, hl]
  · simp [hr, hc]
  · intro front u back he hu
    rcases front with _ | ⟨v, _ | ⟨w, front⟩⟩
    · obtain ⟨rfl, -⟩ := List.cons.inj he
      cases hr.symm.trans hu
    · obtain ⟨rfl, -⟩ := List.cons.inj he
      exact .inl ⟨r, rfl, hr⟩
    · simp at he
  · intro front u back he hu
    rcases front with _ | ⟨v, _ | ⟨w, front⟩⟩
    · obtain ⟨rfl, rfl⟩ := List.cons.inj he
      exact ⟨c, rfl, hc, hrest, ht⟩
    · obtain ⟨rfl, -⟩ := List.cons.inj (List.cons.inj he).2
      cases hc.symm.trans hu
    · simp at he

end Meant

lemma source_of_read {source before cs tail shown rest : List Char} {c : Char} {kind : Kind}
    {value : Value} (hs : source = before ++ cs) (hd : cs.dropWhile isGap = c :: tail)
    (hr : read c tail = .found kind shown value rest) : ∃ lexeme, Spells lexeme kind shown value ∧
      source = before ++ cs.takeWhile isGap ++ lexeme ++ rest := by
  obtain ⟨lexeme, htail, hsp⟩ := spells_of_read hr
  refine ⟨lexeme, hsp, ?_⟩
  have hcs := List.takeWhile_append_dropWhile (p := isGap) (l := cs)
  rw [hd, htail] at hcs
  rw [hs, List.append_assoc, List.append_assoc, hcs]

lemma remark_accounted {source before gap lexeme shown rest : List Char} {line column : Int}
    {value : Value} (hs : source = before ++ gap ++ lexeme ++ rest) (hg : ∀ c ∈ gap, isGap c = true)
    (hsp : Spells lexeme .rem shown value) (hc : column = before.length + gap.length + 1) :
    Tiled source before.length [⟨.rem, .ofList shown, value, line, column⟩,
        comment line (column + shown.length) rest] ∧
      Meant source line [⟨.rem, .ofList shown, value, line, column⟩,
        comment line (column + shown.length) rest] := by
  have hlen := hsp.length_eq
  have hlen' : (String.ofList shown).toList.length = lexeme.length := by simpa using hlen
  have hg' : ∀ c ∈ rest.takeWhile isGap, isGap c = true := fun _ hc => List.mem_takeWhile_imp hc
  have hs' : source = before ++ gap ++ lexeme ++ rest.takeWhile isGap ++ rest.dropWhile isGap ++ [] := by
    rw [List.append_nil, List.append_assoc _ (rest.takeWhile isGap), List.takeWhile_append_dropWhile, hs]
  have hstop : stop ⟨.rem, .ofList shown, value, line, column⟩ = (before ++ gap ++ lexeme).length :=
    stop_eq hc hlen'
  refine ⟨.cons hs hg hc hlen' (hsp.shown_eq _ _) (.cons hs' hg' ?_ ?_ ?_ (.nil hs' (by simp))),
    .remark rfl rfl ⟨rfl, rfl⟩ rfl ?_⟩
  · simp only [comment, List.length_append]
    omega
  · simp [comment]
  · exact String.toList_ofList
  · rw [hstop, hs, List.drop_left]
    rfl

lemma account_of_scans {line column : Int} {source before cs : List Char}
    {outcome : Except Diagnostic (List Token)} (h : Scans line column cs outcome)
    (hs : source = before ++ cs) (hc : column = before.length + 1) :
    (∃ cause : Cause, cause.category = .lexical ∧ outcome = .error (.of cause (some line))) ∨
      ∃ ts, outcome = .ok (ts ++ [endToken line (source.length + 1)]) ∧
        Tiled source before.length ts ∧ Meant source line ts := by
  induction h generalizing before with
  | @blank column cs hd =>
    refine .inr ⟨[], ?_, .nil hs (List.dropWhile_eq_nil_iff.mp hd), .nil⟩
    have he : column + cs.length = (source.length : Int) + 1 := by
      rw [hs, hc, List.length_append]
      omega
    rw [he, List.nil_append]
  | fault hd hr => exact .inl ⟨_, read_fault hr, rfl⟩
  | @remark column cs tail shown rest c value hd hr =>
    obtain ⟨lexeme, hsp, hsrc⟩ := source_of_read hs hd hr
    have hlen := hsp.length_eq
    have hg : ∀ c ∈ cs.takeWhile isGap, isGap c = true := fun _ hc => List.mem_takeWhile_imp hc
    have hcol : column + (cs.takeWhile isGap).length = before.length + (cs.takeWhile isGap).length + 1 := by
      omega
    refine .inr ⟨[_, _], ?_, remark_accounted hsrc hg hsp hcol⟩
    have he : column + (cs.takeWhile isGap).length + shown.length + rest.length = (source.length : Int) + 1 := by
      rw [hsrc]
      simp only [List.length_append]
      omega
    rw [he]
    rfl
  | @token column cs tail shown rest c kind value outcome hd hr hk _ ih =>
    have hg : ∀ c ∈ cs.takeWhile isGap, isGap c = true := fun _ hc => List.mem_takeWhile_imp hc
    obtain ⟨lexeme, hsp, hsrc⟩ := source_of_read hs hd hr
    have hlen := hsp.length_eq
    have hsp' : Spells lexeme kind (String.ofList shown).toList value := by simpa using hsp
    have hcol : column + (cs.takeWhile isGap).length + shown.length =
        (before ++ cs.takeWhile isGap ++ lexeme).length + 1 := by
      simp only [List.length_append]
      omega
    rcases ih hsrc hcol with ⟨cause, hcause, rfl⟩ | ⟨ts, rfl, htile, hmean⟩
    · exact .inl ⟨cause, hcause, rfl⟩
    · refine .inr ⟨_ :: ts, rfl, .cons hsrc hg ?_ ?_ (hsp.shown_eq _ _) htile,
        .cons hsp' hk rfl hmean⟩
      · simp only
        omega
      · simpa using hlen

/-- The tokens of a line but for the end marker: they lie in it, and mean what they are read from. -/
structure Accounts (source : String) (line : Int) (ts : List Token) : Prop
    extends Tiled source.toList 0 ts, Meant source.toList line ts

/-- Reading a line character by character never runs past its end, and gives what scanning gives: a
lexical fault, or tokens that account for the whole line. -/
theorem scan_accounts (source : String) (line : Int) :
    (∀ outcome, Cursor.Yields (.start source line 0 1) outcome ↔
      outcome = (scan source line).mapError .told) ∧
    (∀ position number, ¬ Cursor.Yields (.start source line 0 1) (.error (.pastEnd position number))) ∧
    ((∃ cause : Cause, cause.category = .lexical ∧ scan source line = .error (.of cause (some line))) ∨
      ∃ ts, scan source line = .ok (ts ++ [endToken line (source.length + 1)]) ∧
        Accounts source line ts) := by
  have h := account_of_scans (scans_scanFrom line 1 source.toList) (List.nil_append _).symm rfl
  refine ⟨Cursor.yields_iff source line, ?_, ?_⟩
  · intro position number hy
    have he := (Cursor.yields_iff source line _).mp hy
    cases hs : scan source line with
    | error d =>
      rw [hs] at he
      cases he
    | ok ts =>
      rw [hs] at he
      cases he
  · rcases h with ⟨cause, hc, he⟩ | ⟨ts, he, ht, hm⟩
    · exact .inl ⟨cause, hc, he⟩
    · rw [String.length_toList] at he
      exact .inr ⟨ts, he, { toTiled := ht, toMeant := hm }⟩

end LineBasic.Token
