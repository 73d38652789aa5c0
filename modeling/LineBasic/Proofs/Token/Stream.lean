import LineBasic.Proofs.Token.Lexeme
import LineBasic.Token.Cursor

/-! Scanning one character at a time. Passing a character fails at the end of the line, and so each
loop looks at the next one first; the tokens are those of the scanner that takes whole lexemes. -/

namespace LineBasic.Token.Cursor

def remaining (c : Cursor) : Nat := (c.size - c.position).toNat

lemma remaining_lt {c after : Cursor} {ch : Char} (h : c.next = .ok (ch, after)) :
    after.remaining < c.remaining := by
  rw [next] at h
  split at h
  · cases h
  · rename_i he
    split at h
    · cases h
      simp only [atEnd, decide_eq_true_eq] at he
      simp only [remaining, forward, size] at he ⊢
      omega
    · cases h

/-- Passes the characters of a class. -/
def passWhile (p : Char → Bool) (c : Cursor) : Except Fault (List Char × Cursor) :=
  if (c.peek? 0).any p then
    match h : c.next with
    | .error fault => .error fault
    | .ok (ch, after) =>
      have := remaining_lt h
      (passWhile p after).map fun r => (ch :: r.1, r.2)
  else .ok ([], c)
termination_by c.remaining

def passIf (test : Bool) (c : Cursor) : Except Fault (List Char × Cursor) :=
  if test then c.next.map fun r => ([r.1], r.2) else .ok ([], c)

def passWord (c : Cursor) : Except Fault ((Kind × List Char × Value) × Cursor) := do
  let (word, c) ← c.passWhile isWordPart
  let (dollar, c) ← c.passIf (c.peek? 0 = some '$')
  let shown := (word ++ dollar).map Char.toUpper
  return ((.ofWord (.ofList shown), shown, .absent), c)

def passDigits (c : Cursor) : Except Fault (List Char × Cursor) := do
  let (whole, c) ← c.passWhile isNumeric
  -- A point belongs to the number only if a digit comes behind it.
  if c.peek? 0 = some '.' ∧ (c.peek? 1).any isNumeric = true then
    let (point, c) ← c.next
    let (fraction, c) ← c.passWhile isNumeric
    return (whole ++ point :: fraction, c)
  else return (whole, c)

def passNumeral (c : Cursor) : Except Fault ((Kind × List Char × Value) × Cursor) := do
  let (shown, c) ← c.passDigits
  match Number.read? (.ofList shown) with
  | some x => return ((.number, shown, .number x), c)
  | none => throw (.unreadableNumber (.ofList shown))

def passText (c : Cursor) : Except Fault ((Kind × List Char × Value) × Cursor) := do
  let (opening, c) ← c.next
  let (body, c) ← c.passWhile (· ≠ '"')
  if c.atEnd then throw (.told (.of .unterminatedString (some c.line)))
  else
    let (closing, c) ← c.next
    return ((.string, opening :: body ++ [closing], .text (.ofList body)), c)

def pass (c : Cursor) (ch : Char) : Except Fault ((Kind × List Char × Value) × Cursor) :=
  if isLetter ch then c.passWord
  else if isNumeric ch then c.passNumeral
  else if ch = '"' then c.passText
  else match Kind.ofMark? ch with
    | some kind => c.next.map fun r => ((kind, [r.1], .absent), r.2)
    | none => .error (.told (.of (.unexpectedCharacter ch) (some c.line)))

/-- Passes the next token and the gap before it. -/
def nextToken (c : Cursor) : Except Fault (Token × Cursor) := do
  let (_, c) ← c.passWhile isGap
  if c.inComment then
    let (text, after) := c.remainder
    return (⟨.string, text, .text text, c.line, c.column⟩, { after with inComment := false })
  match c.peek? 0 with
  | none => return (endToken c.line c.column, c)
  | some ch =>
    let ((kind, shown, value), after) ← c.pass ch
    return (⟨kind, .ofList shown, value, c.line, c.column⟩, { after with inComment := kind = .rem })

/-- The outcome of asking for tokens until the end marker or a fault. -/
inductive Yields : Cursor → Except Fault (List Token) → Prop
  | fault {c : Cursor} {fault : Fault} : c.nextToken = .error fault → Yields c (.error fault)
  | last {c after : Cursor} {t : Token} : c.nextToken = .ok (t, after) → t.kind = .eof →
      Yields c (.ok [t])
  | more {c after : Cursor} {t : Token} {outcome : Except Fault (List Token)} :
      c.nextToken = .ok (t, after) → t.kind ≠ .eof → Yields after outcome →
      Yields c (outcome.map (t :: ·))

lemma Yields.unique {c : Cursor} {a b : Except Fault (List Token)} (ha : Yields c a)
    (hb : Yields c b) : a = b := by
  induction ha generalizing b with
  | fault h => cases hb <;> simp_all
  | last h hk => cases hb <;> simp_all
  | more h hk _ ih =>
    cases hb with
    | fault h' => simp_all
    | last h' => simp_all
    | more h' hk' hb =>
      obtain ⟨rfl, rfl⟩ := Prod.mk.inj (Except.ok.inj (h.symm.trans h'))
      rw [ih hb]

section Forward

variable (c : Cursor) (a b : Int)

@[simp]
lemma forward_zero : c.forward 0 = c := by simp [forward]

@[simp]
lemma forward_forward : (c.forward a).forward b = c.forward (a + b) := by
  simp [forward, Int.add_assoc]

@[simp]
lemma forward_column : (c.forward a).column = c.column + a := rfl

@[simp]
lemma forward_inComment : (c.forward a).inComment = c.inComment := rfl

end Forward

/-- The place lies in the line, with these characters from it on. -/
structure At (c : Cursor) (cs : List Char) : Prop where
  position : 0 ≤ c.position
  rest : c.source.drop c.position.toNat = cs

namespace At

variable {c : Cursor} {ch : Char} {cs front back : List Char}

lemma rest_eq (h : At c cs) : c.rest = cs := by
  rw [Cursor.rest, index, if_neg (not_lt.mpr h.position), h.rest]

lemma peek?_eq (h : At c cs) (n : Nat) : c.peek? n = cs[n]? := by
  obtain ⟨k, hk⟩ := Int.eq_ofNat_of_zero_le h.position
  have hr := h.rest
  rw [hk, Int.toNat_natCast] at hr
  rw [peek?, hk, ← hr, List.getElem?_drop]
  rfl

lemma peek_head (h : At c cs) : c.peek? 0 = cs.head? := by
  rw [← Nat.cast_zero, h.peek?_eq, List.head?_eq_getElem?]

lemma atEnd_iff (h : At c cs) : c.atEnd = true ↔ cs = [] := by
  have hp := h.position
  rw [← h.rest, List.drop_eq_nil_iff, atEnd, size, decide_eq_true_eq]
  omega

lemma not_atEnd (h : At c (ch :: cs)) : ¬ c.atEnd = true := by simp [h.atEnd_iff]

lemma forward (h : At c (front ++ back)) : At (c.forward front.length) back := by
  have hp := h.position
  refine ⟨by simp only [Cursor.forward]; omega, ?_⟩
  have hn : (c.position + front.length).toNat = c.position.toNat + front.length := by omega
  simp only [Cursor.forward, hn, ← List.drop_drop, h.rest, List.drop_left]

lemma next_eq (h : At c (ch :: cs)) : c.next = .ok (ch, c.forward 1) := by
  have hc := h.peek?_eq 0
  rw [peek?, Nat.cast_zero, Int.add_zero] at hc
  rw [next, if_neg h.not_atEnd, index, if_neg (not_lt.mpr h.position), hc]
  rfl

lemma behind (h : At c (ch :: cs)) : At (c.forward 1) cs :=
  @At.forward c [ch] cs h

lemma passWhile_eq (p : Char → Bool) (h : At c cs) :
    c.passWhile p = .ok (cs.takeWhile p, c.forward (cs.takeWhile p).length) := by
  induction cs generalizing c with
  | nil =>
    rw [passWhile, h.peek_head]
    simp
  | cons ch cs ih =>
    rw [passWhile, h.peek_head]
    cases hp : p ch with
    | false => simp [hp]
    | true =>
      rw [if_pos (by simpa using hp)]
      split
      · rename_i heq
        cases h.next_eq.symm.trans heq
      · rename_i heq
        obtain ⟨rfl, rfl⟩ := Prod.mk.inj (Except.ok.inj (h.next_eq.symm.trans heq))
        rw [ih h.behind]
        simp [Except.map, hp, add_comm]

lemma dropWhile (p : Char → Bool) (h : At c cs) :
    At (c.forward (cs.takeWhile p).length) (cs.dropWhile p) := by
  rw [← List.takeWhile_append_dropWhile (p := p) (l := cs)] at h
  exact h.forward

lemma head?_ne_of_forall (h : ∀ rest, cs = ch :: rest → False) : cs.head? ≠ some ch := by
  intro hs
  obtain ⟨rest, hr⟩ := List.head?_eq_some_iff.mp hs
  exact h rest hr

lemma passWord_eq (h : At c cs) : c.passWord =
    .ok ((.ofWord (.ofList ((takeWord cs).1.map Char.toUpper)), (takeWord cs).1.map Char.toUpper,
      .absent), c.forward (takeWord cs).1.length) := by
  have hd := h.dropWhile isWordPart
  have hk := hd.peek_head
  unfold takeWord
  split
  · rename_i rest heq
    rw [heq] at hd hk
    simp [passWord, h.passWhile_eq, hk, passIf, hd.next_eq, bind, Except.bind, pure, Except.pure,
      Except.map]
  · rename_i heq
    simp [passWord, h.passWhile_eq, hk, passIf, head?_ne_of_forall heq, bind, Except.bind, pure, Except.pure]

lemma passDigits_eq (h : At c cs) {whole fraction rest : List Char}
    (ht : takeNumeral cs = (whole, fraction, rest)) :
    c.passDigits = .ok (whole ++ if fraction.isEmpty then [] else '.' :: fraction,
      c.forward (whole ++ if fraction.isEmpty then [] else '.' :: fraction).length) := by
  have hd := h.dropWhile isNumeric
  have hk := hd.peek_head
  have hk' := hd.peek?_eq 1
  rw [Nat.cast_one] at hk'
  unfold takeNumeral at ht
  split at ht
  · rename_i tail heq
    rw [heq] at hd hk hk'
    have hany : tail[0]?.any isNumeric = !(tail.takeWhile isNumeric).isEmpty := by
      cases tail with
      | nil => rfl
      | cons d tail => cases hc : isNumeric d <;> simp [hc]
    split at ht
    · rename_i hf
      cases ht
      simp [passDigits, h.passWhile_eq, hk, hk', hany, hf, bind, Except.bind, pure, Except.pure]
    · rename_i hf
      cases ht
      have hb := hd.behind
      rw [forward_forward] at hb
      simp [passDigits, h.passWhile_eq, hk, hk', hany, hf, hd.next_eq, hb.passWhile_eq, bind,
        Except.bind, pure, Except.pure, add_comm, add_left_comm]
  · rename_i heq
    cases ht
    simp [passDigits, h.passWhile_eq, hk, head?_ne_of_forall heq, bind, Except.bind, pure, Except.pure]

lemma passNumeral_eq (h : At c (ch :: cs)) (hc : isNumeric ch = true) : ∃ lexeme x rest,
    readNumeral (ch :: cs) = .found .number lexeme (.number x) rest ∧
      c.passNumeral = .ok ((.number, lexeme, .number x), c.forward lexeme.length) := by
  obtain ⟨lexeme, whole, fraction, rest, ht, hn, hs⟩ := takeNumeral_spec hc cs
  have hp := h.passDigits_eq ht
  rw [← hn.lexeme_eq] at hp
  refine ⟨lexeme, Number.ofDigits false (whole.filterMap Text.digit?) (fraction.filterMap Text.digit?) 0,
    rest, ?_, ?_⟩
  · rw [readNumeral, ht]
    simp only [← hn.lexeme_eq]
  · simp [passNumeral, hp, hn.read?_eq, bind, Except.bind, pure, Except.pure]

lemma passText_eq (h : At c ('"' :: cs)) : c.passText = match readText cs with
    | .fault cause _ => .error (.told (.of cause (some c.line)))
    | .found kind shown value _ => .ok ((kind, shown, value), c.forward shown.length) := by
  have hw := h.behind.passWhile_eq (· ≠ '"')
  have hd := h.behind.dropWhile (· ≠ '"')
  have hhead := List.head?_dropWhile_not (· ≠ '"') cs
  rw [readText]
  simp only [passText, h.next_eq, hw, bind, Except.bind, pure, Except.pure]
  generalize cs.takeWhile (· ≠ '"') = body at *
  cases hq : cs.dropWhile (· ≠ '"') with
  | nil =>
    rw [hq] at hd
    rw [if_pos (hd.atEnd_iff.mpr rfl)]
    rfl
  | cons d rest =>
    rw [hq] at hd hhead
    have hd' : d = '"' := by simpa using hhead
    subst hd'
    rw [if_neg hd.not_atEnd, hd.next_eq]
    simp [add_comm]

lemma pass_eq (h : At c (ch :: cs)) : c.pass ch = match read ch cs with
    | .fault cause _ => .error (.told (.of cause (some c.line)))
    | .found kind shown value _ => .ok ((kind, shown, value), c.forward shown.length) := by
  rw [pass, read]
  split_ifs with hl hn hq
  · rw [h.passWord_eq, readWord]
    simp
  · obtain ⟨lexeme, x, rest, hr, hp⟩ := h.passNumeral_eq hn
    rw [hr, hp]
  · subst hq
    exact h.passText_eq
  · cases Kind.ofMark? ch with
    | none => rfl
    | some kind => simp [h.next_eq, Except.map]

lemma skipGap_eq (h : At c cs) : c.skipGap = .ok (c.forward (cs.takeWhile isGap).length) := by
  rw [skipGap, index, if_neg (not_lt.mpr h.position), if_neg (not_lt.mpr h.position)]
  simp only [if_neg (not_lt.mpr h.position), h.rest_eq]

/-- Going character by character is reading tokens off the rest of the line. -/
lemma nextToken_eq (h : At c cs) : c.nextToken = c.token.1.map (·, c.token.2) := by
  have hd := h.dropWhile isGap
  simp only [nextToken, token, h.skipGap_eq, h.passWhile_eq, bind, Except.bind, pure, Except.pure]
  generalize c.forward (cs.takeWhile isGap).length = d at *
  rw [tokenHere, hd.rest_eq, hd.peek_head]
  split
  · rfl
  · cases hc : cs.dropWhile isGap with
    | nil => rfl
    | cons ch tail =>
      rw [hc] at hd
      simp only [List.head?_cons, hd.pass_eq]
      cases read ch tail with
      | fault => rfl
      | found => rfl

end At

structure Behind (c after : Cursor) (length : Int) (rest : List Char) (inComment : Bool) : Prop where
  at_rest : At after rest
  line : after.line = c.line
  column : after.column = c.column + length
  inComment : after.inComment = inComment

section Steps

variable {c : Cursor} {cs tail shown rest : List Char} {ch : Char} {kind : Kind} {value : Value}
  (h : At c cs)

include h

lemma nextToken_end (hc : c.inComment = false) (hd : cs.dropWhile isGap = []) :
    ∃ after, c.nextToken = .ok (endToken c.line (c.column + cs.length), after) := by
  have hg := h.dropWhile isGap
  have hl : cs.takeWhile isGap = cs := by
    simpa [hd] using List.takeWhile_append_dropWhile (p := isGap) (l := cs)
  rw [hd, hl] at hg
  rw [h.nextToken_eq, token, h.skipGap_eq, hl]
  simp only [tokenHere, forward_inComment, hc, hg.rest_eq]
  exact ⟨_, rfl⟩

lemma nextToken_fault {cause : Cause} (hc : c.inComment = false) (hd : cs.dropWhile isGap = ch :: tail)
    (hr : read ch tail = .fault cause rest) :
    c.nextToken = .error (.told (.of cause (some c.line))) := by
  have hg := h.dropWhile isGap
  rw [hd] at hg
  rw [h.nextToken_eq, token, h.skipGap_eq]
  simp only [tokenHere, forward_inComment, hc, hg.rest_eq, hr]
  rfl

lemma nextToken_found (hc : c.inComment = false) (hd : cs.dropWhile isGap = ch :: tail)
    (hr : read ch tail = .found kind shown value rest) : ∃ after, c.nextToken =
      .ok (⟨kind, .ofList shown, value, c.line, c.column + (cs.takeWhile isGap).length⟩, after) ∧
        Behind c after ((cs.takeWhile isGap).length + shown.length) rest (kind = .rem) := by
  have hg := h.dropWhile isGap
  rw [hd] at hg
  obtain ⟨lexeme, hs, hsp⟩ := spells_of_read hr
  rw [h.nextToken_eq, token, h.skipGap_eq]
  simp only [tokenHere, forward_inComment, hc, hg.rest_eq, hr]
  refine ⟨_, rfl, ?_, rfl, ?_, rfl⟩
  · rw [hs] at hg
    have hf := hg.forward
    rw [← hsp.length_eq] at hf
    exact ⟨hf.position, hf.rest⟩
  · simp

lemma nextToken_comment (hc : c.inComment = true) : ∃ after,
    c.nextToken = .ok (comment c.line c.column cs, after) ∧ Behind c after cs.length [] false := by
  have hg := h.dropWhile isGap
  have hl := congrArg List.length (List.takeWhile_append_dropWhile (p := isGap) (l := cs))
  rw [List.length_append] at hl
  rw [h.nextToken_eq, token, h.skipGap_eq]
  simp only [tokenHere, remainder, forward_inComment, hc, hg.rest_eq, if_true]
  refine ⟨_, rfl, ⟨?_, ?_⟩, rfl, ?_, rfl⟩
  · simp [size]
  · simp [size, forward]
  · simp only [forward_column]
    omega

omit h in
lemma yields_of_scans {line column : Int} {outcome : Except Diagnostic (List Token)}
    (hs : Scans line column cs outcome) (h : At c cs) (hc : c.inComment = false)
    (hl : c.line = line) (hcol : c.column = column) : Yields c (outcome.mapError .told) := by
  induction hs generalizing c with
  | blank hd =>
    subst hl hcol
    obtain ⟨after, ht⟩ := nextToken_end h hc hd
    exact .last ht rfl
  | fault hd hr =>
    subst hl hcol
    exact .fault (nextToken_fault h hc hd hr)
  | remark hd hr =>
    -- `REM` puts the cursor into its comment, which may be empty, and the line ends behind that.
    subst hl hcol
    obtain ⟨after, ht, hb⟩ := nextToken_found h hc hd hr
    obtain ⟨after', ht', hb'⟩ := nextToken_comment hb.at_rest hb.inComment
    obtain ⟨last, hlast⟩ := nextToken_end hb'.at_rest hb'.inComment rfl
    rw [hb.line, hb.column, ← add_assoc] at ht'
    rw [hb'.line, hb'.column, hb.line, hb.column, ← add_assoc, List.length_nil, Nat.cast_zero,
      add_zero] at hlast
    exact .more ht (by simp) (.more ht' (by simp [comment]) (.last hlast rfl))
  | @token column cs tail shown rest ch kind value outcome hd hr hk _ ih =>
    subst hl hcol
    obtain ⟨after, ht, hb⟩ := nextToken_found h hc hd hr
    obtain ⟨lexeme, -, hs⟩ := spells_of_read hr
    have hrest := ih hb.at_rest (by simpa [hk] using hb.inComment) hb.line
      (by rw [hb.column, add_assoc])
    have hy := Yields.more ht hs.kind_ne_eof hrest
    cases outcome with
    | error | ok => exact hy

end Steps

theorem yields_iff (source : String) (line : Int) (outcome : Except Fault (List Token)) :
    Yields (.start source line 0 1) outcome ↔ outcome = (scan source line).mapError .told := by
  have h : At (.start source line 0 1) source.toList := ⟨le_refl _, rfl⟩
  have hy := yields_of_scans (scans_scanFrom line 1 source.toList) h rfl rfl rfl
  refine ⟨fun ho => ho.unique hy, ?_⟩
  rintro rfl
  exact hy

end LineBasic.Token.Cursor
