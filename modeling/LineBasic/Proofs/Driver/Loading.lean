import LineBasic.Application
import LineBasic.Proofs.Session.Edits
import LineBasic.Proofs.Text.Utf8

/-! Loading. A program file is loaded line by line up to the first line that has no positive number or no
code. The user is told of that line, unless its number has too many digits to be read, or the bytes of the
file spell no text in the first place. -/

namespace LineBasic

open Text (isDigit isBlank trim)

namespace Session

/-- A line with a positive number and a code, in digits of any script and with any blanks around them and
in between. -/
def Bears (line : String) (n : Int) (code : String) : Prop :=
  ∃ ds gap : List Char, (trim line).toList = ds ++ (gap ++ code.toList) ∧
    (∀ c ∈ ds, isDigit c = true) ∧ (∀ c ∈ gap, isBlank c = true) ∧
    (∀ c ∈ (gap ++ code.toList).head?, isDigit c = false) ∧ code ≠ "" ∧ Text.Trimmed code.toList ∧
    n = Text.natOfDigits (ds.filterMap Text.digit?) ∧ 0 < n

def LastBearing (lines : List String) (n : Int) (code : String) : Prop :=
  ∃ front line rest, lines = front ++ line :: rest ∧ Bears line n code ∧ ∀ l ∈ rest, ∀ c, ¬ Bears l n c

/-- More digits than are read, and something behind them. -/
def Stuck (line : String) : Prop := Overlong (trim line) ∧ ∃ c ∈ (trim line).toList, isDigit c = false

def Loads (line : String) : Prop := trim line = "" ∨ ∃ n code, Writes line n code ∧ code ≠ ""

section Bears

variable {line code code' : String} {n m : Int}

lemma writes_iff (hc : code ≠ "") : Writes line n code ↔ Bears line n code ∧ ¬ Overlong (trim line) := by
  constructor
  · rintro ⟨ds, gap, ht, -, hd, hg, hm, hcode, hl, hn, hpos⟩
    refine ⟨⟨ds, gap, ht, hd, hg, hm, hc, hcode, hn, hpos⟩, ?_⟩
    rw [Overlong, ht, (Text.span_append hd hm).1]
    omega
  · rintro ⟨⟨ds, gap, ht, hd, hg, hm, -, hcode, hn, hpos⟩, ho⟩
    rw [Overlong, ht, (Text.span_append hd hm).1] at ho
    refine ⟨ds, gap, ht, ?_, hd, hg, hm, hcode, by omega, hn, hpos⟩
    rintro rfl
    simp [hn, Text.natOfDigits_nil] at hpos

lemma Bears.stuck (h : Bears line n code) (ho : Overlong (trim line)) : Stuck line := by
  obtain ⟨ds, gap, ht, -, -, hm, hc, -⟩ := h
  obtain ⟨c, cs, hcs⟩ := List.exists_cons_of_ne_nil (l := gap ++ code.toList) (by simp [hc])
  rw [hcs] at ht hm
  exact ⟨ho, c, by simp [ht], hm c rfl⟩

lemma Stuck.not_loads (h : Stuck line) : ¬ Loads line := by
  rintro (hb | ⟨n, code, hw, hc⟩)
  · have ho := h.1
    rw [hb] at ho
    simp [Overlong] at ho
  · exact ((writes_iff hc).mp hw).2 h.1

lemma Bears.code_ne (h : Bears line n code) : code ≠ "" := by
  obtain ⟨ds, gap, -, -, -, -, hc, -⟩ := h
  exact hc

lemma Bears.written (h : Bears line n code) (ho : ¬ Overlong (trim line)) :
    written (trim line) = [.line n code] := ((writes_iff h.code_ne).mpr ⟨h, ho⟩).written

lemma lastBearing_concat (lines : List String) (line : String) :
    LastBearing (lines ++ [line]) n code ↔
      Bears line n code ∨ (∀ c, ¬ Bears line n c) ∧ LastBearing lines n code := by
  constructor
  · rintro ⟨front, l, rest, he, hb, hlast⟩
    rcases List.eq_nil_or_concat rest with rfl | ⟨rest, l', rfl⟩
    · obtain ⟨-, hl⟩ := List.append_inj' he rfl
      obtain rfl := List.singleton_inj.mp hl
      exact .inl hb
    · rw [List.concat_eq_append, ← List.cons_append, ← List.append_assoc] at he
      obtain ⟨rfl, hl⟩ := List.append_inj' he rfl
      obtain rfl := List.singleton_inj.mp hl
      exact .inr ⟨hlast line (by simp), front, l, rest, rfl, hb, fun l hl => hlast l (by simp [hl])⟩
  · rintro (hb | ⟨hn, front, l, rest, rfl, hb, hlast⟩)
    · exact ⟨lines, line, [], rfl, hb, by simp⟩
    · refine ⟨front, l, rest ++ [line], by simp, hb, fun l' hl' => ?_⟩
      rcases List.mem_append.mp hl' with hl' | hl'
      · exact hlast l' hl'
      · rwa [List.mem_singleton.mp hl']

end Bears

section Loop

variable {s t : Session} {line text : String} {lines : List String} {fault : Fault} {n : Int} {code : String}

lemma stuck_iff {digits : List Nat} {body : String}
    (hl : Program.splitLine? (trim line) = some (digits, body)) :
    Stuck line ↔ Fault.digitLimit < digits.length ∧ trim body ≠ "" := by
  rw [Stuck, overlong_iff hl]
  refine and_congr_right fun _ => ?_
  -- A trimmed line has no blank at its end, so its digits are all of it or a body follows.
  have ht := Text.trimmed_trim line
  simp only [Program.splitLine?] at hl
  split_ifs at hl
  generalize (trim line).toList = cs at *
  obtain ⟨-, rfl⟩ := Prod.mk.inj (Option.some.inj hl)
  have hb : Text.Trimmed ((cs.dropWhile isDigit).dropWhile isBlank) :=
    ht.of_suffix ((List.dropWhile_suffix _).trans (List.dropWhile_suffix _)) fun c => Text.head?_dropWhile
  rw [Text.trim_of_trimmed (by simpa using hb), ne_eq, String.ofList_eq_empty_iff, List.dropWhile_eq_nil_iff]
  constructor
  · rintro ⟨c, hc, hd⟩ hall
    have hne : cs.dropWhile isDigit ≠ [] := by
      rw [ne_eq, List.dropWhile_eq_nil_iff]
      exact fun h => by simp [h c hc] at hd
    have hlast := ht.2 _ (List.getLast?_eq_some_getLast (List.ne_nil_of_mem hc))
    rw [← (List.dropWhile_suffix isDigit).getLast hne] at hlast
    simp [hall _ (List.getLast_mem hne)] at hlast
  · intro h
    by_contra hall
    push Not at hall
    rw [List.dropWhile_eq_nil_iff.mpr fun c hc => by simpa using hall c hc] at h
    simp at h

lemma loadLine_fault (hs : s.running = false) (h : (loadLine (trim line)).run s = .error fault t) :
    Stuck line ∧ (∃ k, fault = .longNumeral k) ∨ ¬ Stuck line ∧ ∃ d, fault = .told d := by
  have hr : ¬ s.running = true := by simp [hs]
  cases hl : Program.splitLine? (trim line) with
  | none =>
    simp only [loadLine, hl, run_fail] at h
    cases h
    exact .inr ⟨fun hk => not_overlong_of_word hl hk.1, _, rfl⟩
  | some split =>
    obtain ⟨digits, body⟩ := split
    rw [stuck_iff hl]
    by_cases hb : trim body = ""
    · simp only [loadLine, hl, if_pos hb, EStateM.run_bind, run_fail] at h
      cases h
      exact .inr ⟨fun hk => hk.2 hb, _, rfl⟩
    · simp only [loadLine, hl, if_neg hb, EStateM.run_bind, lineNumber, run_ofExcept, Program.lineNumber] at h
      by_cases hd : Fault.digitLimit < digits.length
      · simp only [if_pos hd] at h
        cases h
        exact .inl ⟨⟨hd, hb⟩, _, rfl⟩
      · simp only [if_neg hd, storeLine_run, if_neg hr] at h
        split_ifs at h
        cases h
        exact .inr ⟨fun hk => hd hk.1, _, rfl⟩

/-- All lines are loaded, or those before the first that is refused. -/
lemma load_cases (hs : s.running = false) (lines : List String) (count : Nat) :
    (∀ line ∈ lines, Loads line) ∧
      (∃ k, (loadLines count ((lines.map trim).filter (· ≠ ""))).run s = .ok k { s with
        program := (lines.flatMap fun line => written (trim line)).foldl Edit.apply s.program }) ∨
    ∃ front line rest fault t, lines = front ++ line :: rest ∧ (∀ l ∈ front, Loads l) ∧ ¬ Loads line ∧
      (loadLines count ((lines.map trim).filter (· ≠ ""))).run s = .error fault t ∧
      (Stuck line ∧ (∃ k, fault = .longNumeral k) ∨ ¬ Stuck line ∧ ∃ d, fault = .told d) := by
  induction lines generalizing s count with
  | nil => exact .inl ⟨by simp, count, rfl⟩
  | cons line lines ih =>
    by_cases hb : trim line = ""
    · have hf : ((line :: lines).map trim).filter (· ≠ "") = (lines.map trim).filter (· ≠ "") := by simp [hb]
      have hw : ((line :: lines).flatMap fun line => written (trim line)) =
          lines.flatMap fun line => written (trim line) := by simp [hb, written_empty]
      rw [hf, hw]
      rcases ih hs count with ⟨hl, hk⟩ | ⟨front, l, rest, fault, t, rfl, hl, hr⟩
      · exact .inl ⟨List.forall_mem_cons.mpr ⟨.inl hb, hl⟩, hk⟩
      · exact .inr ⟨line :: front, l, rest, fault, t, rfl, List.forall_mem_cons.mpr ⟨.inl hb, hl⟩, hr⟩
    · have hf : ((line :: lines).map trim).filter (· ≠ "") =
          trim line :: (lines.map trim).filter (· ≠ "") := by simp [hb]
      rw [hf]
      rcases loadLine_cases hs (trim line) with ⟨n, code, hw, hc, hr⟩ | ⟨hw, fault, hr⟩
      · have hline : Loads line := .inr ⟨n, code, writes_of_written hw, hc⟩
        simp only [loadLines, EStateM.run_bind, hr, List.flatMap_cons, hw, List.singleton_append,
          List.foldl_cons, Edit.apply]
        rcases ih (s := { s with program := s.program.store n code }) hs (count + 1) with
          ⟨hl, hk⟩ | ⟨front, l, rest, fault, t, rfl, hl, hr⟩
        · exact .inl ⟨List.forall_mem_cons.mpr ⟨hline, hl⟩, hk⟩
        · exact .inr ⟨line :: front, l, rest, fault, t, rfl, List.forall_mem_cons.mpr ⟨hline, hl⟩, hr⟩
      · refine .inr ⟨[], line, lines, fault, s, rfl, by simp, ?_, ?_, loadLine_fault hs hr⟩
        · rintro (hb' | ⟨n, code, hwr, hc⟩)
          · exact hb hb'
          · exact hc (hw n code hwr.written)
        · simp only [loadLines, EStateM.run_bind, hr]

lemma find?_of_loads (h : ∀ line ∈ lines, Loads line) :
    ((lines.flatMap fun line => written (trim line)).foldl Edit.apply []).find? n = some code ↔
      LastBearing lines n code := by
  -- From the end: the last line decides on its own number and leaves the others as they were.
  induction lines using List.reverseRecOn with
  | nil => simp [Numbered.find?, LastBearing]
  | append_singleton lines line ih =>
    obtain ⟨hls, hl⟩ : (∀ line ∈ lines, Loads line) ∧ Loads line := by simpa [or_imp, forall_and] using h
    rw [lastBearing_concat, ← ih hls, List.flatMap_append, List.foldl_append, List.flatMap_singleton]
    rcases hl with hb | ⟨m, body, hw, hbody⟩
    · have hn (c : String) : ¬ Bears line n c := fun hc => by
        simpa [hb, written_empty] using hc.written (by simp [hb, Overlong])
      simp [hb, written_empty, hn]
    · obtain ⟨hm, ho⟩ := (writes_iff hbody).mp hw
      have hsame {c : String} (hc : Bears line n c) : n = m ∧ c = body := by
        simpa using (hc.written ho).symm.trans hw.written
      rw [hw.written, List.foldl_cons, List.foldl_nil, Edit.find?_apply, Edit.leaves, if_neg hbody]
      by_cases hnm : n = m
      · subst hnm
        rw [if_pos (by simp [Edit.touches])]
        refine ⟨fun h => .inl (Option.some.inj h ▸ hm), ?_⟩
        rintro (hc | ⟨hn, -⟩)
        · rw [(hsame hc).2]
        · exact absurd hm (hn body)
      · rw [if_neg (by simpa [Edit.touches] using hnm), or_iff_right fun hc => hnm (hsame hc).1]
        exact (and_iff_right fun c hc => hnm (hsame hc).1).symm

end Loop

end Session

namespace Application

open Session
open Text.Utf8 (encode)

/-- Every line that is not blank has a positive number and a code. -/
def Sound (text : String) : Prop :=
  ∀ line ∈ Text.lines text, trim line ≠ "" → ∃ n code, Bears line n code

/-- The first line that is not loaded is one whose number has too many digits to be read. -/
def Sticks (text : String) : Prop :=
  ∃ front line rest, Text.lines text = front ++ line :: rest ∧ (∀ l ∈ front, Loads l) ∧ Stuck line

def kept (text : String) : Program :=
  ((Text.lines text).flatMap fun line => written (trim line)).foldl Edit.apply []

section Lines

variable {lines front front' rest rest' : List String} {line line' text : String}

lemma eq_of_first_refused (he : front ++ line :: rest = front' ++ line' :: rest')
    (hf : ∀ l ∈ front, Loads l) (hf' : ∀ l ∈ front', Loads l) (hl : ¬ Loads line) (hl' : ¬ Loads line') :
    line = line' := by
  induction front generalizing front' with
  | nil =>
    cases front' with
    | nil => exact (List.cons.inj he).1
    | cons l front' => exact absurd ((List.cons.inj he).1 ▸ hf' l List.mem_cons_self) hl
  | cons l front ih =>
    cases front' with
    | nil => exact absurd ((List.cons.inj he).1 ▸ hf l List.mem_cons_self) hl'
    | cons l' front' =>
      exact ih (List.cons.inj he).2 (List.forall_mem_cons.mp hf).2 (List.forall_mem_cons.mp hf').2

lemma sound_of_loads (h : ∀ line ∈ Text.lines text, Loads line) : Sound text := by
  intro line hl hb
  obtain ⟨n, code, hw, hc⟩ := (h line hl).resolve_left hb
  exact ⟨n, code, ((writes_iff hc).mp hw).1⟩

lemma not_sticks_of_loads (h : ∀ line ∈ Text.lines text, Loads line) : ¬ Sticks text := by
  rintro ⟨front, line, rest, he, -, hk⟩
  exact hk.not_loads (h line (by simp [he]))

lemma not_sound_of_refused (hm : line ∈ Text.lines text) (hl : ¬ Loads line) (hk : ¬ Stuck line) :
    ¬ Sound text := by
  intro hs
  obtain ⟨n, code, hb⟩ := hs line hm fun hb => hl (.inl hb)
  have ho : ¬ Overlong (trim line) := fun ho => hk (hb.stuck ho)
  exact hl (.inr ⟨n, code, (writes_iff hb.code_ne).mpr ⟨hb, ho⟩, hb.code_ne⟩)

end Lines

section Load

variable {path text : String} (hp : '\x00' ∉ path.toList)

include hp

lemma load_undecodable {bytes : List UInt8} (h : ∀ text, bytes ≠ encode text) :
    ∃ m, load path (.ok bytes) = .error (.malformed m) := by
  cases hd : Text.Utf8.decode bytes with
  | error m => exact ⟨m, by simp [load, readText, hd, hp]; rfl⟩
  | ok text => exact absurd (Text.Utf8.decode_eq_ok_iff.mp hd) (h text)

lemma load_encode (text : String) : load path (.ok (encode text)) =
    match (Session.load text).run { echo := false } with
    | .ok _ session => .ok session
    | .error fault _ => .error (.faulty fault) := by
  have hd := Text.Utf8.decode_eq_ok_iff.mpr (rfl : encode text = encode text)
  have hl : Session.load (.ofList (Text.unifyNewlines text.toList)) = Session.load text := by
    rw [Session.load, Text.lines_unifyNewlines, Session.load]
  have hc : path.toList.contains '\x00' = false := by simpa using hp
  simp only [load, readText, hd, hc, if_neg Bool.false_ne_true, bind, Except.bind, hl]
  rw [EStateM.run]
  cases Session.load text { echo := false } <;> rfl

lemma load_encode_cases (text : String) :
    (∀ line ∈ Text.lines text, Loads line) ∧ load path (.ok (encode text)) =
      .ok { echo := false, program := kept text } ∨
    Sticks text ∧ (∃ k, load path (.ok (encode text)) = .error (.faulty (.longNumeral k))) ∨
    ¬ Sticks text ∧ ¬ Sound text ∧ ∃ d, load path (.ok (encode text)) = .error (.faulty (.told d)) := by
  rw [load_encode hp, Session.load]
  rcases load_cases (s := { echo := false }) rfl (Text.lines text) 0 with
    ⟨hl, k, hk⟩ | ⟨front, line, rest, fault, t, he, hf, hl, hr, ⟨hk, k, rfl⟩ | ⟨hk, d, rfl⟩⟩
  · exact .inl ⟨hl, by rw [hk]; rfl⟩
  · exact .inr (.inl ⟨⟨front, line, rest, he, hf, hk⟩, k, by rw [hr]⟩)
  · refine .inr (.inr ⟨?_, not_sound_of_refused (by simp [he]) hl hk, d, by rw [hr]⟩)
    rintro ⟨front', line', rest', he', hf', hk'⟩
    obtain rfl := eq_of_first_refused (he.symm.trans he') hf hf' hl hk'.not_loads
    exact hk hk'

end Load

/-- Bytes that spell no text, and texts that stick at a line number with too many digits, end the program
without a report. All others are loaded or refused in one message, by whether their lines are sound. -/
theorem load_told_unless_undecodable_or_stuck {path : String} (hp : '\x00' ∉ path.toList) (bytes : List UInt8) :
    ((∀ text, bytes ≠ encode text) ∨ (∃ text, bytes = encode text ∧ Sticks text) ↔
      ∃ refusal, ∀ run settings terminal,
        begin (.program path run settings) (.ok bytes) terminal = .escaped refusal) ∧
    ∀ text, bytes = encode text → ¬ Sticks text →
      (Sound text → ∃ session, load path (.ok bytes) = .ok session ∧
        session = { echo := false, program := session.program } ∧ session.program.Ascending ∧
        ∀ n code, (n, code) ∈ session.program ↔ LastBearing (Text.lines text) n code) ∧
      (¬ Sound text → ∃ message, ∀ run settings terminal,
        begin (.program path run settings) (.ok bytes) terminal =
          .ended { exitCode := 1, errors := complaint message }) := by
  constructor
  · constructor
    · rintro (hu | ⟨text, rfl, hk⟩)
      · obtain ⟨m, hm⟩ := load_undecodable hp hu
        exact ⟨.malformed m, fun run settings terminal => by simp [begin, hm, Refusal.report?]⟩
      · obtain ⟨hl, -⟩ | ⟨-, k, hl⟩ | ⟨hn, -⟩ := load_encode_cases hp text
        · exact absurd hk (not_sticks_of_loads hl)
        · exact ⟨.faulty (.longNumeral k), fun run settings terminal => by simp [begin, hl, Refusal.report?]⟩
        · exact absurd hk hn
    · rintro ⟨refusal, h⟩
      by_contra! hne
      obtain ⟨⟨text, rfl⟩, hk⟩ := hne
      have h := h true {} true
      obtain ⟨-, hl⟩ | ⟨hs, -⟩ | ⟨-, -, d, hl⟩ := load_encode_cases hp text
      · simp [begin, hl] at h
      · exact hk text rfl hs
      · simp [begin, hl, Refusal.report?] at h
  · rintro text rfl hk
    obtain ⟨hall, hl⟩ | ⟨hs, -⟩ | ⟨-, hn, d, hl⟩ := load_encode_cases hp text
    · have ha : (kept text).Ascending := Edit.foldl_ascending (p := []) .nil _
      refine ⟨fun _ => ⟨_, hl, rfl, ha, fun n code => ?_⟩, fun hn => absurd (sound_of_loads hall) hn⟩
      rw [← find?_of_loads hall, ← Numbered.find?_eq_some_iff ha]
      rfl
    · exact absurd hs hk
    · exact ⟨fun hs => absurd hs hn, fun _ => ⟨path ++ ": " ++ d.report none,
        fun run settings terminal => by simp [begin, hl, Refusal.report?]⟩⟩

lemma not_sticks_of_short {text : String} (h : ∀ line ∈ Text.lines text, ¬ Overlong (trim line)) : ¬ Sticks text := by
  rintro ⟨front, line, rest, he, -, hk⟩
  exact h line (by simp [he]) hk.1

/-- A line that is given twice, a blank line and line endings of three kinds. -/
def patched : String := "10 CLS\r\n \r٢٠  PRINT 1\n10REM"

lemma patched_lines : Text.lines patched = ["10 CLS", " ", "٢٠  PRINT 1", "10REM"] := by decide +kernel

lemma bears_of_written {line code : String} {n : Int} (h : written (trim line) = [.line n code])
    (hc : code ≠ "") : Bears line n code :=
  ((writes_iff hc).mp (writes_of_written h)).1

theorem patched_loads :
    (∃ session, load "p" (.ok (encode patched)) = .ok session ∧ (10, "REM") ∈ session.program ∧
      (20, "PRINT 1") ∈ session.program) ∧
    ∃ message, begin (.program "p" true {}) (.ok (encode "10 CLS\n0 CLS")) false =
      .ended { exitCode := 1, errors := complaint message } := by
  have hp : '\x00' ∉ "p".toList := by decide
  have h10 : Bears "10REM" 10 "REM" := bears_of_written (by decide +kernel) (by decide)
  have h20 : Bears "٢٠  PRINT 1" 20 "PRINT 1" := bears_of_written (by decide +kernel) (by decide)
  constructor
  · obtain ⟨session, hl, -, -, hm⟩ := ((load_told_unless_undecodable_or_stuck hp (encode patched)).2 patched rfl
      (not_sticks_of_short (by decide +kernel))).1 (by
        simp only [Sound, patched_lines, List.forall_mem_cons]
        refine ⟨fun _ => ⟨10, "CLS", bears_of_written (by decide +kernel) (by decide)⟩,
          fun hb => absurd (by decide +kernel) hb, fun _ => ⟨20, _, h20⟩, fun _ => ⟨10, _, h10⟩, by simp⟩)
    rw [patched_lines] at hm
    refine ⟨session, hl, (hm _ _).mpr ⟨["10 CLS", " ", "٢٠  PRINT 1"], _, [], rfl, h10, by simp⟩,
      (hm _ _).mpr ⟨["10 CLS", " "], _, ["10REM"], rfl, h20, fun l hl c hc => ?_⟩⟩
    obtain rfl := List.mem_singleton.mp hl
    cases (hc.written (by decide)).symm.trans (h10.written (by decide))
  · obtain ⟨message, hm⟩ := ((load_told_unless_undecodable_or_stuck hp (encode "10 CLS\n0 CLS")).2 _ rfl
      (not_sticks_of_short (by decide +kernel))).2 (by
        intro hs
        obtain ⟨n, code, hb⟩ := hs "0 CLS" (by decide +kernel) (by decide +kernel)
        have hw : written (trim "0 CLS") = [] := by decide +kernel
        cases (hb.written (by decide)).symm.trans hw)
    exact ⟨message, hm true {} false⟩

def longLine (n : Nat) : String := .ofList (.replicate n '1' ++ "CLS".toList)

section LongLine

variable {n : Nat}

lemma of_mem_longLine {c : Char} (hc : c ∈ (longLine n).toList) :
    isBlank c = false ∧ Text.isLineBreak c = false := by
  rw [longLine, String.toList_ofList] at hc
  rcases List.mem_append.mp hc with hc | hc
  · rw [List.eq_of_mem_replicate hc]
    decide
  · fin_cases hc <;> decide

lemma trim_longLine (n : Nat) : trim (longLine n) = longLine n :=
  Text.trim_of_trimmed ⟨fun _ hc => (of_mem_longLine (List.mem_of_mem_head? hc)).1,
    fun _ hc => (of_mem_longLine (List.mem_of_getLast? hc)).1⟩

lemma longLine_lines (n : Nat) : Text.lines (longLine n) = [longLine n] := by
  have hne : longLine n ≠ "" := by simp [longLine]
  have hb : Text.NoBreak (longLine n).toList := fun _ hc => (of_mem_longLine hc).2
  have hall : ∀ text ∈ [longLine n], text ≠ "" ∧ Text.NoBreak text.toList :=
    List.forall_mem_singleton.mpr ⟨hne, hb⟩
  have hl := Text.lines_intercalate hall
  rwa [String.intercalate_singleton] at hl

lemma longLine_bears (hn : 0 < n) : Bears (longLine n) (Text.natOfDigits (.replicate n 1)) "CLS" := by
  have hd : ∀ c ∈ List.replicate n '1', isDigit c = true := by
    intro c hc
    rw [List.eq_of_mem_replicate hc]
    decide
  refine ⟨.replicate n '1', [], ?_, hd, by simp, by simp; decide, by decide, ?_, ?_, ?_⟩
  · rw [trim_longLine, longLine, String.toList_ofList, List.nil_append]
  · constructor <;> simp <;> decide
  · rw [List.filterMap_replicate]
    rfl
  · obtain ⟨n, rfl⟩ := Nat.exists_eq_add_one_of_ne_zero (by omega : n ≠ 0)
    rw [List.replicate_succ', Text.natOfDigits_concat]
    omega

lemma longLine_sticks (hn : Fault.digitLimit < n) : Sound (longLine n) ∧ Sticks (longLine n) := by
  have hb := longLine_bears (n := n) (by omega)
  have ho : Overlong (trim (longLine n)) := by
    rw [Overlong, trim_longLine, longLine, String.toList_ofList, List.takeWhile_append_of_pos]
    · rw [List.length_append, List.length_replicate]
      omega
    · intro c hc
      rw [List.eq_of_mem_replicate hc]
      decide
  constructor
  · intro line hl _
    rw [longLine_lines, List.mem_singleton] at hl
    exact ⟨_, _, hl ▸ hb⟩
  · exact ⟨[], longLine n, [], longLine_lines n, by simp, hb.stuck ho⟩

lemma longLine_escapes (hn : Fault.digitLimit < n) : ∃ k, ∀ run settings terminal,
    begin (.program "p" run settings) (.ok (encode (longLine n))) terminal =
      .escaped (.faulty (.longNumeral k)) := by
  have hp : '\x00' ∉ "p".toList := by decide
  have hk := (longLine_sticks hn).2
  obtain ⟨hl, -⟩ | ⟨-, k, hl⟩ | ⟨hn, -⟩ := load_encode_cases hp (longLine n)
  · exact absurd hk (not_sticks_of_loads hl)
  · exact ⟨k, fun _ _ _ => by simp [begin, hl, Refusal.report?]⟩
  · exact absurd hk hn

end LongLine

theorem bad_byte_and_long_line_escape :
    (∃ m, ∀ run settings terminal,
      begin (.program "p" run settings) (.ok [0xFF]) terminal = .escaped (.malformed m)) ∧
    Sound (longLine 4301) ∧ ∃ k, ∀ run settings terminal,
      begin (.program "p" run settings) (.ok (encode (longLine 4301))) terminal =
        .escaped (.faulty (.longNumeral k)) := by
  refine ⟨?_, (longLine_sticks (by decide)).1, longLine_escapes (by decide)⟩
  have hu (text : String) : [0xFF] ≠ encode text := by
    intro h
    have hd := Text.Utf8.decode_eq_ok_iff.mpr h
    rw [Text.Utf8.decode, Text.Utf8.decodeFrom_cons] at hd
    cases hd
  have hp : '\x00' ∉ "p".toList := by decide
  obtain ⟨m, hm⟩ := load_undecodable hp hu
  exact ⟨m, fun _ _ _ => by simp [begin, hm, Refusal.report?]⟩

end Application

end LineBasic
