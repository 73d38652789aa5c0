import LineBasic.Proofs.Session.Commands
import LineBasic.Proofs.Token.Lexeme

/-! Listings. A program that was typed or loaded is listed in a form that loads as the same program,
as long as no stored line contains the end of a line. -/

namespace LineBasic

namespace Text

lemma digit?_lt {c : Char} {d : Nat} (h : digit? c = some d) : d < 10 := by
  rw [digit?] at h
  split at h
  · split at h
    · rename_i hc
      obtain rfl := Option.some.inj h
      have hn : c.toNat ≤ 57 := by simpa [Char.le_def, UInt32.le_iff_toNat_le] using hc.2
      have hz : '0'.toNat = 48 := rfl
      omega
    · cases h
  · obtain ⟨z, hz, rfl⟩ := Option.map_eq_some_iff.mp h
    have hb := List.find?_some hz
    simp only [Bool.and_eq_true, decide_eq_true_eq] at hb
    omega

lemma natOfDigits_lt {ds : List Nat} (h : ∀ d ∈ ds, d < 10) : natOfDigits ds < 10 ^ ds.length := by
  induction ds using List.reverseRecOn with
  | nil => decide
  | append_singleton ds d ih =>
    have hd : d < 10 := h d (by simp)
    have hi := ih fun e he => h e (by simp [he])
    rw [natOfDigits_concat, List.length_append, List.length_singleton, pow_succ]
    omega

lemma isLineBreak_of_isDigit {c : Char} (h : isDigit c = true) : isLineBreak c = false := by
  have hb := isBlank_of_isDigit h
  rw [Bool.eq_false_iff] at hb ⊢
  intro hc
  apply hb
  simp only [isLineBreak, isBlank, Bool.or_eq_true, Bool.and_eq_true, decide_eq_true_eq, beq_iff_eq] at hc ⊢
  omega

lemma isDigit_of_mem_toDigits {n : Nat} {c : Char} (h : c ∈ Nat.toDigits 10 n) : isDigit c = true :=
  Token.isDigit_of_isNumeric (Token.isNumeric_of_mem_toDigits h)

end Text

namespace Program

/-- A line as it is stored when it was typed or loaded. -/
structure Tidy (line : Int × String) : Prop where
  positive : 0 < line.1
  bounded : line.1 < 10 ^ Fault.digitLimit
  nonempty : line.2 ≠ ""
  trimmed : Text.Trimmed line.2.toList

/-- One line of a listing. -/
def listed (line : Int × String) : String := toString line.1 ++ " " ++ line.2

lemma listing_eq (p : Program) : p.listing = p.map listed := rfl

section Tidy

variable {line : Int × String} (h : Tidy line)

include h

lemma Tidy.toList_listed :
    (listed line).toList = Nat.toDigits 10 line.1.toNat ++ ' ' :: line.2.toList := by
  have hn : toString line.1 = toString line.1.toNat := by
    obtain ⟨n, hn⟩ := Int.eq_ofNat_of_zero_le h.positive.le
    rw [hn]
    rfl
  rw [listed, hn, Nat.toString_eq_ofList_toDigits]
  simp

lemma Tidy.splitLine?_listed : splitLine? (listed line) =
    some ((Nat.toDigits 10 line.1.toNat).filterMap Text.digit?, line.2) := by
  have hd : ∀ c ∈ Nat.toDigits 10 line.1.toNat, Text.isDigit c = true := fun c => Text.isDigit_of_mem_toDigits
  obtain ⟨ht, hr⟩ := Text.span_append_cons (c := ' ') hd (by decide) line.2.toList
  have hb : (' ' :: line.2.toList).dropWhile Text.isBlank = line.2.toList := by
    have hf : ∀ c ∈ [' '], Text.isBlank c = true := by simp [Text.isBlank]
    exact (Text.span_append hf h.trimmed.1).2
  have hne : ¬ (Nat.toDigits 10 line.1.toNat).isEmpty = true := by
    rw [List.isEmpty_iff]
    exact Nat.toDigits_ne_nil
  rw [splitLine?, h.toList_listed, ht, hr, hb, if_neg hne, String.ofList_toList]

lemma Tidy.lineNumber_listed :
    lineNumber ((Nat.toDigits 10 line.1.toNat).filterMap Text.digit?) = .ok line.1 := by
  have hn : line.1.toNat < 10 ^ Fault.digitLimit := by
    have hb := h.bounded
    rw [← Int.toNat_of_nonneg h.positive.le] at hb
    exact_mod_cast hb
  have hl : ¬ Fault.digitLimit < ((Nat.toDigits 10 line.1.toNat).filterMap Text.digit?).length := by
    have hm := List.length_filterMap_le Text.digit? (Nat.toDigits 10 line.1.toNat)
    have hd := (Nat.length_toDigits_le_iff (by decide) (by decide)).mpr hn
    omega
  rw [lineNumber, if_neg hl, Text.natOfDigits_toDigits, Int.toNat_of_nonneg h.positive.le]

lemma Tidy.trimmed_listed : Text.Trimmed (listed line).toList := by
  obtain ⟨d, ds, hd⟩ := List.exists_cons_of_ne_nil (Nat.toDigits_ne_nil (n := line.1.toNat) (b := 10))
  have hne : line.2.toList ≠ [] := by simpa using h.nonempty
  rw [h.toList_listed]
  constructor
  · rw [hd]
    rintro _ ⟨⟩
    exact Text.isBlank_of_isDigit (Text.isDigit_of_mem_toDigits (hd ▸ List.mem_cons_self))
  · intro c hc
    rw [List.getLast?_append, List.getLast?_cons, List.getLast?_eq_getLast_of_ne_nil hne] at hc
    apply h.trimmed.2 c
    rwa [List.getLast?_eq_getLast_of_ne_nil hne]

lemma Tidy.noBreak_listed (hb : Text.NoBreak line.2.toList) : Text.NoBreak (listed line).toList := by
  rw [h.toList_listed]
  intro c hc
  rcases List.mem_append.mp hc with hc | hc
  · exact Text.isLineBreak_of_isDigit (Text.isDigit_of_mem_toDigits hc)
  · rcases List.mem_cons.mp hc with rfl | hc
    · decide
    · exact hb c hc

end Tidy

end Program

namespace Session

open Program (Tidy listed)

section Load

variable {s : Session}

lemma loadLine_listed (hs : s.running = false) {line : Int × String} (h : Tidy line) :
    (loadLine (listed line)).run s =
      .ok () { s with program := Numbered.insert line.1 line.2 s.program } := by
  have ht := Text.trim_of_trimmed h.trimmed
  have hn : ¬ line.1 ≤ 0 := Int.not_le.mpr h.positive
  have hr : ¬ s.running = true := by simp [hs]
  simp only [loadLine, h.splitLine?_listed, ht, if_neg h.nonempty]
  simp only [EStateM.run_bind, lineNumber, h.lineNumber_listed, run_ofExcept, storeLine_run, ht,
    Program.store, if_neg h.nonempty, if_neg hn, if_neg hr]

lemma loadLines_listing (hs : s.running = false) {p : Program} (hp : ∀ line ∈ p, Tidy line)
    (ha : Numbered.Ascending (s.program ++ p)) (count : Nat) :
    (loadLines count (p.map listed)).run s =
      .ok (count + p.length) { s with program := s.program ++ p } := by
  induction p generalizing s count with
  | nil => simp [loadLines]
  | cons line p ih =>
    obtain ⟨hl, hp⟩ := List.forall_mem_cons.mp hp
    -- A listing ascends, so that each of its lines goes behind those stored before.
    have hm : ∀ m ∈ Numbered.numbers s.program, m < line.1 := by
      rw [Numbered.Ascending, Numbered.numbers, List.map_append, List.pairwise_append] at ha
      exact fun m hm => ha.2.2 m hm line.1 List.mem_cons_self
    simp only [List.map_cons, loadLines, EStateM.run_bind, loadLine_listed hs hl, Numbered.insert_of_last hm]
    rw [ih (s := { s with program := s.program ++ [line] }) hs hp (by simpa using ha)]
    simp
    omega

lemma load_listing (hs : s.running = false) (he : s.program = []) {p : Program} (ha : p.Ascending)
    (hp : ∀ line ∈ p, Tidy line) (hb : ∀ line ∈ p, Text.NoBreak line.2.toList) :
    (load ("\n".intercalate p.listing)).run s = .ok p.length { s with program := p } := by
  have hne : ∀ line ∈ p, listed line ≠ "" := by
    intro line hl hn
    have hx := (hp line hl).toList_listed
    simp [hn] at hx
  have hl : Text.lines ("\n".intercalate (p.map listed)) = p.map listed := by
    apply Text.lines_intercalate
    intro text ht
    obtain ⟨line, hm, rfl⟩ := List.mem_map.mp ht
    exact ⟨hne line hm, (hp line hm).noBreak_listed (hb line hm)⟩
  have ht : (p.map listed).map Text.trim = p.map listed := by
    rw [List.map_map]
    exact List.map_congr_left fun line hm => Text.trim_of_trimmed (hp line hm).trimmed_listed
  have hf : (p.map listed).filter (· ≠ "") = p.map listed := by
    rw [List.filter_eq_self]
    intro text ht
    obtain ⟨line, hm, rfl⟩ := List.mem_map.mp ht
    simpa using hne line hm
  rw [load, Program.listing_eq, hl, ht, hf, loadLines_listing hs hp (by simpa [he] using ha)]
  simp [he]

end Load

/-- What is stored by a text that is typed or loaded as a line. -/
def Admits (Q : Int × String → Prop) (text : String) : Prop :=
  ∀ digits body, Program.splitLine? text = some (digits, body) → digits.length ≤ Fault.digitLimit →
    0 < Text.natOfDigits digits → Text.trim body ≠ "" → Q (Text.natOfDigits digits, Text.trim body)

abbrev Stores (Q : Int × String → Prop) (s : Session) : Prop := ∀ line ∈ s.program, Q line

section Stores

variable {s t : Session} {Q : Int × String → Prop} {text : String}

lemma run_program (h : (run .passive).run s = .ok () t) : t.program = s.program := by
  by_cases hs : s.phase = .idle
  · rcases hc : compileLines s.depth s.program with ⟨compiled, none | ⟨n, d⟩⟩
    · rw [run_passive_of_ok hs hc] at h
      cases h
      rw [started]
      split <;> rfl
    · rw [run_passive_of_fault hs hc] at h
      cases h
      rfl
  · rw [run_passive_of_busy hs] at h
    cases h
    rfl

lemma Carried.stores {act : Act Unit} (hx : Carried s text (act.run s)) (hq : Admits Q text)
    (h : Stores Q s) : Stores Q (after act s) := by
  rw [after]
  generalize act.run s = x at hx ⊢
  cases hx with
  | overlong | refused | listed | cleared => exact h
  | stored hl hd _ hn =>
    dsimp only [Stores]
    exact Program.forall_mem_store h (hq _ _ hl hd hn)
  | run _ ht => exact fun line hl => h line (run_program ht ▸ hl)
  | renewed => simp [tell]

lemma command_stores (hq : Admits Q text) : Preserves (Stores Q) (command .passive text) :=
  fun s h => (command_carried s text).stores hq h

lemma loadLine_stores (hq : Admits Q text) : Preserves (Stores Q) (loadLine text) := by
  rw [loadLine]
  split
  · exact preserves_fail _
  · rename_i digits body hl
    have he : Preserves (Stores Q) (do storeLine (← lineNumber digits) body) :=
      fun s h => (edit_carried hl).stores hq h
    split
    · exact (preserves_fail _).bind fun _ => he
    · exact he

lemma submit_program (text : String) (s : Session) :
    (after (submit .passive text) s).program = s.program := by
  by_cases hs : s.phase = .awaiting
  · cases hp : s.pending with
    | none => simp [after, submit, hs, hp]
    | some p =>
      simp only [after, submit_passive hs hp, accept_passive]
      cases answer (s.echoed (.append text)).vars p.target text with
      | error fault => rfl
      | ok vars => exact moveTo_program _
  · simp [after, submit, hs]

lemma submit_stores (text : String) : Preserves (Stores Q) (submit .passive text) := by
  intro s h
  rw [Stores, submit_program]
  exact h

lemma admits_tidy (text : String) : Admits Tidy text := by
  intro digits body hl hd hn hb
  have hlt : ∀ d ∈ digits, d < 10 := by
    simp only [Program.splitLine?] at hl
    split_ifs at hl
    obtain ⟨rfl, -⟩ := Prod.mk.inj (Option.some.inj hl)
    intro d hm
    obtain ⟨c, -, hc⟩ := List.mem_filterMap.mp hm
    exact Text.digit?_lt hc
  have hm := (Text.natOfDigits_lt hlt).trans_le (Nat.pow_le_pow_right (by decide) hd)
  have hc : (Text.natOfDigits digits : Int) < 10 ^ Fault.digitLimit := by exact_mod_cast hm
  exact ⟨Int.natCast_pos.mpr hn, hc, hb, Text.trimmed_trim body⟩

lemma admits_noBreak (h : Text.NoBreak text.toList) :
    Admits (fun line => Text.NoBreak line.2.toList) text := by
  intro digits body hl _ _ _ c hc
  have hb := Text.mem_of_mem_trim hc
  simp only [Program.splitLine?] at hl
  split_ifs at hl
  obtain ⟨-, rfl⟩ := Prod.mk.inj (Option.some.inj hl)
  rw [String.toList_ofList] at hb
  exact h c ((List.dropWhile_suffix _).subset ((List.dropWhile_suffix _).subset hb))

end Stores

/-- Sessions whose programs were typed and loaded, whatever else they were used for. -/
inductive Entered : Session → Prop
  | fresh (echo : Bool) (depth : Nat) : Entered { echo, depth }
  | deliver {s : Session} (h : Entered s) (text : String) : Entered (after (deliver .passive text) s)
  | load {s : Session} (h : Entered s) (source : String) : Entered (after (load source) s)
  | call {s t : Session} (h : Entered s) (hc : Called s t) (hp : t.program = s.program) : Entered t

section Entered

variable {s t : Session}

lemma Entered.coherent (h : Entered s) : s.Coherent := by
  induction h with
  | fresh echo depth => exact (@Reachable.fresh depth echo).coherent
  | deliver _ text ih => exact keeps_deliver text _ ih
  | load _ source ih => exact keeps_loadLines 0 _ _ ih
  | call _ hc _ ih => exact hc.coherent ih

lemma Entered.tidy (h : Entered s) : Stores Tidy s := by
  induction h with
  | fresh echo depth => simp [Stores]
  | @deliver s _ text ih =>
    have hc := fun code => command_stores (admits_tidy code)
    exact preserves_deliver (fun e s hs => hs) hc (submit_stores text) s ih
  | @load s _ source ih =>
    exact preserves_loadLines (fun text _ => loadLine_stores (admits_tidy text)) 0 s ih
  | call _ _ hp ih =>
    rw [Stores, hp]
    exact ih

lemma load_noBreak (source : String) :
    Preserves (Stores fun line => Text.NoBreak line.2.toList) (load source) := by
  refine preserves_loadLines (fun text ht => loadLine_stores (admits_noBreak ?_)) 0
  obtain ⟨hm, -⟩ := List.mem_filter.mp ht
  obtain ⟨line, hl, rfl⟩ := List.mem_map.mp hm
  exact fun c hc => Text.noBreak_of_mem_lines hl c (Text.mem_of_mem_trim hc)

/-- Loading the listing into a fresh session gives the program and the listing again. -/
def Reloads (s : Session) : Prop :=
  ∀ echo depth, ∃ t, (load ("\n".intercalate s.listing)).run { echo, depth } = .ok s.program.length t ∧
    t.program = s.program ∧ t.listing = s.listing

lemma Entered.reloads (h : Entered s) (hb : ∀ line ∈ s.program, Text.NoBreak line.2.toList) :
    Reloads s := by
  intro echo depth
  have ha := h.coherent.ascending
  exact ⟨_, load_listing (s := { echo, depth }) rfl rfl ha h.tidy hb, rfl, rfl⟩

end Entered

theorem listing_reloads :
    (∀ echo depth source count t, (load source).run { echo, depth } = .ok count t → Reloads t) ∧
    ∀ s, Entered s → (∀ line ∈ s.program, Text.NoBreak line.2.toList) → Reloads s := by
  refine ⟨fun echo depth source count t ht => ?_, fun s => Entered.reloads⟩
  have hx : after (load source) { echo, depth } = t := by rw [after, ht]
  have he : Entered t := hx ▸ (Entered.fresh echo depth).load source
  exact he.reloads (hx ▸ load_noBreak source { echo, depth } (by simp [Stores]))

/-- A program typed with a line that begins like another one, and one with blanks inside. -/
def scribbled : Session :=
  after (deliver .passive "٢٠  PRINT \"A\tB\"") <| after (deliver .passive " 010 12 CLS ") {}

theorem scribbled_reloads :
    (∃ count t, (load "20 CLS\n\n 010 12 X\r\n20 PRINT 1").run {} = .ok count t ∧ count = 3 ∧
      t.listing = ["10 12 X", "20 PRINT 1"] ∧ Reloads t) ∧
    Entered scribbled ∧ scribbled.listing = ["10 12 CLS", "20 PRINT \"A\tB\""] ∧ Reloads scribbled := by
  obtain ⟨hl, hs⟩ := listing_reloads
  constructor
  · have hx : (match (load "20 CLS\n\n 010 12 X\r\n20 PRINT 1").run {} with
        | .ok count t => (count, t.listing)
        | .error _ _ => (0, [])) = (3, ["10 12 X", "20 PRINT 1"]) := by decide +kernel
    cases hr : (load "20 CLS\n\n 010 12 X\r\n20 PRINT 1").run {} with
    | ok count t =>
      rw [hr] at hx
      obtain ⟨hc, ht⟩ := Prod.mk.inj hx
      exact ⟨count, t, rfl, hc, ht, hl true 240 _ count t hr⟩
    | error fault t =>
      rw [hr] at hx
      cases hx
  · have he : Entered scribbled := ((Entered.fresh true 240).deliver _).deliver _
    have hp : scribbled.program = [(10, "12 CLS"), (20, "PRINT \"A\tB\"")] := by decide +kernel
    have hb : ∀ line ∈ scribbled.program, Text.NoBreak line.2.toList := by
      simp [hp, Text.NoBreak, Text.isLineBreak]
    exact ⟨he, by decide +kernel, hs scribbled he hb⟩

end Session

end LineBasic
