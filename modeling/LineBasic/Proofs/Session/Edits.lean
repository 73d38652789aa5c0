import LineBasic.Proofs.Session.Interjection
import LineBasic.Proofs.Session.Listing

/-! Edits. However a program was typed, stored and loaded, and whatever ran in between, each of its lines
is as the last edit of that line has left it. Numbers of more than `Fault.digitLimit` digits can be given
to `storeLine` only; what is said of listings leaves programs with such numbers out of account. -/

namespace LineBasic

/-- A change of a stored program: of one line, which is deleted if the code is empty, or of all. -/
inductive Edit
  | line (n : Int) (code : String)
  | renewal
deriving DecidableEq

namespace Edit

def apply (p : Program) : Edit → Program
  | line n code => p.store n code
  | renewal => []

def touches (n : Int) : Edit → Bool
  | line m _ => n = m
  | renewal => true

def leaves : Edit → Option String
  | line _ code => if code = "" then none else some code
  | renewal => none

def latest? (n : Int) (log : List Edit) : Option Edit := log.reverse.find? (·.touches n)

def Apart : Edit → Edit → Prop
  | line m _, line n _ => m ≠ n
  | _, _ => False

variable {p : Program} {n : Int} {e e' : Edit} {log es es' : List Edit}

lemma find?_apply (p : Program) (n : Int) (e : Edit) :
    (apply p e).find? n = if e.touches n then e.leaves else p.find? n := by
  cases e with
  | line m code => simp only [apply, touches, leaves, Program.find?_store, decide_eq_true_eq]
  | renewal => rfl

lemma latest?_concat (n : Int) (log : List Edit) (e : Edit) :
    latest? n (log ++ [e]) = if e.touches n then some e else latest? n log := by
  cases he : e.touches n <;> simp [latest?, he]

lemma mem_of_latest? (h : latest? n log = some e) : e ∈ log ∧ e.touches n = true :=
  ⟨List.mem_reverse.mp (List.mem_of_find?_eq_some h), by simpa using List.find?_some h⟩

lemma find?_foldl (p : Program) (n : Int) (log : List Edit) :
    (log.foldl apply p).find? n = (latest? n log).elim (p.find? n) leaves := by
  induction log using List.reverseRecOn with
  | nil => rfl
  | append_singleton log e ih =>
    rw [List.foldl_append, List.foldl_cons, List.foldl_nil, find?_apply, latest?_concat, ih]
    split <;> rfl

lemma foldl_ascending (h : p.Ascending) (log : List Edit) : (log.foldl apply p).Ascending := by
  induction log generalizing p with
  | nil => exact h
  | cons e log ih =>
    refine ih ?_
    cases e with
    | line m code => exact Program.store_ascending h m code
    | renewal => exact .nil

lemma Apart.not_both (h : e.Apart e') (he : e.touches n = true) : e'.touches n = false := by
  cases e with
  | renewal => cases h
  | line m code =>
    cases e' with
    | renewal => cases h
    | line m' code' =>
      obtain rfl : n = m := by simpa [touches] using he
      have hne : n ≠ m' := h
      simpa [touches] using hne

lemma foldl_comm (hp : p.Ascending) (h : ∀ e ∈ es, ∀ e' ∈ es', e.Apart e') :
    es'.foldl apply (es.foldl apply p) = es.foldl apply (es'.foldl apply p) := by
  refine (foldl_ascending (foldl_ascending hp es) es').ext (foldl_ascending (foldl_ascending hp es') es)
    fun n => ?_
  simp only [find?_foldl]
  cases hl : latest? n es with
  | none => rfl
  | some e =>
    cases hl' : latest? n es' with
    | none => rfl
    | some e' =>
      obtain ⟨hm, ht⟩ := mem_of_latest? hl
      obtain ⟨hm', ht'⟩ := mem_of_latest? hl'
      cases ((h e hm e' hm').not_both ht).symm.trans ht'

end Edit

lemma Text.upper_empty : upper "" = "" := by simp [upper]

namespace Session

/-- What a text without blanks around it does to the program when it is typed. -/
def written (code : String) : List Edit :=
  match Program.splitLine? code with
  | some (digits, body) =>
    if digits.length ≤ Fault.digitLimit ∧ 0 < Text.natOfDigits digits then
      [.line (Text.natOfDigits digits) (Text.trim body)]
    else []
  | none => if Text.upper code = "NEW" then [.renewal] else []

/-- What texts do that are loaded, up to the first that is not a line with some code. -/
def loaded : List String → List Edit
  | [] => []
  | text :: rest =>
    match written text with
    | [.line n code] => if code = "" then [] else .line n code :: loaded rest
    | _ => []

/-- A number and a code, in digits of any script and with any blanks around them and in between. -/
def Writes (text : String) (n : Int) (code : String) : Prop :=
  ∃ ds gap : List Char, (Text.trim text).toList = ds ++ (gap ++ code.toList) ∧ ds ≠ [] ∧
    (∀ c ∈ ds, Text.isDigit c = true) ∧ (∀ c ∈ gap, Text.isBlank c = true) ∧
    (∀ c ∈ (gap ++ code.toList).head?, Text.isDigit c = false) ∧ Text.Trimmed code.toList ∧
    ds.length ≤ Fault.digitLimit ∧ n = Text.natOfDigits (ds.filterMap Text.digit?) ∧ 0 < n

section Written

variable {text code word : String} {n : Int} {digits : List Nat} {body : String}

lemma exists_of_mem_written (h : .line n code ∈ written text) : ∃ digits body,
    Program.splitLine? text = some (digits, body) ∧ digits.length ≤ Fault.digitLimit ∧
      0 < Text.natOfDigits digits ∧ n = Text.natOfDigits digits ∧ code = Text.trim body := by
  rw [written] at h
  split at h
  · rename_i digits body hl
    split_ifs at h with hd
    · obtain ⟨rfl, rfl⟩ : n = Text.natOfDigits digits ∧ code = Text.trim body := by simpa using h
      exact ⟨digits, body, hl, hd.1, hd.2, rfl, rfl⟩
    · cases h
  · split_ifs at h <;> simp at h

lemma written_of_line (hl : Program.splitLine? text = some (digits, body))
    (hd : digits.length ≤ Fault.digitLimit) (hn : 0 < Text.natOfDigits digits) :
    written text = [.line (Text.natOfDigits digits) (Text.trim body)] := by
  simp only [written, hl]
  rw [if_pos ⟨hd, hn⟩]

lemma written_of_bad_number (hl : Program.splitLine? text = some (digits, body))
    (hd : ¬ (digits.length ≤ Fault.digitLimit ∧ 0 < Text.natOfDigits digits)) : written text = [] := by
  simp only [written, hl]
  rw [if_neg hd]

lemma written_of_word (hc : Names text word) (hw : word ≠ "NEW") : written text = [] := by
  simp only [written, hc.1, hc.2, if_neg hw]

lemma written_of_new (hc : Names text "NEW") : written text = [.renewal] := by
  simp only [written, hc.1, hc.2, if_pos]

lemma written_empty : written "" = [] :=
  written_of_word ⟨by simp [Program.splitLine?], Text.upper_empty⟩ (by decide)

lemma Writes.written (h : Writes text n code) : written (Text.trim text) = [.line n code] := by
  obtain ⟨ds, gap, ht, hne, hd, hg, hm, hc, hl, rfl, hn⟩ := h
  obtain ⟨hds, hrest⟩ := Text.span_append hd hm
  obtain ⟨-, hcode⟩ := Text.span_append hg hc.1
  have hs : Program.splitLine? (Text.trim text) = some (ds.filterMap Text.digit?, code) := by
    have he : ds.isEmpty = false := by simpa using hne
    simp [Program.splitLine?, ht, hds, hrest, hcode, he]
  rw [written_of_line hs ((List.length_filterMap_le _ _).trans hl) (Int.natCast_pos.mp hn),
    Text.trim_of_trimmed hc]

lemma writes_of_written (h : written (Text.trim text) = [.line n code]) : Writes text n code := by
  obtain ⟨digits, body, hl, hd, hn, rfl, rfl⟩ := exists_of_mem_written (h ▸ List.mem_singleton_self _)
  rw [length_of_splitLine? hl] at hd
  have ht := Text.trimmed_trim text
  simp only [Program.splitLine?] at hl
  split_ifs at hl with he
  generalize hcs : (Text.trim text).toList = cs at *
  obtain ⟨rfl, rfl⟩ := Prod.mk.inj (Option.some.inj hl)
  have hb : Text.Trimmed ((cs.dropWhile Text.isDigit).dropWhile Text.isBlank) :=
    ht.of_suffix ((List.dropWhile_suffix _).trans (List.dropWhile_suffix _)) fun c => Text.head?_dropWhile
  rw [Text.trim_of_trimmed (by simpa using hb)]
  refine ⟨cs.takeWhile Text.isDigit, (cs.dropWhile Text.isDigit).takeWhile Text.isBlank, ?_, ?_, ?_, ?_,
    ?_, by simpa using hb, hd, rfl, Int.natCast_pos.mpr hn⟩
  · rw [hcs, String.toList_ofList, List.takeWhile_append_dropWhile, List.takeWhile_append_dropWhile]
  · simpa using he
  · exact fun c => List.mem_takeWhile_imp
  · exact fun c => List.mem_takeWhile_imp
  · rw [String.toList_ofList, List.takeWhile_append_dropWhile]
    exact fun c => Text.head?_dropWhile

lemma canonical_of_mem_written (h : .line n code ∈ written text) : 0 < n ∧ Text.Trimmed code.toList := by
  obtain ⟨digits, body, -, -, hn, rfl, rfl⟩ := exists_of_mem_written h
  exact ⟨Int.natCast_pos.mpr hn, Text.trimmed_trim body⟩

end Written

section Typed

variable {s : Session} {text code : String} (hs : s.running = false)

/-- What a delivery does is done by the command, but for what is told. -/
lemma after_deliver {P : Session → Prop} (hp : s.phase ≠ .awaiting)
    (hc : P (after (command .passive (Text.trim text)) (s.echoed (.line (">" ++ text)))))
    (ht : ∀ u told, P u → P (u.tell told)) : P (after (deliver .passive text) s) := by
  have hd : after (deliver .passive text) s =
      after (reporting (command .passive (Text.trim text)) (reportCommand .passive))
        (s.echoed (.line (">" ++ text))) := by
    rw [after, deliver_passive hp, after]
  rw [hd]
  refine after_reporting hc fun d u hu => ?_
  rw [after, reportCommand_passive]
  exact ht u _ hu

include hs

lemma Carried.edited {act : Act Unit} (hx : Carried s code (act.run s)) :
    (after act s).program = (written code).foldl Edit.apply s.program ∧
      (¬ Names code "RUN" → (after act s).running = false) := by
  rw [after]
  generalize act.run s = x at hx ⊢
  cases hx with
  | overlong hl hd =>
    rw [written_of_bad_number hl (by omega)]
    exact ⟨rfl, fun _ => hs⟩
  | @refused cause _ hr =>
    have hw : written code = [] := by
      generalize (Diagnostic.of cause none).message = message at hr
      cases hr with
      | edit _ hs' | new _ hs' => cases hs.symm.trans hs'
      | zero hl _ hn => exact written_of_bad_number hl (by omega)
      | unknown hl hc => exact written_of_word ⟨hl, rfl⟩ fun hw => hc (by simp [hw])
    rw [hw]
    exact ⟨rfl, fun _ => hs⟩
  | stored hl hd _ hn =>
    simp only [written_of_line hl hd hn, List.foldl_cons, List.foldl_nil, Edit.apply, true_and]
    exact fun _ => by simpa only [running] using hs
  | run hc ht =>
    rw [written_of_word hc (by decide)]
    exact ⟨run_program ht, fun hn => absurd hc hn⟩
  | listed hc | cleared hc =>
    rw [written_of_word hc (by decide)]
    exact ⟨rfl, fun _ => hs⟩
  | renewed hc =>
    rw [written_of_new hc]
    exact ⟨rfl, fun _ => hs⟩

lemma deliver_edited (text : String) : (after (deliver .passive text) s).program =
      (written (Text.trim text)).foldl Edit.apply s.program ∧
    (¬ Names (Text.trim text) "RUN" → (after (deliver .passive text) s).running = false) := by
  have hr : (s.echoed (.line (">" ++ text))).running = false := hs
  have hw : s.phase ≠ .awaiting := by
    intro hw
    simp [running, hw] at hs
  obtain ⟨hp, hn⟩ := (command_carried (s.echoed (.line (">" ++ text))) (Text.trim text)).edited hr
  refine after_deliver (P := fun u => u.program = (written (Text.trim text)).foldl Edit.apply s.program ∧
    (¬ Names (Text.trim text) "RUN" → u.running = false)) hw ⟨hp, hn⟩ ?_
  exact fun _ _ hu => hu

lemma deliver_lines_edited {lines : List String} (h : ∀ line ∈ lines,
      Text.trim line = "" ∨ ∃ n code, written (Text.trim line) = [.line n code]) :
    (lines.foldl (fun u line => after (deliver .passive line) u) s).program =
      (lines.flatMap fun line => written (Text.trim line)).foldl Edit.apply s.program := by
  induction lines generalizing s with
  | nil => rfl
  | cons line lines ih =>
    obtain ⟨hl, hls⟩ := List.forall_mem_cons.mp h
    obtain ⟨hp, hr⟩ := deliver_edited hs line
    have hn : ¬ Names (Text.trim line) "RUN" := by
      intro hn
      rcases hl with hl | ⟨n, code, hw⟩
      · rw [hl] at hn
        exact absurd (Text.upper_empty.symm.trans hn.2) (by decide)
      · cases (written_of_word hn (by decide)).symm.trans hw
    rw [List.foldl_cons, ih (hr hn) hls, hp, List.flatMap_cons, List.foldl_append]

end Typed

section Loaded

variable {s t : Session} {texts : List String}

lemma loaded_of_refused {text : String} (h : ∀ n code, written text = [.line n code] → code = "")
    (rest : List String) : loaded (text :: rest) = [] := by
  rw [loaded]
  split
  · rename_i n code hw
    rw [if_pos (h n code hw)]
  · rfl

lemma loaded_of_line {text code : String} {n : Int} (hw : written text = [.line n code])
    (hc : code ≠ "") (rest : List String) : loaded (text :: rest) = .line n code :: loaded rest := by
  simp only [loaded, hw, if_neg hc]

lemma canonical_of_mem_loaded {n : Int} {code : String} (h : .line n code ∈ loaded texts) :
    0 < n ∧ Text.Trimmed code.toList := by
  induction texts with
  | nil => cases h
  | cons text texts ih =>
    rw [loaded] at h
    split at h
    · rename_i m body hw
      split_ifs at h
      · cases h
      · rcases List.mem_cons.mp h with he | h
        · exact canonical_of_mem_written (hw ▸ List.mem_singleton.mpr he)
        · exact ih h
    · cases h

lemma loaded_of_lines (h : ∀ text ∈ texts, ∃ n code, written text = [.line n code] ∧ code ≠ "") :
    loaded texts = texts.flatMap written := by
  induction texts with
  | nil => rfl
  | cons text texts ih =>
    obtain ⟨⟨n, code, hw, hc⟩, hs⟩ := List.forall_mem_cons.mp h
    rw [loaded_of_line hw hc, ih hs, List.flatMap_cons, hw, List.singleton_append]

lemma flatMap_nonblank (lines : List String) :
    ((lines.map Text.trim).filter (· ≠ "")).flatMap written =
      lines.flatMap fun line => written (Text.trim line) := by
  induction lines with
  | nil => simp
  | cons line lines ih =>
    by_cases hl : Text.trim line = ""
    · simp [hl, written_empty, ← ih]
    · simp [hl, ← ih]

variable (hs : s.running = false)

include hs

lemma loadLine_cases (text : String) :
    (∃ n code, written text = [.line n code] ∧ code ≠ "" ∧
      (loadLine text).run s = .ok () { s with program := s.program.store n code }) ∨
    ((∀ n code, written text = [.line n code] → code = "") ∧
      ∃ fault, (loadLine text).run s = .error fault s) := by
  have hr : ¬ s.running = true := by simp [hs]
  cases hl : Program.splitLine? text with
  | none =>
    refine .inr ⟨fun n code hw => ?_, .because (.badProgramLine text), by simp only [loadLine, hl, run_fail]⟩
    obtain ⟨digits, body, hl', -⟩ := exists_of_mem_written (hw ▸ List.mem_singleton_self _)
    cases hl.symm.trans hl'
  | some line =>
    obtain ⟨digits, body⟩ := line
    by_cases hb : Text.trim body = ""
    · refine .inr ⟨fun n code hw => ?_, .because (.badProgramLine text), by simp [loadLine, hl, hb]⟩
      obtain ⟨digits', body', hl', -, -, -, rfl⟩ := exists_of_mem_written (hw ▸ List.mem_singleton_self _)
      cases hl.symm.trans hl'
      exact hb
    · simp only [loadLine, hl, if_neg hb, EStateM.run_bind, lineNumber, run_ofExcept, Program.lineNumber]
      by_cases hd : Fault.digitLimit < digits.length
      · refine .inr ⟨fun n code hw => ?_, .longNumeral digits.length, by simp only [if_pos hd]⟩
        simp [written_of_bad_number hl (by omega)] at hw
      · simp only [if_neg hd, storeLine_run, if_neg hr]
        by_cases hn : (Text.natOfDigits digits : Int) ≤ 0
        · refine .inr ⟨fun n code hw => ?_, .because (.lineNotPositive _), by simp only [if_pos hn]; rfl⟩
          simp [written_of_bad_number hl (by omega)] at hw
        · simp only [if_neg hn]
          exact .inl ⟨_, _, written_of_line hl (by omega) (by omega), hb, rfl⟩

lemma loadLines_edited (texts : List String) (count : Nat) :
    (after (loadLines count texts) s).program = (loaded texts).foldl Edit.apply s.program := by
  induction texts generalizing s count with
  | nil => rfl
  | cons text texts ih =>
    rcases loadLine_cases hs text with ⟨n, code, hw, hc, hr⟩ | ⟨hw, fault, hr⟩
    · rw [loaded_of_line hw hc, List.foldl_cons]
      simp only [after, loadLines, EStateM.run_bind, hr]
      exact ih (s := { s with program := s.program.store n code }) hs (count + 1)
    · rw [loaded_of_refused hw]
      simp only [after, loadLines, EStateM.run_bind, hr]
      rfl

lemma loadLines_ok {count k : Nat} (h : (loadLines count texts).run s = .ok k t) :
    ∀ text ∈ texts, ∃ n code, written text = [.line n code] ∧ code ≠ "" := by
  induction texts generalizing s count with
  | nil => simp
  | cons text texts ih =>
    rcases loadLine_cases hs text with ⟨n, code, hw, hc, hr⟩ | ⟨-, fault, hr⟩
    · simp only [loadLines, EStateM.run_bind, hr] at h
      exact List.forall_mem_cons.mpr
        ⟨⟨n, code, hw, hc⟩, ih (s := { s with program := s.program.store n code }) hs h⟩
    · simp only [loadLines, EStateM.run_bind, hr] at h
      cases h

/-- A text that loads does what its lines do when they are typed one after the other. -/
lemma load_as_typed {source : String} {count : Nat} (h : (load source).run s = .ok count t) :
    t.program = ((Text.lines source).foldl (fun u line => after (deliver .passive line) u) s).program := by
  have hok := loadLines_ok hs h
  have hp := loadLines_edited hs (((Text.lines source).map Text.trim).filter (· ≠ "")) 0
  have ha : after (load source) s = t := by rw [after, h]
  rw [← load, ha, loaded_of_lines hok, flatMap_nonblank] at hp
  rw [hp, deliver_lines_edited hs]
  intro line hl
  by_cases hb : Text.trim line = ""
  · exact .inl hb
  · obtain ⟨n, code, hw, -⟩ := hok (Text.trim line)
      (List.mem_filter.mpr ⟨List.mem_map_of_mem hl, by simpa using hb⟩)
    exact .inr ⟨n, code, hw⟩

end Loaded

section Running

variable {s t : Session} {p : Program}

lemma settle_program (n : Int) (x : Except Fault Effect) :
    (after (fun s => s.settle n x : Act Unit) s).program = s.program := by
  rcases x with fault | ⟨vars, told⟩ | target | ⟨prompt, target⟩
  · cases fault <;> rfl
  · exact moveTo_program _
  · simp only [after, EStateM.run, settle]
    cases resolve? s.order target with
    | none => rfl
    | some i => exact moveTo_program _
  · rfl

lemma keepsProgram_step : Preserves (fun s => s.Coherent ∧ s.program = p) (step .passive) := by
  rintro s ⟨h, hp⟩
  refine ⟨keeps_step s h, ?_⟩
  by_cases hs : s.phase = .executing
  · obtain ⟨n, stmt, hn, hf⟩ := h.exists_statement hs
    rw [after, step_passive hs h.stopRequested hn hf]
    exact (settle_program n _).trans hp
  · rw [after, step_passive_of_rest hs]
    exact hp

variable (hs : s.running = true)

include hs

lemma Carried.program_of_running {act : Act Unit} {code : String} (hx : Carried s code (act.run s)) :
    (after act s).program = s.program := by
  rw [after]
  generalize act.run s = x at hx ⊢
  cases hx with
  | overlong | refused | listed | cleared => rfl
  | stored _ _ hs' | renewed _ hs' => cases hs.symm.trans hs'
  | run _ ht => exact run_program ht

lemma deliver_program_of_running (text : String) :
    (after (deliver .passive text) s).program = s.program := by
  by_cases hp : s.phase = .awaiting
  · rw [after, deliver_of_awaiting hp, ← after]
    exact submit_program text s
  · have hr : (s.echoed (.line (">" ++ text))).running = true := hs
    have hc := (command_carried (s.echoed (.line (">" ++ text))) (Text.trim text)).program_of_running hr
    exact after_deliver (P := fun u => u.program = s.program) hp hc fun _ _ hu => hu

lemma load_program_of_running (source : String) : (after (load source) s).program = s.program := by
  have hst (n : Int) (code : String) :
      Preserves (fun u => u.running = true ∧ u.program = s.program) (storeLine n code) := by
    rintro u ⟨hu, hp⟩
    rw [after, storeLine_run, if_pos hu]
    exact ⟨hu, hp⟩
  exact (preserves_loadLines (fun text _ => preserves_loadLine hst text) 0 s ⟨hs, rfl⟩).2

lemma Called.program_of_running (h : s.Coherent) (hc : Called s t) : t.program = s.program := by
  cases hc with
  | deliver text => exact deliver_program_of_running hs text
  | submit text => exact submit_program text s
  | command code => exact (command_carried s code).program_of_running hs
  | store n code => rw [after, storeLine_run, if_pos hs]
  | load source => exact load_program_of_running hs source
  | list => rfl
  | new => rw [after, new_run, if_pos hs]
  | run =>
    obtain ⟨t, ht⟩ := exists_run_passive s
    rw [after, ht]
    exact run_program ht
  | step => exact (keepsProgram_step s ⟨h, rfl⟩).2
  | advance limit => exact (preserves_advanceFrom keepsProgram_step 0 _ s ⟨h, rfl⟩).2
  | exhaust n => exact (preserves_advanceFrom keepsProgram_step 0 n s ⟨h, rfl⟩).2
  | stop message =>
    rw [after, stop_passive_of_running hs h.stepping]
    rfl

end Running

inductive Editing
  | deliver (text : String)
  | store (n : Int) (code : String)
  | load (source : String)
  | new

namespace Editing

def perform : Editing → Session → Session
  | deliver text => after (Session.deliver .passive text)
  | store n code => after (storeLine n code)
  | load source => after (Session.load source)
  | new => after Session.new

/-- The edits that are accepted from a call on a session at rest. -/
def edits : Editing → List Edit
  | deliver text => written (Text.trim text)
  | store n code => if 0 < n then [.line n (Text.trim code)] else []
  | load source => loaded (((Text.lines source).map Text.trim).filter (· ≠ ""))
  | new => [.renewal]

variable {s : Session} {c c' : Editing}

lemma called (c : Editing) (s : Session) : Called s (c.perform s) := by
  cases c with
  | deliver text => exact .deliver text
  | store n code => exact .store n code
  | load source => exact .load source
  | new => exact .new

lemma canonical_of_mem_edits {n : Int} {code : String} (h : .line n code ∈ c.edits) :
    0 < n ∧ Text.Trimmed code.toList := by
  cases c with
  | deliver text =>
    rw [edits] at h
    exact canonical_of_mem_written h
  | load source => exact canonical_of_mem_loaded h
  | store m body =>
    rw [edits] at h
    split_ifs at h with hm
    · obtain ⟨rfl, rfl⟩ : n = m ∧ code = Text.trim body := by simpa using h
      exact ⟨hm, Text.trimmed_trim body⟩
    · cases h
  | new => simp [edits] at h

variable (hs : s.running = false)

include hs

lemma perform_program (c : Editing) : (c.perform s).program = c.edits.foldl Edit.apply s.program := by
  cases c with
  | deliver text => exact (deliver_edited hs text).1
  | load source => exact loadLines_edited hs _ 0
  | store n code =>
    simp only [perform, edits, after, storeLine_run, hs]
    by_cases hn : 0 < n
    · rw [if_pos hn, if_neg (by simp), if_neg (by omega), List.foldl_cons, List.foldl_nil, Edit.apply]
    · rw [if_neg hn, if_neg (by simp), if_pos (by omega)]
      rfl
  | new =>
    simp only [perform, after, new_run, hs]
    rfl

lemma perform_running (he : c.edits ≠ []) : (c.perform s).running = false := by
  have hst (n : Int) (code : String) : Preserves (fun u => u.running = false) (storeLine n code) := by
    intro u hu
    rw [after, storeLine_run, if_neg (by simp [hu])]
    split_ifs <;> simpa only [running] using hu
  cases c with
  | deliver text =>
    rw [edits] at he
    exact (deliver_edited hs text).2 fun hn => he (written_of_word hn (by decide))
  | load source => exact preserves_loadLines (fun text _ => preserves_loadLine hst text) 0 s hs
  | store n code => exact hst n code s hs
  | new =>
    simp only [perform, after, new_run, hs]
    exact hs

lemma perform_comm (ha : s.program.Ascending) (he : c.edits ≠ []) (he' : c'.edits ≠ [])
    (h : ∀ e ∈ c.edits, ∀ e' ∈ c'.edits, e.Apart e') :
    (c'.perform (c.perform s)).program = (c.perform (c'.perform s)).program := by
  rw [perform_program (perform_running hs he), perform_program (perform_running hs he'),
    perform_program hs, perform_program hs, Edit.foldl_comm ha h]

end Editing

/-- Sessions, and the edits that were accepted. A program is edited while nothing runs, and any call may
be made during a run. -/
inductive Logged : Session → List Edit → Prop
  | fresh (echo : Bool) (depth : Nat) : Logged { echo, depth } []
  | edit {s : Session} {log : List Edit} (h : Logged s log) (hs : s.running = false) (c : Editing) :
      Logged (c.perform s) (log ++ c.edits)
  | during {s t : Session} {log : List Edit} (h : Logged s log) (hs : s.running = true)
      (hc : Called s t) : Logged t log

section Logged

variable {s : Session} {log : List Edit}

lemma Logged.coherent (h : Logged s log) : s.Coherent := by
  induction h with
  | fresh echo depth => exact (@Reachable.fresh depth echo).coherent
  | edit _ _ c ih => exact (c.called _).coherent ih
  | during _ _ hc ih => exact hc.coherent ih

lemma Logged.program (h : Logged s log) : s.program = log.foldl Edit.apply [] := by
  induction h with
  | fresh echo depth => rfl
  | edit _ hs c ih => rw [c.perform_program hs, ih, List.foldl_append]
  | during h hs hc ih => exact (hc.program_of_running hs h.coherent).trans ih

lemma Logged.canonical_of_mem (h : Logged s log) {n : Int} {code : String} (hm : .line n code ∈ log) :
    0 < n ∧ Text.Trimmed code.toList := by
  induction h with
  | fresh echo depth => cases hm
  | edit _ _ c ih =>
    rcases List.mem_append.mp hm with hm | hm
    · exact ih hm
    · exact c.canonical_of_mem_edits hm
  | during _ _ _ ih => exact ih hm

lemma Logged.find? (h : Logged s log) (n : Int) :
    s.program.find? n = (Edit.latest? n log).bind Edit.leaves := by
  rw [h.program, Edit.find?_foldl]
  cases Edit.latest? n log <;> rfl

lemma Logged.canonical (h : Logged s log) {n : Int} {code : String} (hf : s.program.find? n = some code) :
    0 < n ∧ code ≠ "" ∧ Text.Trimmed code.toList := by
  rw [h.find?] at hf
  obtain ⟨e, he, hl⟩ := Option.bind_eq_some_iff.mp hf
  obtain ⟨hm, ht⟩ := Edit.mem_of_latest? he
  cases e with
  | renewal => cases hl
  | line m body =>
    obtain rfl : n = m := by simpa [Edit.touches] using ht
    rw [Edit.leaves] at hl
    split_ifs at hl with hb
    obtain rfl := Option.some.inj hl
    exact ⟨(h.canonical_of_mem hm).1, hb, (h.canonical_of_mem hm).2⟩

end Logged

theorem program_keeps_latest_edits {s : Session} {log : List Edit} (h : Logged s log) :
    (∀ n code, (n, code) ∈ s.program → 0 < n ∧ code ≠ "" ∧ Text.Trimmed code.toList) ∧
    (∃ lines : List (Int × String), s.listing = lines.map (fun line => toString line.1 ++ " " ++ line.2) ∧
      (lines.map Prod.fst).Pairwise (· < ·) ∧
      ∀ n code, (n, code) ∈ lines ↔ (Edit.latest? n log).bind Edit.leaves = some code) ∧
    (∀ n, s.program.find? n = (Edit.latest? n log).bind Edit.leaves) ∧
    (∀ text n code, (Editing.deliver text).edits = [.line n code] ↔ Writes text n code) ∧
    (s.running = false →
      (∀ c c' : Editing, c.edits ≠ [] → c'.edits ≠ [] → (∀ e ∈ c.edits, ∀ e' ∈ c'.edits, e.Apart e') →
        (c'.perform (c.perform s)).program = (c.perform (c'.perform s)).program) ∧
      ∀ source count t, (load source).run s = .ok count t → t.program =
        ((Text.lines source).foldl (fun u line => after (deliver .passive line) u) s).program) := by
  have ha := h.coherent.ascending
  refine ⟨fun n code hm => ?_, ⟨s.program, rfl, ha, fun n code => ?_⟩, h.find?, fun text n code => ?_,
    fun hs => ⟨fun c c' => Editing.perform_comm hs ha, fun source count t => load_as_typed hs⟩⟩
  · exact h.canonical ((Numbered.find?_eq_some_iff ha).mpr hm)
  · rw [← h.find?, Numbered.find?_eq_some_iff ha]
  · rw [Editing.edits]
    exact ⟨writes_of_written, Writes.written⟩

/-- A line that is typed and one that is stored, and then the first deleted again. -/
def retyped : Session :=
  (Editing.deliver " ٠١٠ ").perform <| (Editing.store 20 " PRINT 1 ").perform <|
    (Editing.deliver "10CLS").perform {}

theorem retyped_keeps_latest : Logged retyped [.line 10 "CLS", .line 20 "PRINT 1", .line 10 ""] ∧
    Numbered.find? 10 retyped.program = none ∧ Numbered.find? 20 retyped.program = some "PRINT 1" ∧
    ((Editing.store 20 "").perform ((Editing.deliver "5 CLS").perform retyped)).program =
      ((Editing.deliver "5 CLS").perform ((Editing.store 20 "").perform retyped)).program ∧
    ∃ count t, (load "5 CLS\n\n 20 REM").run retyped = .ok count t ∧ t.program =
      ((Text.lines "5 CLS\n\n 20 REM").foldl (fun u line => after (deliver .passive line) u)
        retyped).program := by
  have h : Logged retyped ([] ++ (Editing.deliver "10CLS").edits ++ (Editing.store 20 " PRINT 1 ").edits ++
      (Editing.deliver " ٠١٠ ").edits) :=
    (((Logged.fresh true 240).edit (by decide +kernel) _).edit (by decide +kernel) _).edit (by decide +kernel) _
  have hl : [] ++ (Editing.deliver "10CLS").edits ++ (Editing.store 20 " PRINT 1 ").edits ++
      (Editing.deliver " ٠١٠ ").edits = [.line 10 "CLS", .line 20 "PRINT 1", .line 10 ""] := by
    decide +kernel
  rw [hl] at h
  obtain ⟨-, -, hf, -, hedit⟩ := program_keeps_latest_edits h
  obtain ⟨hcomm, hload⟩ := hedit (by decide +kernel)
  refine ⟨h, by rw [hf]; decide +kernel, by rw [hf]; decide +kernel, ?_, ?_⟩
  · have hd : (Editing.deliver "5 CLS").edits = [.line 5 "CLS"] := by decide +kernel
    have hst : (Editing.store 20 "").edits = [.line 20 ""] := by decide +kernel
    exact hcomm _ _ (by simp [hd]) (by simp [hst]) (by simp [hd, hst, Edit.Apart])
  · have hok : (load "5 CLS\n\n 20 REM").run' retyped = some 2 := by decide +kernel
    cases hr : (load "5 CLS\n\n 20 REM").run retyped with
    | ok count t => exact ⟨count, t, rfl, hload _ count t hr⟩
    | error fault t =>
      rw [EStateM.run', hr] at hok
      cases hok

end Session

end LineBasic
