import LineBasic.Proofs.Session.Calls
import LineBasic.Proofs.Session.Compiling
import LineBasic.Proofs.Text.Lines

/-! Commands. A text that no `INPUT` waits for is refused in one line, and then nothing has changed, or
it is carried out without a complaint. Only a line number of more digits than are read ends the call. -/

namespace LineBasic

namespace Session

def Names (code word : String) : Prop := Program.splitLine? code = none ∧ Text.upper code = word

/-- A line number that has too many digits to be read. -/
def Overlong (code : String) : Prop := Fault.digitLimit < (code.toList.takeWhile Text.isDigit).length

instance (code : String) : Decidable (Overlong code) := inferInstanceAs (Decidable (_ < _))

/-- What is wrong with a command, in the words that the user is told. -/
inductive Refuses (s : Session) (code : String) : String → Prop
  | edit {digits : List Nat} {body : String} (hl : Program.splitLine? code = some (digits, body))
      (hs : s.running = true) : Refuses s code "CANNOT EDIT WHILE RUNNING"
  | zero {digits : List Nat} {body : String} (hl : Program.splitLine? code = some (digits, body))
      (hs : s.running = false) (hn : Text.natOfDigits digits = 0) : Refuses s code "SYNTAX ERROR"
  | new (hc : Names code "NEW") (hs : s.running = true) : Refuses s code "CANNOT EDIT WHILE RUNNING"
  | unknown (hl : Program.splitLine? code = none)
      (hc : Text.upper code ∉ ["RUN", "LIST", "CLS", "NEW"]) : Refuses s code "SYNTAX ERROR"

/-- What a command can come to on a listening host. -/
inductive Carried (s : Session) (code : String) : EStateM.Result Fault Session Unit → Prop
  | overlong {digits : List Nat} {body : String} (hl : Program.splitLine? code = some (digits, body))
      (hd : Fault.digitLimit < digits.length) : Carried s code (.error (.longNumeral digits.length) s)
  | refused {cause : Cause} (ho : ¬ Overlong code)
      (hr : Refuses s code (Diagnostic.of cause none).message) : Carried s code (.error (.because cause) s)
  | stored {digits : List Nat} {body : String} (hl : Program.splitLine? code = some (digits, body))
      (hd : digits.length ≤ Fault.digitLimit) (hs : s.running = false)
      (hn : 0 < Text.natOfDigits digits) : Carried s code
        (.ok () { s with program := s.program.store (Text.natOfDigits digits) (Text.trim body) })
  | run {t : Session} (hc : Names code "RUN") (ht : (run .passive).run s = .ok () t) :
      Carried s code (.ok () t)
  | listed (hc : Names code "LIST") : Carried s code (.ok () (s.tell (s.listing.map .line ++ [ready])))
  | cleared (hc : Names code "CLS") : Carried s code (.ok () (s.tell [.clear, ready]))
  | renewed (hc : Names code "NEW") (hs : s.running = false) : Carried s code
      (.ok () (tell { s with program := [], compiled := [], vars := {} } [ready]))

variable {s : Session} {code : String}

lemma message_editWhileRunning :
    (Diagnostic.of .editWhileRunning none).message = "CANNOT EDIT WHILE RUNNING" := by
  have hu : Text.upper "CANNOT EDIT WHILE RUNNING" = "CANNOT EDIT WHILE RUNNING" := by decide +kernel
  exact hu

lemma length_of_splitLine? {digits : List Nat} {body : String}
    (hl : Program.splitLine? code = some (digits, body)) :
    digits.length = (code.toList.takeWhile Text.isDigit).length := by
  simp only [Program.splitLine?] at hl
  split_ifs at hl
  obtain ⟨rfl, -⟩ := Prod.mk.inj (Option.some.inj hl)
  apply List.filterMap_length_eq_length.mpr
  intro c hc
  have hd : Text.isDigit c = true := List.mem_takeWhile_imp hc
  exact hd

lemma overlong_iff {digits : List Nat} {body : String}
    (hl : Program.splitLine? code = some (digits, body)) :
    Overlong code ↔ Fault.digitLimit < digits.length := by
  rw [Overlong, length_of_splitLine? hl]

lemma not_overlong_of_word (hl : Program.splitLine? code = none) : ¬ Overlong code := by
  simp only [Program.splitLine?] at hl
  split_ifs at hl with hd
  simp [Overlong, List.isEmpty_iff.mp hd]

lemma edit_carried {digits : List Nat} {body : String}
    (hl : Program.splitLine? code = some (digits, body)) :
    Carried s code ((do storeLine (← lineNumber digits) body : Act Unit).run s) := by
  simp only [EStateM.run_bind, lineNumber, run_ofExcept, Program.lineNumber]
  by_cases hd : Fault.digitLimit < digits.length
  · simp only [if_pos hd]
    exact .overlong hl hd
  · simp only [if_neg hd, storeLine_run]
    have ho : ¬ Overlong code := (overlong_iff hl).not.mpr hd
    split_ifs with hs hn
    · exact .refused ho (message_editWhileRunning ▸ .edit hl hs)
    · refine .refused ho ?_
      rw [message_of_grammar rfl]
      exact .zero hl (by simpa using hs) (by omega)
    · exact .stored hl (by omega) (by simpa using hs) (by omega)

lemma command_carried (s : Session) (code : String) : Carried s code ((command .passive code).run s) := by
  rw [command]
  split
  · rename_i digits body hl
    exact edit_carried hl
  · rename_i hl
    split
    · rename_i hc
      obtain ⟨t, ht⟩ := exists_run_passive s
      rw [ht]
      exact .run ⟨hl, hc⟩ ht
    · rename_i hc
      have ht := Carried.listed (s := s) ⟨hl, hc⟩
      simpa [emitLines_passive, ← tell_tell, ← tell_record, tell_nil] using ht
    · rename_i hc
      have ht := Carried.cleared (s := s) ⟨hl, hc⟩
      simpa [← tell_record, tell_nil] using ht
    · rename_i hc
      cases hs : s.running with
      | true =>
        simp only [EStateM.run_bind, new_run, hs, if_pos]
        exact .refused (not_overlong_of_word hl) (message_editWhileRunning ▸ .new ⟨hl, hc⟩ hs)
      | false =>
        have ht := Carried.renewed (s := s) ⟨hl, hc⟩ hs
        simpa [new_run, hs, ← tell_record, tell_nil] using ht
    · rename_i hrun hlist hcls hnew
      have hw : Text.upper code ∉ ["RUN", "LIST", "CLS", "NEW"] := by
        simpa using ⟨hrun, hlist, hcls, hnew⟩
      refine .refused (not_overlong_of_word hl) ?_
      rw [message_of_grammar rfl]
      exact .unknown hl hw

def IsReport (e : Event) : Prop := ∃ message, e = .line ("?" ++ message)

/-- What a command that returns leaves of a session, by what is wrong with it. -/
inductive Outcome (s : Session) (code : String) : Session → Prop
  | refused {message : String} (hr : Refuses s code message) : Outcome s code
      (s.tell (.line ("?" ++ message) :: if s.running then [] else [ready]))
  | faulty (hc : Names code "RUN") (hs : s.phase = .idle) {n : Int} {message : String}
      (hf : FirstFault s.depth s.program n message) (compiled : Numbered Stmt) : Outcome s code
        (tell { s with vars := {}, compiled } [.line ("?" ++ message ++ " IN " ++ toString n), ready])
  | done {t : Session} {told : List Event} (hx : Carried s code (.ok () t))
      (hr : ∀ message, ¬ Refuses s code message)
      (hf : Names code "RUN" → s.phase = .idle → AllRead s.depth s.program)
      (ht : t.events.toList = s.events.toList ++ told) (hq : ∀ e ∈ told, ¬ IsReport e) :
      Outcome s code t

lemma Refuses.of_line {digits : List Nat} {body message : String} (h : Refuses s code message)
    (hl : Program.splitLine? code = some (digits, body)) :
    s.running = true ∨ Text.natOfDigits digits = 0 := by
  cases h with
  | edit _ hs => exact .inl hs
  | zero hl' _ hn =>
    obtain ⟨rfl, -⟩ := Prod.mk.inj (Option.some.inj (hl.symm.trans hl'))
    exact .inr hn
  | new hc _ => cases hl.symm.trans hc.1
  | unknown hl' _ => cases hl.symm.trans hl'

lemma Refuses.of_word {message word : String} (h : Refuses s code message) (hc : Names code word) :
    word = "NEW" ∧ s.running = true ∨ word ∉ ["RUN", "LIST", "CLS", "NEW"] := by
  obtain ⟨hl, rfl⟩ := hc
  cases h with
  | edit hl' _ => cases hl.symm.trans hl'
  | zero hl' _ _ => cases hl.symm.trans hl'
  | new hc hs => exact .inl ⟨hc.2, hs⟩
  | unknown _ hc => exact .inr hc

lemma not_isReport_line {text : String} (h : text.toList.head? ≠ some '?') : ¬ IsReport (.line text) := by
  rintro ⟨message, hm⟩
  obtain rfl := Event.line.inj hm
  simp at h

lemma not_isReport_ready : ¬ IsReport ready := not_isReport_line (by decide)

lemma not_isReport_clear : ¬ IsReport .clear := by
  rintro ⟨message, hm⟩
  cases hm

lemma head?_toString (n : Int) (text : String) : (toString n ++ text).toList.head? ≠ some '?' := by
  cases n with
  | ofNat n =>
    obtain ⟨c, cs, hd⟩ := List.exists_cons_of_ne_nil (Nat.toDigits_ne_nil (n := n) (b := 10))
    have hc := Nat.isDigit_of_mem_toDigits (by decide) (by decide) (hd ▸ List.mem_cons_self)
    have hs : toString (Int.ofNat n) = String.ofList (c :: cs) := by
      rw [← hd, ← Nat.toString_eq_ofList_toDigits]
      rfl
    simp only [hs, String.toList_append, String.toList_ofList, List.cons_append, List.head?_cons]
    rintro ⟨⟩
    cases hc
  | negSucc n =>
    have hs : toString (Int.negSucc n) = "-" ++ toString (n + 1) := rfl
    simp [hs]

lemma not_isReport_listing {e : Event} (he : e ∈ s.listing.map Event.line) : ¬ IsReport e := by
  obtain ⟨text, ht, rfl⟩ := List.mem_map.mp he
  obtain ⟨⟨n, code⟩, -, rfl⟩ := List.mem_map.mp ht
  apply not_isReport_line
  simpa only [String.append_assoc] using head?_toString n (" " ++ code)

lemma Names.eq {word word' : String} (h : Names code word) (h' : Names code word') : word = word' :=
  h.2.symm.trans h'.2

lemma run_outcome (h : s.Coherent) (hc : Names code "RUN") {t : Session}
    (ht : (run .passive).run s = .ok () t) : Outcome s code t := by
  have hx := Carried.run hc ht
  have hr (message : String) : ¬ Refuses s code message := by
    intro hr
    simpa using hr.of_word hc
  by_cases hs : s.phase = .idle
  · rcases hl : compileLines s.depth s.program with ⟨compiled, none | ⟨n, d⟩⟩
    · have ha := allRead_of_compileLines h.ascending hl
      rw [run_passive_of_ok hs hl] at ht
      cases ht
      cases compiled with
      | nil =>
        have he : (s.started []).events.toList = s.events.toList ++ [ready] := by
          simp [started, toList_finished]
        exact .done hx hr (fun _ _ => ha) he (by simp [not_isReport_ready])
      | cons => exact .done hx hr (fun _ _ => ha) (List.append_nil _).symm (by simp)
    · rw [run_passive_of_fault hs hl] at ht
      cases ht
      have hf := Outcome.faulty hc hs (firstFault_of_compileLines h.ascending hl).1 compiled
      simpa [← tell_record, tell_nil, record, Diagnostic.report] using hf
  · rw [run_passive_of_busy hs] at ht
    cases ht
    exact .done hx hr (fun _ hi => absurd hi hs) (List.append_nil _).symm (by simp)

lemma Carried.outcome (h : s.Coherent) {t : Session} (hx : Carried s code (.ok () t)) :
    Outcome s code t := by
  have hx' := hx
  cases hx with
  | stored hl hd hs hn =>
    refine .done hx' (fun message hr => ?_) (fun hc => ?_) (List.append_nil _).symm (by simp)
    · rcases hr.of_line hl with hs' | hn'
      · cases hs.symm.trans hs'
      · omega
    · cases hl.symm.trans hc.1
  | run hc ht => exact run_outcome h hc ht
  | listed hc =>
    refine .done hx' (fun message hr => by simpa using hr.of_word hc) (fun hn => ?_) (toList_tell _ _)
      fun e he => ?_
    · cases (by decide : "LIST" ≠ "RUN") (hc.eq hn)
    · rcases List.mem_append.mp he with he | he
      · exact not_isReport_listing he
      · obtain rfl := List.mem_singleton.mp he
        exact not_isReport_ready
  | cleared hc =>
    refine .done hx' (fun message hr => by simpa using hr.of_word hc) (fun hn => ?_) (toList_tell _ _)
      (by simp [not_isReport_clear, not_isReport_ready])
    cases (by decide : "CLS" ≠ "RUN") (hc.eq hn)
  | renewed hc hs =>
    refine .done hx' (fun message hr => ?_) (fun hn => ?_) (toList_tell _ _) (by simp [not_isReport_ready])
    · simpa [hs] using hr.of_word hc
    · cases (by decide : "NEW" ≠ "RUN") (hc.eq hn)

section Delivery

variable {text : String} (hs : s.phase ≠ .awaiting)

include hs

lemma deliver_overlong (ho : Overlong (Text.trim text)) : (deliver .passive text).run s =
    .error (.longNumeral ((Text.trim text).toList.takeWhile Text.isDigit).length)
      (s.echoed (.line (">" ++ text))) := by
  have hx := command_carried (s.echoed (.line (">" ++ text))) (Text.trim text)
  rw [deliver_passive hs, run_reporting]
  generalize (command .passive (Text.trim text)).run _ = x at hx ⊢
  cases hx with
  | overlong hl hd => rw [length_of_splitLine? hl]
  | refused ho' _ => exact absurd ho ho'
  | stored hl hd hs hn => exact absurd ((overlong_iff hl).mp ho) (by omega)
  | run hc ht => exact absurd ho (not_overlong_of_word hc.1)
  | listed hc => exact absurd ho (not_overlong_of_word hc.1)
  | cleared hc => exact absurd ho (not_overlong_of_word hc.1)
  | renewed hc hs => exact absurd ho (not_overlong_of_word hc.1)

lemma deliver_outcome (h : s.Coherent) (ho : ¬ Overlong (Text.trim text)) :
    ∃ t, (deliver .passive text).run s = .ok () t ∧
      Outcome (s.echoed (.line (">" ++ text))) (Text.trim text) t := by
  have hx := command_carried (s.echoed (.line (">" ++ text))) (Text.trim text)
  rw [deliver_passive hs, run_reporting]
  generalize (command .passive (Text.trim text)).run _ = x at hx ⊢
  cases x with
  | ok _ t => exact ⟨t, rfl, hx.outcome (h.echoed _)⟩
  | error fault t =>
    cases hx with
    | overlong hl hd => exact absurd ((overlong_iff hl).mpr hd) ho
    | refused _ hr => exact ⟨_, reportCommand_passive _ _, .refused hr⟩

end Delivery

theorem deliver_refuses_or_carries_out {depth : Nat} (h : Reachable depth s) (hs : s.phase ≠ .awaiting)
    (text : String) :
    let code := Text.trim text
    let shown := s.echoed (.line (">" ++ text))
    (Overlong code → (deliver .passive text).run s =
      .error (.longNumeral (code.toList.takeWhile Text.isDigit).length) shown) ∧
    (¬ Overlong code → ∃ t, (deliver .passive text).run s = .ok () t ∧ Outcome shown code t) :=
  ⟨deliver_overlong hs, deliver_outcome hs h.coherent⟩

theorem renewal_refused_while_running : muddled.running = true ∧ ¬ Overlong (Text.trim " New") ∧
    ∃ t, (deliver .passive " New").run muddled = .ok () t ∧
      Outcome (muddled.echoed (.line "> New")) (Text.trim " New") t ∧
      t.events.toList = [.line "> New", .line "?CANNOT EDIT WHILE RUNNING"] ∧
      t.listing = ["10 PRINT \"A\" + 1"] := by
  have ho : ¬ Overlong (Text.trim " New") := by decide +kernel
  obtain ⟨t, ht, hr⟩ :=
    (deliver_refuses_or_carries_out muddled_reachable (by decide +kernel) " New").2 ho
  have hx : t = after (deliver .passive " New") muddled := by rw [after, ht]
  exact ⟨by decide +kernel, ho, t, ht, hr, by rw [hx]; decide +kernel, by rw [hx]; decide +kernel⟩

lemma deliver_zeros {n : Nat} (hn : Fault.digitLimit < n) :
    (deliver .passive (.ofList (.replicate n '0'))).run {} =
      .error (.longNumeral n) { events := #[.line (">" ++ .ofList (.replicate n '0'))] } := by
  have ht : Text.trim (.ofList (.replicate n '0')) = .ofList (.replicate n '0') := by
    have hz (c : Char) (hc : c ∈ List.replicate n '0') : Text.isBlank c = false := by
      obtain rfl := List.eq_of_mem_replicate hc
      decide
    apply Text.trim_of_trimmed
    rw [String.toList_ofList]
    exact ⟨fun c hc => hz c (List.mem_of_mem_head? hc), fun c hc => hz c (List.mem_of_getLast? hc)⟩
  have hd : (String.ofList (.replicate n '0')).toList.takeWhile Text.isDigit = .replicate n '0' := by
    rw [String.toList_ofList, List.takeWhile_eq_self_iff]
    intro c hc
    obtain rfl := List.eq_of_mem_replicate hc
    decide
  have ho : Overlong (Text.trim (.ofList (.replicate n '0'))) := by
    rw [ht, Overlong, hd, List.length_replicate]
    exact hn
  have hp : ({} : Session).phase ≠ .awaiting := by decide
  rw [deliver_overlong hp ho, ht, hd, List.length_replicate]
  rfl

/-- As many zeros as are read name the line 0 and are refused; one more ends the call. -/
theorem long_zero_ends_call : (deliver .passive (.ofList (.replicate 4301 '0'))).run {} =
    .error (.longNumeral 4301) { events := #[.line (">" ++ .ofList (.replicate 4301 '0'))] } :=
  deliver_zeros (by decide)

end Session

end LineBasic
