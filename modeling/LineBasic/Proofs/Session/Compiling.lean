import LineBasic.Proofs.Session.Coherence

/-! Starting a run. Either every stored line reads as a statement and the run begins at the first
of them, or the first line that does not is reported and nothing is run. -/

namespace LineBasic.Session

/-- What a stored line comes to: its statement, or the message of the fault that refuses it. -/
inductive Reads (depth : Nat) (code : String) (n : Int) : Except String Stmt → Prop
  | statement {ts : List Token} {stmt : Stmt} (hs : Token.scan code n = .ok ts)
      (hn : Parse.nesting ts ≤ depth) (hp : Parse.parse ts = .ok stmt) :
      Reads depth code n (.ok stmt)
  | unscanned {d : Diagnostic} (hs : Token.scan code n = .error d) : Reads depth code n (.error d.message)
  | nested {ts : List Token} (hs : Token.scan code n = .ok ts)
      (hn : depth < Parse.nesting ts) : Reads depth code n (.error "SYNTAX ERROR")
  | unparsed {ts : List Token} {d : Diagnostic} (hs : Token.scan code n = .ok ts)
      (hn : Parse.nesting ts ≤ depth) (hp : Parse.parse ts = .error d) :
      Reads depth code n (.error d.message)

def AllRead (depth : Nat) (p : Program) : Prop :=
  ∀ n code, p.find? n = some code → ∃ stmt, Reads depth code n (.ok stmt)

structure FirstFault (depth : Nat) (p : Program) (n : Int) (message : String) : Prop where
  refused : ∃ code, p.find? n = some code ∧ Reads depth code n (.error message)
  below : ∀ m code, p.find? m = some code → m < n → ∃ stmt, Reads depth code m (.ok stmt)

lemma message_of_grammar {cause : Cause} (h : cause.wording = Category.grammarMessage)
    (line : Option Int) : (Diagnostic.of cause line).message = "SYNTAX ERROR" := by
  have hu : Text.upper "SYNTAX ERROR" = "SYNTAX ERROR" := by decide +kernel
  exact (congrArg Text.upper h).trans hu

lemma message_nestedTooDeeply (n : Int) :
    (Diagnostic.of .nestedTooDeeply (some n)).message = "SYNTAX ERROR" := message_of_grammar rfl _

section Reads

variable {depth : Nat} {code : String} {n : Int}

lemma compileLine_of_scan {ts : List Token} (hs : Token.scan code n = .ok ts) :
    Parse.compileLine depth code n =
      if depth < Parse.nesting ts then .error (.of .nestedTooDeeply (some n))
      else Parse.parse ts := by
  rw [Parse.compileLine, hs]
  rfl

lemma reads_iff {r : Except String Stmt} :
    Reads depth code n r ↔ (Parse.compileLine depth code n).mapError (·.message) = r := by
  constructor
  · intro h
    cases h with
    | statement hs hn hp => rw [compileLine_of_scan hs, if_neg (by omega), hp]; rfl
    | unscanned hs => rw [Parse.compileLine, hs]; rfl
    | nested hs hn =>
      rw [compileLine_of_scan hs, if_pos hn, Except.mapError, message_nestedTooDeeply]
    | unparsed hs hn hp => rw [compileLine_of_scan hs, if_neg (by omega), hp]; rfl
  · rintro rfl
    cases hs : Token.scan code n with
    | error d =>
      rw [Parse.compileLine, hs]
      exact .unscanned hs
    | ok ts =>
      rw [compileLine_of_scan hs]
      split
      · rename_i hn
        rw [Except.mapError, message_nestedTooDeeply]
        exact .nested hs hn
      · rename_i hn
        cases hp : Parse.parse ts with
        | error d => exact .unparsed hs (by omega) hp
        | ok stmt => exact .statement hs (by omega) hp

lemma reads_ok_iff {stmt : Stmt} :
    Reads depth code n (.ok stmt) ↔ Parse.compileLine depth code n = .ok stmt := by
  rw [reads_iff]
  cases Parse.compileLine depth code n <;> simp [Except.mapError]

lemma Reads.of_error {d : Diagnostic} (h : Parse.compileLine depth code n = .error d) :
    Reads depth code n (.error d.message) := by
  rw [reads_iff, h]
  rfl

end Reads

variable {depth : Nat}

lemma compileLines_fault {p : Program} {compiled : Numbered Stmt} {n : Int} {d : Diagnostic}
    (h : compileLines depth p = (compiled, some (n, d))) :
    ∃ front code back, p = front ++ (n, code) :: back ∧ compileLines depth front = (compiled, none) ∧
      Parse.compileLine depth code n = .error d := by
  induction p generalizing compiled with
  | nil => cases h
  | cons c p ih =>
    obtain ⟨m, code⟩ := c
    simp only [compileLines] at h
    cases hl : Parse.compileLine depth code m with
    | error d' =>
      simp only [hl, Prod.mk.injEq, Option.some.injEq] at h
      obtain ⟨rfl, rfl, rfl⟩ := h
      exact ⟨[], code, p, rfl, rfl, hl⟩
    | ok stmt =>
      simp only [hl, Prod.mk.injEq] at h
      obtain ⟨rfl, hf⟩ := h
      obtain ⟨front, code', back, rfl, hc, hd⟩ := ih (Prod.ext rfl hf)
      exact ⟨(m, code) :: front, code', back, rfl, by simp only [compileLines, hl, hc], hd⟩

section Compiled

variable {p : Program} {compiled : Numbered Stmt} {n : Int} {code : String}

lemma exists_compiled (hp : p.Ascending) (h : compileLines depth p = (compiled, none))
    (hc : p.find? n = some code) : ∃ stmt, compiled.find? n = some stmt ∧ Reads depth code n (.ok stmt) := by
  have hn : n ∈ compiled.numbers := by
    rw [compileLines_numbers h]
    exact List.mem_map_of_mem ((Numbered.find?_eq_some_iff hp).mp hc)
  obtain ⟨stmt, hf⟩ := Numbered.exists_find? (compileLines_ascending hp h) hn
  obtain ⟨code', hc', hl⟩ := compileLines_find? hp h hf
  obtain rfl := Option.some.inj (hc.symm.trans hc')
  exact ⟨stmt, hf, reads_ok_iff.mpr hl⟩

lemma allRead_of_compileLines (hp : p.Ascending) (h : compileLines depth p = (compiled, none)) :
    AllRead depth p := by
  intro n code hc
  obtain ⟨stmt, -, hr⟩ := exists_compiled hp h hc
  exact ⟨stmt, hr⟩

lemma find?_compileLines (hp : p.Ascending) (h : compileLines depth p = (compiled, none)) {stmt : Stmt} :
    compiled.find? n = some stmt ↔ ∃ code, p.find? n = some code ∧ Reads depth code n (.ok stmt) := by
  constructor
  · intro hf
    obtain ⟨code, hc, hl⟩ := compileLines_find? hp h hf
    exact ⟨code, hc, reads_ok_iff.mpr hl⟩
  · rintro ⟨code, hc, hr⟩
    obtain ⟨stmt', hf, hr'⟩ := exists_compiled hp h hc
    rw [hf, Except.ok.inj ((reads_ok_iff.mp hr).symm.trans (reads_ok_iff.mp hr'))]

end Compiled

lemma find?_front {front back : Program} {n : Int} {code : String}
    (h : Numbered.Ascending (front ++ (n, code) :: back)) {m : Int} {code' : String} :
    Numbered.find? m front = some code' ↔
      m < n ∧ Numbered.find? m (front ++ (n, code) :: back) = some code' := by
  have hn : Numbered.numbers (front ++ (n, code) :: back) =
      Numbered.numbers front ++ n :: Numbered.numbers back := by simp [Numbered.numbers]
  have hp := h
  rw [Numbered.Ascending, hn, List.pairwise_append] at hp
  obtain ⟨hf, hb, hfb⟩ := hp
  rw [Numbered.find?_eq_some_iff hf, Numbered.find?_eq_some_iff h, List.mem_append, List.mem_cons]
  constructor
  · intro hm
    exact ⟨hfb m (List.mem_map_of_mem hm) n List.mem_cons_self, .inl hm⟩
  · rintro ⟨hlt, hm | hm | hm⟩
    · exact hm
    · obtain ⟨rfl, -⟩ := Prod.mk.inj hm
      exact absurd hlt (lt_irrefl m)
    · have hgt := (List.pairwise_cons.mp hb).1 m (List.mem_map_of_mem hm)
      omega

lemma firstFault_of_compileLines {p : Program} {compiled : Numbered Stmt} {n : Int} {d : Diagnostic}
    (hp : p.Ascending) (h : compileLines depth p = (compiled, some (n, d))) :
    FirstFault depth p n d.message ∧ compiled.Ascending ∧ ∀ m stmt, compiled.find? m = some stmt ↔
      m < n ∧ ∃ code, p.find? m = some code ∧ Reads depth code m (.ok stmt) := by
  obtain ⟨front, code, back, rfl, hc, hd⟩ := compileLines_fault h
  have hf : Numbered.Ascending front := by
    have hp' := hp
    rw [Numbered.Ascending, Numbered.numbers, List.map_append, List.pairwise_append] at hp'
    exact hp'.1
  refine ⟨⟨⟨code, ?_, .of_error hd⟩, ?_⟩, compileLines_ascending hf hc, ?_⟩
  · rw [Numbered.find?_eq_some_iff hp]
    simp
  · intro m code' hm hlt
    exact allRead_of_compileLines hf hc m code' ((find?_front hp).mpr ⟨hlt, hm⟩)
  · intro m stmt
    simp only [find?_compileLines hf hc, find?_front hp, and_assoc, exists_and_left]

lemma AllRead.not_firstFault {p : Program} (h : AllRead depth p) {n : Int} {message : String}
    (hf : FirstFault depth p n message) : False := by
  obtain ⟨code, hc, hr⟩ := hf.refused
  obtain ⟨stmt, hs⟩ := h n code hc
  cases (reads_iff.mp hr).symm.trans (reads_iff.mp hs)

theorem run_starts_or_reports {s : Session} (h : Reachable depth s) (hs : s.phase = .idle) :
    (AllRead s.depth s.program → ∃ t, (run .passive).run s = .ok () t ∧ t.program = s.program ∧
      t.compiled.Ascending ∧ (∀ n stmt, t.compiled.find? n = some stmt ↔
        ∃ code, s.program.find? n = some code ∧ Reads s.depth code n (.ok stmt)) ∧
      t.vars = {} ∧ t.pending = none ∧ t.pc = 0 ∧
      t.phase = (if s.program.isEmpty then .idle else .executing) ∧
      t.events = (if s.program.isEmpty then s.events.push (.line "Ready") else s.events)) ∧
    (¬ AllRead s.depth s.program → ∃ n message compiled, FirstFault s.depth s.program n message ∧
      (run .passive).run s = .ok () { s with
        phase := .idle
        pending := none
        vars := {}
        compiled
        events := (s.events.push (.line ("?" ++ message ++ " IN " ++ toString n))).push (.line "Ready") } ∧
      compiled.Ascending ∧ ∀ m stmt, compiled.find? m = some stmt ↔
        m < n ∧ ∃ code, s.program.find? m = some code ∧ Reads s.depth code m (.ok stmt)) := by
  have hc := h.coherent
  rcases hl : compileLines s.depth s.program with ⟨compiled, none | ⟨n, d⟩⟩
  · refine ⟨fun _ => ?_, fun hn => (hn (allRead_of_compileLines hc.ascending hl)).elim⟩
    have he : s.program.isEmpty = compiled.isEmpty := by
      have hn := congrArg List.isEmpty (compileLines_numbers hl)
      simpa [Numbered.numbers] using hn.symm
    refine ⟨_, run_passive_of_ok hs hl, ?_⟩
    rw [he]
    have hm := compileLines_ascending hc.ascending hl
    have hf := fun n stmt => @find?_compileLines _ _ _ n hc.ascending hl stmt
    cases compiled with
    | nil => exact ⟨rfl, hm, hf, rfl, rfl, rfl, rfl, rfl⟩
    | cons => exact ⟨rfl, hm, hf, rfl, rfl, rfl, rfl, rfl⟩
  · obtain ⟨hf, hm, hb⟩ := firstFault_of_compileLines hc.ascending hl
    refine ⟨fun ha => (ha.not_firstFault hf).elim, fun _ => ⟨n, d.message, compiled, hf, ?_, hm, hb⟩⟩
    rw [run_passive_of_fault hs hl, ← hs, ← hc.pending_none hs]
    rfl

def misprinted : Session :=
  after (storeLine 10 "CLS") (after (storeLine 20 "PRINT") (after (storeLine 30 "GOTO") {}))

lemma misprinted_reachable : Reachable 240 misprinted :=
  (((Reachable.fresh true).call (.store 30 "GOTO")).call (.store 20 "PRINT")).call (.store 10 "CLS")

lemma misprinted_not_allRead : ¬ AllRead misprinted.depth misprinted.program := by
  intro ha
  obtain ⟨stmt, hr⟩ := ha 20 "PRINT" (by decide +kernel)
  have hok : (Parse.compileLine misprinted.depth "PRINT" 20).isOk = false := by decide +kernel
  rw [reads_ok_iff.mp hr] at hok
  cases hok

lemma parrot_allRead : AllRead parrot.depth parrot.program :=
  allRead_of_compileLines parrot_reachable.coherent.ascending
    (Prod.ext rfl (Option.isNone_iff_eq_none.mp (by decide +kernel)))

theorem misprint_reported :
    (∃ t, (run .passive).run parrot = .ok () t ∧ t.phase = .executing ∧ t.pc = 0 ∧ t.events = #[]) ∧
    ∃ n message t, FirstFault misprinted.depth misprinted.program n message ∧
      (run .passive).run misprinted = .ok () t ∧ t.phase = .idle ∧ t.vars = {} ∧
      "?" ++ message ++ " IN " ++ toString n = "?SYNTAX ERROR IN 20" := by
  constructor
  · obtain ⟨t, ht, -, -, -, -, -, hpc, hp, he⟩ :=
      (run_starts_or_reports parrot_reachable (by decide +kernel)).1 parrot_allRead
    exact ⟨t, ht, hp, hpc, he⟩
  · obtain ⟨n, message, compiled, hf, ht, -⟩ :=
      (run_starts_or_reports misprinted_reachable (by decide +kernel)).2 misprinted_not_allRead
    refine ⟨n, message, _, hf, ht, rfl, rfl, ?_⟩
    have he : (after (run .passive) misprinted).events = #[.line "?SYNTAX ERROR IN 20", .line "Ready"] := by
      decide +kernel
    have hm : misprinted.events = #[] := by decide +kernel
    simpa [after, ht, hm] using he

end LineBasic.Session
