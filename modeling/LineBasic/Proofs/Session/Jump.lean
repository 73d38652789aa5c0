import LineBasic.Proofs.Session.LineRun
import LineBasic.Proofs.Token.Numeral

/-! Where a `GOTO` goes. A line number is kept as it is typed, while the target of a jump is read as a
float, so that a jump reaches the line that the nearest float stands for. -/

namespace LineBasic

namespace Number

variable {n : Nat}

lemma rounded_pos (hn : 0 < n) : 0 < rounded n := by
  have hb := (mantissa_bounds hn).1
  have hm := mantissa_mul hn
  rcases Nat.eq_zero_or_pos (rounded n) with hz | hp
  · rw [hz, zero_mul, Nat.mul_eq_zero] at hm
    rcases hm with hm | hm
    · omega
    · exact absurd hm (Nat.two_pow_pos _).ne'
  · exact hp

end Number

namespace Parse

lemma target?_nearest {n : Nat} (hn : 0 < n) : target? (.number (Number.nearest false n 1)) =
    if Number.rounded n < 2 ^ 1024 then some (Number.rounded n : Int) else none := by
  rw [target?, Number.integer?_nearest hn]
  split
  · simp [Number.rounded_pos hn]
  · rfl

lemma parse_goto {line a b c : Int} {lexeme : String} {literal : Value} {stmt : Stmt}
    (h : parse [⟨.goto, "GOTO", .absent, line, a⟩, ⟨.number, lexeme, literal, line, b⟩,
      Token.endToken line c] = .ok stmt) : ∃ m, target? literal = some m ∧ stmt = .goto m := by
  cases ht : target? literal with
  | none =>
    simp [parse, whole, statement, jump, expect, current, lineOf, ht, bind, Except.bind, throw, throwThe,
      MonadExceptOf.throw] at h
  | some m =>
    simp [parse, whole, statement, jump, expect, current, ht, bind, Except.bind, pure, Except.pure,
      Token.endToken] at h
    exact ⟨m, rfl, h.symm⟩

lemma compileLine_goto {n : Nat} (hn : 0 < n) {line : Int} {stmt : Stmt}
    {depth : Nat} (h : compileLine depth ("GOTO " ++ toString n) line = .ok stmt) :
    stmt = .goto (Number.rounded n) := by
  obtain ⟨ts, hs, hp⟩ := compileLine_ok h
  obtain ⟨a, b, c, hg⟩ := Token.scan_goto hn line
  obtain rfl := Except.ok.inj (hs.symm.trans hg)
  obtain ⟨m, hm, rfl⟩ := parse_goto hp
  rw [target?_nearest hn] at hm
  split at hm
  · rw [Option.some.inj hm]
  · cases hm

end Parse

namespace Session

open Number (Representable rounded)

variable {s : Session} {line : Int} {n : Nat}

lemma Coherent.find?_compiled (h : s.Coherent) (hs : s.phase = .executing)
    (hl : s.currentLine = some line) {code : String} (hc : s.program.find? line = some code) :
    ∃ stmt, s.order[s.pc]? = some line ∧ Numbered.find? line s.compiled = some stmt ∧
      Parse.compileLine s.depth code line = .ok stmt := by
  obtain ⟨m, stmt, hm, hf⟩ := h.exists_statement hs
  obtain rfl : m = line := by
    rw [Session.currentLine, hs] at hl
    exact Option.some.inj (hm.symm.trans hl)
  obtain ⟨code', hc', hk⟩ := compileLines_find? h.ascending (h.executing hs).1.1 hf
  obtain rfl := Option.some.inj (hc.symm.trans hc')
  exact ⟨stmt, hm, hf, hk⟩

lemma step_goto (h : s.Coherent) (hs : s.phase = .executing) (hl : s.currentLine = some line)
    (hn : 0 < n) (hc : s.program.find? line = some ("GOTO " ++ toString n)) :
    (step .passive).run s = s.settle line (.ok (.jump (rounded n))) := by
  obtain ⟨stmt, hm, hf, hk⟩ := h.find?_compiled hs hl hc
  obtain rfl := Parse.compileLine_goto hn hk
  exact step_passive hs h.stopRequested hm hf

lemma Coherent.order_pairwise (h : s.Coherent) (hs : s.phase = .executing) :
    s.order.toList.Pairwise (· < ·) := by
  rw [(h.executing hs).1.order_toList]
  exact h.ascending

lemma Coherent.resolve?_eq_some_iff (h : s.Coherent) (hs : s.phase = .executing) {target : Int} {i : Nat} :
    resolve? s.order target = some i ↔ (Numbered.numbers s.program)[i]? = some target := by
  rw [Session.resolve?_eq_some_iff (h.order_pairwise hs), ← Array.getElem?_toList,
    (h.executing hs).1.order_toList]

theorem goto_reaches_rounded_line {depth : Nat} (h : Reachable depth s) (hs : s.phase = .executing)
    (hl : s.currentLine = some line) (hn : 0 < n)
    (hc : s.program.find? line = some ("GOTO " ++ toString n)) :
    Representable (rounded n) ∧
    (∀ v, Representable v → ((n : ℤ) - rounded n).natAbs ≤ ((n : ℤ) - v).natAbs) ∧
    (rounded n = n ↔ Representable n) ∧
    (∀ i, (Numbered.numbers s.program)[i]? = some (rounded n : ℤ) →
      ∃ t, (step .passive).run s = .ok () t ∧ t.pc = i ∧ t.phase = .executing ∧ t.vars = s.vars ∧
        t.events = s.events) ∧
    ((rounded n : ℤ) ∉ Numbered.numbers s.program →
      ∃ t, (step .passive).run s = .ok () t ∧ t.phase = .idle ∧ t.vars = s.vars ∧
        t.events = (s.events.push (.line ("?UNDEFINED LINE NUMBER IN " ++ toString line))).push
          (.line "Ready")) := by
  have hco := h.coherent
  refine ⟨Number.rounded_representable hn, fun v hv => Number.rounded_nearest hn hv,
    Number.rounded_eq_iff hn, ?_, ?_⟩
  · intro i hi
    have hr := (hco.resolve?_eq_some_iff hs).mpr hi
    have hi' : ¬ s.order.size ≤ i := by
      have ho := (Session.resolve?_eq_some_iff (hco.order_pairwise hs)).mp hr
      exact Nat.not_le.mpr (Array.getElem?_eq_some_iff.mp ho).1
    rw [step_goto hco hs hl hn hc]
    refine ⟨{ s with stepping := false, pc := i }, ?_, rfl, hs, rfl, rfl⟩
    simp only [settle, hr, moveTo, if_neg hi']
  · intro hni
    have hr : resolve? s.order (rounded n) = none := by
      rw [Option.eq_none_iff_forall_ne_some]
      intro i hi
      exact hni (List.mem_of_getElem? ((hco.resolve?_eq_some_iff hs).mp hi))
    rw [step_goto hco hs hl hn hc]
    refine ⟨s.halted line (.of .undefinedLine none), by simp only [settle, hr], rfl, rfl, ?_⟩
    simp [halted, finished, record, hco.stopReport, Diagnostic.report, message_undefinedLine, ready]

/-- A run that comes to a jump to line `2 ^ 53 + 1`, with that line and the one before it stored. -/
def leap : Session :=
  after (run .passive) (after (storeLine 10 "GOTO 9007199254740993")
    (after (storeLine 9007199254740992 "CLS") (after (storeLine 9007199254740993 "CLS") {})))

lemma leap_reachable : Reachable 240 leap :=
  ((((Reachable.fresh true).call (.store 9007199254740993 "CLS")).call
    (.store 9007199254740992 "CLS")).call (.store 10 "GOTO 9007199254740993")).call .run

lemma leap_at : leap.phase = .executing ∧ leap.currentLine = some 10 ∧
    leap.program.find? 10 = some ("GOTO " ++ toString 9007199254740993) :=
  ⟨by decide +kernel, by decide +kernel, by decide +kernel⟩

theorem leap_falls_short : ∃ t, (step .passive).run leap = .ok () t ∧ t.pc = 1 ∧ t.phase = .executing := by
  obtain ⟨hs, hl, hc⟩ := leap_at
  have hi : (Numbered.numbers leap.program)[1]? = some ((rounded 9007199254740993 : ℕ) : ℤ) := by
    decide +kernel
  obtain ⟨-, -, -, hj, -⟩ := goto_reaches_rounded_line leap_reachable hs hl (by decide) hc
  obtain ⟨t, ht, hpc, hp, -⟩ := hj 1 hi
  exact ⟨t, ht, hpc, hp⟩

theorem goto_misses_stored_line : ¬ ∀ (depth : Nat) (s : Session) (line : Int) (n : Nat),
    Reachable depth s → s.phase = .executing → s.currentLine = some line → 0 < n →
    s.program.find? line = some ("GOTO " ++ toString n) →
    ∀ i, (Numbered.numbers s.program)[i]? = some (n : ℤ) → (after (step .passive) s).pc = i := by
  intro h
  obtain ⟨hs, hl, hc⟩ := leap_at
  have hpc := h 240 leap 10 9007199254740993 leap_reachable hs hl (by decide) hc 2 (by decide +kernel)
  revert hpc
  decide +kernel

end Session

end LineBasic
