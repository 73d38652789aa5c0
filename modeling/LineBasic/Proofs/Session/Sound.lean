import LineBasic.Proofs.Session.LineRun

/-! Sessions whose variables hold texts and numbers only. Every call keeps them so, a step of such a
session always returns, and whatever goes wrong in its statement is told to the host. -/

namespace LineBasic.Session

structure Sound (s : Session) : Prop where
  coherent : s.Coherent
  plain : s.vars.Plain

variable {depth : Nat} {s : Session}

lemma plain_empty : Variables.Plain {} := by
  intro b hb
  cases hb

def Preserves {α : Type} (P : Session → Prop) (act : Act α) : Prop := ∀ s, P s → P (after act s)

section Preserves

variable {α β : Type} {P : Session → Prop}

lemma Preserves.bind {act : Act α} {next : α → Act β} (ha : Preserves P act)
    (hn : ∀ a, Preserves P (next a)) : Preserves P (act >>= next) := fun s hs => after_bind (ha s hs) hn

lemma Preserves.reporting {act : Act α} {report : Diagnostic → Act α} (ha : Preserves P act)
    (hr : ∀ d, Preserves P (report d)) : Preserves P (reporting act report) :=
  fun s hs => after_reporting (ha s hs) hr

lemma Preserves.and {Q : Session → Prop} {act : Act α} (hp : Preserves P act) (hq : Preserves Q act) :
    Preserves (fun s => P s ∧ Q s) act := fun s hs => ⟨hp s hs.1, hq s hs.2⟩

lemma preserves_pure (a : α) : Preserves P (pure a : Act α) := fun _ hs => hs

lemma preserves_get : Preserves P (get : Act Session) := fun _ hs => hs

lemma preserves_fail (cause : Cause) : Preserves P (fail cause : Act α) := fun _ hs => hs

lemma preserves_ofExcept (x : Except Fault α) : Preserves P (ofExcept x) := by
  intro s hs
  cases x <;> exact hs

lemma preserves_loadLine (hs : ∀ n code, Preserves P (storeLine n code)) (text : String) :
    Preserves P (loadLine text) := by
  rw [loadLine]
  split
  · exact preserves_fail _
  · have hl {body : String} {digits : List Nat} :
        Preserves P (do storeLine (← lineNumber digits) body) :=
      (preserves_ofExcept _).bind fun number => hs number _
    split
    · exact (preserves_fail _).bind fun _ => hl
    · exact hl

lemma preserves_loadLines {texts : List String} (h : ∀ text ∈ texts, Preserves P (loadLine text))
    (count : Nat) : Preserves P (loadLines count texts) := by
  induction texts generalizing count with
  | nil => exact preserves_pure count
  | cons text texts ih =>
    obtain ⟨ht, hts⟩ := List.forall_mem_cons.mp h
    exact ht.bind fun _ => ih hts (count + 1)

lemma preserves_advanceFrom (hs : Preserves P (step .passive)) (done limit : Nat) :
    Preserves P (advanceFrom .passive done limit) := by
  induction limit generalizing done with
  | zero => exact preserves_pure done
  | succ limit ih =>
    refine preserves_get.bind fun t => ?_
    split
    · exact hs.bind fun _ => ih (done + 1)
    · exact preserves_pure done

lemma preserves_emitLines (he : ∀ e, Preserves P (emit .passive e)) (texts : List String) :
    Preserves P (emitLines .passive texts) := by
  induction texts with
  | nil => exact preserves_pure ()
  | cons text texts ih => exact (he _).bind fun _ => ih

lemma preserves_command (he : ∀ e, Preserves P (emit .passive e))
    (hs : ∀ n code, Preserves P (storeLine n code)) (hn : Preserves P new)
    (hr : Preserves P (run .passive)) (code : String) : Preserves P (command .passive code) := by
  rw [command]
  split
  · exact (preserves_ofExcept _).bind fun number => hs number _
  · split
    · exact hr
    · exact preserves_get.bind fun t => (preserves_emitLines he _).bind fun _ => he _
    · exact (he _).bind fun _ => he _
    · exact hn.bind fun _ => he _
    · exact preserves_fail _

lemma preserves_deliver {text : String} (he : ∀ e, Preserves P (emit .passive e))
    (hc : ∀ code, Preserves P (command .passive code)) (hs : Preserves P (submit .passive text)) :
    Preserves P (deliver .passive text) := by
  have hr (d : Diagnostic) : Preserves P (reportCommand .passive d) := by
    refine (he _).bind fun _ => preserves_get.bind fun t => ?_
    split
    · exact he _
    · exact preserves_pure ()
  refine preserves_get.bind fun t => ?_
  split
  · exact hs
  · have hc' := (hc (Text.trim text)).reporting hr
    split
    · exact (he _).bind fun _ => hc'
    · exact hc'

/-- What the acts that calls consist of preserve, every call preserves. -/
lemma Called.preserves (he : ∀ e, Preserves P (emit .passive e))
    (hst : ∀ n code, Preserves P (storeLine n code)) (hn : Preserves P Session.new)
    (hr : Preserves P (Session.run .passive)) (hsub : ∀ text, Preserves P (Session.submit .passive text))
    (hstep : Preserves P (Session.step .passive))
    (hstop : ∀ message, Preserves P (Session.stop .passive message)) {t : Session} (hc : Called s t)
    (h : P s) : P t := by
  have hcom := preserves_command he hst hn hr
  cases hc with
  | deliver text => exact preserves_deliver he hcom (hsub text) s h
  | submit text => exact hsub text s h
  | command code => exact hcom code s h
  | store number code => exact hst number code s h
  | load source => exact preserves_loadLines (fun text _ => preserves_loadLine hst text) 0 s h
  | list => exact h
  | new => exact hn s h
  | run => exact hr s h
  | step => exact hstep s h
  | advance limit => exact preserves_advanceFrom hstep 0 _ s h
  | exhaust n => exact preserves_advanceFrom hstep 0 n s h
  | stop message => exact hstop message s h

end Preserves

/-- What holds of the compiled lines and the variables is kept. -/
abbrev KeepsVars {α : Type} (P : Numbered Stmt → Variables → Prop) (act : Act α) : Prop :=
  Preserves (fun s => P s.compiled s.vars) act

section KeepsVars

variable {P : Numbered Stmt → Variables → Prop}

lemma keepsVars_emit (e : Event) : KeepsVars P (emit .passive e) := fun _ hs => hs

lemma keepsVars_storeLine (number : Int) (code : String) : KeepsVars P (storeLine number code) := by
  intro s hs
  simp only [after, storeLine_run]
  split_ifs <;> exact hs

lemma keepsVars_stop (message : Option String) : KeepsVars P (stop .passive message) := by
  intro s hs
  cases hr : s.running with
  | false => simpa only [after, stop_of_rest hr] using hs
  | true =>
    simp only [after, stop_of_running hr, finish_passive]
    split_ifs <;> exact hs

lemma keepsVars_submit {text : String} (ha : ∀ {compiled vars target vars'}, P compiled vars →
    answer vars target text = .ok vars' → P compiled vars') : KeepsVars P (submit .passive text) := by
  intro s hs
  by_cases hp : s.phase = .awaiting
  · cases hq : s.pending with
    | none => simpa [after, submit, hp, hq] using hs
    | some p =>
      simp only [after, submit_passive hp hq, accept_passive]
      cases hx : answer (s.echoed (.append text)).vars p.target text with
      | error fault => exact hs
      | ok vars =>
        simp only [moveTo_vars, moveTo_compiled]
        exact ha hs hx
  · simpa [after, submit, hp] using hs

variable (h₀ : ∀ compiled, P compiled {})

include h₀

lemma keepsVars_new : KeepsVars P new := by
  intro s hs
  simp only [after, new_run]
  split_ifs
  · exact hs
  · exact h₀ []

lemma keepsVars_run : KeepsVars P (run .passive) := by
  intro s hs
  by_cases hp : s.phase = .idle
  · rcases hc : compileLines s.depth s.program with ⟨compiled, none | ⟨n, d⟩⟩
    · simp only [after, run_passive_of_ok hp hc, started]
      split <;> exact h₀ compiled
    · simpa only [after, run_passive_of_fault hp hc] using h₀ compiled
  · simpa only [after, run_passive_of_busy hp] using hs

lemma keepsVars_command (code : String) : KeepsVars P (command .passive code) :=
  preserves_command keepsVars_emit keepsVars_storeLine (keepsVars_new h₀) (keepsVars_run h₀) code

lemma keepsVars_deliver {text : String} (ha : ∀ {compiled vars target vars'}, P compiled vars →
    answer vars target text = .ok vars' → P compiled vars') : KeepsVars P (deliver .passive text) :=
  preserves_deliver keepsVars_emit (keepsVars_command h₀) (keepsVars_submit ha)

end KeepsVars

/-- An answer sets the variable that it is for to a value of the type that the name asks for. -/
lemma answer_set {vars vars' : Variables} {target : Expr} {text : String}
    (ha : answer vars target text = .ok vars') : ∃ name v, vars.set name v = .ok vars' ∧
      ((isTextName name = true ∧ v = .text text) ∨ (isTextName name = false ∧ ∃ x, v = .number x)) := by
  obtain ⟨name, -, h₁⟩ := Grammar.bind_ok ha
  cases hn : isTextName name with
  | true =>
    rw [hn] at h₁
    exact ⟨name, .text text, h₁, .inl ⟨hn, rfl⟩⟩
  | false =>
    rw [hn] at h₁
    cases hx : Value.ofAnswer text with
    | error fault =>
      rw [hx] at h₁
      cases h₁
    | ok x =>
      rw [hx] at h₁
      exact ⟨name, .number x, h₁, .inr ⟨hn, x, rfl⟩⟩

lemma answer_plain {vars vars' : Variables} {target : Expr} {text : String} (h : vars.Plain)
    (ha : answer vars target text = .ok vars') : vars'.Plain := by
  obtain ⟨name, v, hs, hv⟩ := answer_set ha
  have hp : v.Plain := by
    rcases hv with ⟨-, rfl⟩ | ⟨-, x, rfl⟩ <;> trivial
  rw [Variables.set_of_plain vars name hp] at hs
  cases hs
  exact Variables.put_plain hp h

lemma keepsPlain_deliver (text : String) : Preserves (·.vars.Plain) (deliver .passive text) :=
  keepsVars_deliver (P := fun _ vars => vars.Plain) (fun _ => plain_empty) answer_plain

lemma keepsPlain_stop (message : Option String) : Preserves (·.vars.Plain) (stop .passive message) :=
  keepsVars_stop (P := fun _ vars => vars.Plain) message

/-- A statement read from text has an effect, on texts and numbers again, or its types do not match. -/
lemma effect_plain {vars : Variables} {stmt : Stmt} (hv : vars.Plain) (hp : stmt.Plain) :
    (∃ e, effect vars stmt = .ok e ∧ ∀ vars' told, e = .proceed vars' told → vars'.Plain) ∨
      effect vars stmt = .error (.because .typeMismatch) := by
  have hm := @matches_execute [] ⟨.ended, vars, []⟩ 0 stmt hv hp
  generalize effect vars stmt = x at hm ⊢
  generalize LineRun.execute [] _ 0 stmt = r at hm
  cases hm with
  | proceed hv' =>
    refine .inl ⟨_, rfl, ?_⟩
    rintro vars' told ⟨⟩
    exact hv'
  | jump => exact .inl ⟨_, rfl, by simp⟩
  | ask => exact .inl ⟨_, rfl, by simp⟩
  | mismatch => exact .inr rfl

lemma settle_plain {n : Int} {x : Except Fault Effect} (h : s.vars.Plain)
    (hx : (∃ e, x = .ok e ∧ ∀ vars told, e = .proceed vars told → vars.Plain) ∨
      x = .error (.because .typeMismatch)) : ∃ t, s.settle n x = .ok () t ∧ t.vars.Plain := by
  rcases hx with ⟨e, rfl, he⟩ | rfl
  · cases e with
    | proceed vars told => exact ⟨_, rfl, by simpa only [moveTo_vars] using he vars told rfl⟩
    | jump target =>
      cases hr : resolve? s.order target with
      | none => exact ⟨s.halted n (.of .undefinedLine none), by simp only [settle, hr], h⟩
      | some i =>
        refine ⟨moveTo { s with stepping := false } i, by simp only [settle, hr], ?_⟩
        simpa only [moveTo_vars] using h
    | ask prompt target => exact ⟨_, rfl, h⟩
  · exact ⟨_, rfl, h⟩

lemma Coherent.exists_plain_statement (h : s.Coherent) (hs : s.phase = .executing) :
    ∃ n stmt, s.order[s.pc]? = some n ∧ Numbered.find? n s.compiled = some stmt ∧ stmt.Plain := by
  obtain ⟨n, stmt, hn, hf⟩ := h.exists_statement hs
  obtain ⟨code, -, hl⟩ := compileLines_find? h.ascending (h.executing hs).1.1 hf
  exact ⟨n, stmt, hn, hf, Parse.compileLine_plain hl⟩

/-- A step returns, and leaves a session that can be stepped again. -/
lemma Sound.step (h : s.Sound) : ∃ t, (step .passive).run s = .ok () t ∧ t.Sound := by
  by_cases hs : s.phase = .executing
  · obtain ⟨n, stmt, hn, hf, hp⟩ := h.coherent.exists_plain_statement hs
    have hx := step_passive hs h.coherent.stopRequested hn hf
    obtain ⟨t, ht, hv⟩ := settle_plain (n := n) h.plain (effect_plain h.plain hp)
    rw [ht] at hx
    have hc := keeps_step s h.coherent
    rw [after, hx] at hc
    exact ⟨t, hx, hc, hv⟩
  · exact ⟨s, step_passive_of_rest hs, h⟩

lemma Called.keepsVars {P : Numbered Stmt → Variables → Prop} (h₀ : ∀ compiled, P compiled {})
    (ha : ∀ {compiled vars target text vars'}, P compiled vars → answer vars target text = .ok vars' →
      P compiled vars')
    (hs : Preserves (fun u => u.Coherent ∧ P u.compiled u.vars) (Session.step .passive)) {t : Session}
    (hc : Called s t) (h : s.Coherent ∧ P s.compiled s.vars) : t.Coherent ∧ P t.compiled t.vars :=
  hc.preserves (P := fun u => u.Coherent ∧ P u.compiled u.vars)
    (fun e => .and (keeps_emit e) (keepsVars_emit e))
    (fun n code => .and (keeps_storeLine n code) (keepsVars_storeLine n code))
    (.and keeps_new (keepsVars_new h₀)) (.and keeps_run (keepsVars_run h₀))
    (fun text => .and (keeps_submit text) (keepsVars_submit ha)) hs
    (fun message => .and (keeps_stop message) (keepsVars_stop message)) h

lemma Called.sound {t : Session} (hc : Called s t) (h : s.Sound) : t.Sound := by
  have hs : Preserves (fun u => u.Coherent ∧ u.vars.Plain) (Session.step .passive) := by
    rintro u ⟨hu, hp⟩
    obtain ⟨v, hv, hsv⟩ := Sound.step ⟨hu, hp⟩
    rw [after, hv]
    exact ⟨hsv.coherent, hsv.plain⟩
  obtain ⟨hk, hp⟩ := hc.keepsVars (P := fun _ vars => vars.Plain) (fun _ => plain_empty) answer_plain hs
    ⟨h.coherent, h.plain⟩
  exact ⟨hk, hp⟩

lemma Reachable.sound (h : Reachable depth s) : s.Sound := by
  induction h with
  | fresh echo => exact ⟨(@Reachable.fresh depth echo).coherent, plain_empty⟩
  | call _ hc ih => exact hc.sound ih

lemma step_of_fault {n : Int} {stmt : Stmt} {fault : Fault} {u : Session} (hs : s.phase = .executing)
    (hq : s.stopRequested = false) (hn : s.order[s.pc]? = some n)
    (hf : Numbered.find? n s.compiled = some stmt) (hp : stmt.Plain) (hv : s.vars.Plain)
    (hx : (executeAt .passive n stmt).run { s with stepping := true } = .error fault u) :
    ∃ d, fault = .told d ∧ (step .passive).run s = .ok () (s.halted n d) := by
  rw [step_passive hs hq hn hf]
  rw [executeAt_passive (s := { s with stepping := true }) hs hq] at hx
  rcases effect_plain hv hp with ⟨e, he, -⟩ | he
  · simp only [he] at hx ⊢
    cases e with
    | proceed vars told => cases hx
    | jump target =>
      cases hj : resolve? s.order target with
      | none =>
        simp only [hj] at hx
        cases hx
        exact ⟨_, rfl, by simp only [settle, hj]⟩
      | some i =>
        simp only [hj] at hx
        cases hx
    | ask prompt target => cases hx
  · simp only [he] at hx ⊢
    cases hx
    exact ⟨_, rfl, rfl⟩

theorem step_always_returns (h : Reachable depth s) : ∃ t, (step .passive).run s = .ok () t ∧
    (s.phase ≠ .executing → t = s) ∧
    (s.phase = .executing → ∃ n stmt, s.order[s.pc]? = some n ∧
      Numbered.find? n s.compiled = some stmt ∧ stmt.Plain ∧ s.vars.Plain ∧
      ∀ fault u, (executeAt .passive n stmt).run { s with stepping := true } = .error fault u →
        ∃ d, fault = .told d ∧ t.phase = .idle ∧
          t.events.toList = s.events.toList ++ [.line (d.report (some n)), ready]) := by
  have hs := h.sound
  obtain ⟨t, ht, -⟩ := hs.step
  refine ⟨t, ht, fun hp => ?_, fun hp => ?_⟩
  · rw [step_passive_of_rest hp] at ht
    cases ht
    rfl
  · obtain ⟨n, stmt, hn, hf, hpl⟩ := hs.coherent.exists_plain_statement hp
    refine ⟨n, stmt, hn, hf, hpl, hs.plain, fun fault u hx => ?_⟩
    have hc := hs.coherent
    obtain ⟨d, rfl, hd⟩ := step_of_fault hp hc.stopRequested hn hf hpl hs.plain hx
    rw [hd] at ht
    cases ht
    refine ⟨d, rfl, rfl, ?_⟩
    rw [halted, toList_finished]
    simp [record, hc.stopReport]

/-- A session that has started to add a number to a text. -/
def muddled : Session := after (run .passive) (after (storeLine 10 "PRINT \"A\" + 1") {})

lemma muddled_reachable : Reachable 240 muddled :=
  ((Reachable.fresh true).call (.store 10 "PRINT \"A\" + 1")).call .run

theorem muddled_step_returns : muddled.phase = .executing ∧ ∃ t, (step .passive).run muddled = .ok () t ∧
    t.phase = .idle ∧ t.events.toList = [.line "?TYPE MISMATCH IN 10", ready] := by
  refine ⟨by decide +kernel, ?_⟩
  obtain ⟨t, ht, -⟩ := step_always_returns muddled_reachable
  have hx : t = after (step .passive) muddled := by rw [after, ht]
  exact ⟨t, ht, by rw [hx]; decide +kernel, by rw [hx]; decide +kernel⟩

end LineBasic.Session
