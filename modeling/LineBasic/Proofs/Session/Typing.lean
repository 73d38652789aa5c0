import LineBasic.Proofs.Session.Sound
import LineBasic.Proofs.Tree.Typed

/-! The types of variables in a run. Answers and variables that were never set are of the type that
their names declare. Assignments are not checked: one of the other type is the only way to a variable
that breaks its promise. -/

namespace LineBasic.Session

def WellTyped (s : Session) : Prop := ∀ b ∈ s.compiled, b.2.isTyped = true

/-- The next statement assigns a variable a value of the other type. -/
def Misassigns (s : Session) : Prop :=
  s.phase = .executing ∧ ∃ n name e v, s.order[s.pc]? = some n ∧
    Numbered.find? n s.compiled = some (.assign (.var name) e) ∧ e.eval s.vars = .ok v ∧ ¬ v.Suits name

section Effect

variable {vars vars' : Variables} {stmt : Stmt}

lemma answer_typed {target : Expr} {text : String} (h : vars.Typed)
    (ha : answer vars target text = .ok vars') : vars'.Typed := by
  obtain ⟨name, v, hs, hv⟩ := answer_set ha
  have hv : v.Suits name := by
    rcases hv with ⟨hn, rfl⟩ | ⟨hn, x, rfl⟩
    · exact hn
    · exact hn
  exact (h.set_iff hv.plain hs).mpr hv

def varsAfter (vars : Variables) : Except Fault Effect → Variables
  | .ok (.proceed vars' _) => vars'
  | _ => vars

lemma varsAfter_of_not_assign (h : ∀ target e, stmt ≠ .assign target e) :
    varsAfter vars (effect vars stmt) = vars := by
  cases stmt with
  | assign target e => exact absurd rfl (h target e)
  | print e =>
    cases he : e.eval vars with
    | error fault => simp [effect, he, varsAfter]
    | ok v => cases hv : v.printed <;> simp [effect, he, hv, varsAfter]
  | input prompt target => cases hp : promptOf vars prompt <;> simp [effect, hp, varsAfter]
  | goto | rem | cls | foreign => rfl

/-- Only an assignment sets a variable, and whatever its value is. -/
lemma varsAfter_typed_iff (hv : vars.Typed) (hp : stmt.Plain) :
    (varsAfter vars (effect vars stmt)).Typed ↔
      ∀ name e v, stmt = .assign (.var name) e → e.eval vars = .ok v → v.Suits name := by
  by_cases ha : ∃ target e, stmt = .assign target e
  · obtain ⟨_, e, rfl⟩ := ha
    obtain ⟨⟨name, rfl⟩, he⟩ := hp
    rcases he.eval hv.plain with ⟨v, hpv, hev⟩ | hev
    · obtain ⟨vars', hs, -⟩ := hv.plain.set name hpv
      have hx : effect vars (.assign (.var name) e) = .ok (.proceed vars' []) := by
        simp [effect, nameOf, Expr.name?, hev, hs]
      rw [hx, varsAfter, hv.set_iff hpv hs]
      constructor
      · rintro hsv _ _ _ ⟨⟩ hev'
        cases hev.symm.trans hev'
        exact hsv
      · intro h
        exact h name e v rfl hev
    · have hx : varsAfter vars (effect vars (.assign (.var name) e)) = vars := by
        simp [effect, nameOf, Expr.name?, hev, varsAfter]
      rw [hx]
      refine iff_of_true hv ?_
      rintro _ _ _ ⟨⟩ hev'
      cases hev.symm.trans hev'
  · push Not at ha
    rw [varsAfter_of_not_assign ha]
    exact iff_of_true hv fun name e v h => absurd h (ha _ _)

end Effect

variable {s t : Session}

lemma settle_vars {n : Int} {x : Except Fault Effect} (h : s.settle n x = .ok () t) :
    t.compiled = s.compiled ∧ t.vars = varsAfter s.vars x := by
  rcases x with fault | ⟨vars, told⟩ | target | ⟨prompt, target⟩
  · cases fault with
    | told d =>
      cases h
      exact ⟨rfl, rfl⟩
    | _ => cases h
  · cases h
    exact ⟨moveTo_compiled _, moveTo_vars _⟩
  · simp only [settle] at h
    cases hr : resolve? s.order target with
    | none =>
      rw [hr] at h
      cases h
      exact ⟨rfl, rfl⟩
    | some i =>
      rw [hr] at h
      cases h
      exact ⟨moveTo_compiled _, moveTo_vars _⟩
  · cases h
    exact ⟨rfl, rfl⟩

lemma Sound.after_step (h : s.Sound) (hs : s.phase = .executing) :
    ∃ n stmt, s.order[s.pc]? = some n ∧ Numbered.find? n s.compiled = some stmt ∧ stmt.Plain ∧
      (after (Session.step .passive) s).compiled = s.compiled ∧
      (after (Session.step .passive) s).vars = varsAfter s.vars (effect s.vars stmt) := by
  obtain ⟨n, stmt, hn, hf, hp⟩ := h.coherent.exists_plain_statement hs
  obtain ⟨t, ht, -⟩ := h.step
  have hx := ht
  rw [step_passive hs h.coherent.stopRequested hn hf] at hx
  rw [after, ht]
  exact ⟨n, stmt, hn, hf, hp, settle_vars hx⟩

lemma after_step_of_rest (hs : s.phase ≠ .executing) : after (step .passive) s = s := by
  rw [after, step_passive_of_rest hs]

lemma Sound.step_typed_iff (h : s.Sound) (hv : s.vars.Typed) :
    (after (Session.step .passive) s).vars.Typed ↔ ¬ s.Misassigns := by
  by_cases hs : s.phase = .executing
  · obtain ⟨n, stmt, hn, hf, hp, -, hx⟩ := h.after_step hs
    rw [hx, varsAfter_typed_iff hv hp]
    constructor
    · rintro ha ⟨-, n', name, e, v, hn', hf', he, hne⟩
      obtain rfl := Option.some.inj (hn.symm.trans hn')
      exact hne (ha name e v (Option.some.inj (hf.symm.trans hf')) he)
    · rintro hm name e v rfl he
      by_contra hne
      exact hm ⟨hs, n, name, e, v, hn, hf, he, hne⟩
  · rw [after_step_of_rest hs]
    exact iff_of_true hv fun hm => hs hm.1

lemma Sound.advanceFrom_typed (h : s.Sound) (hv : s.vars.Typed) {done limit : Nat}
    (hm : ∀ j < limit, ¬ (after (advanceFrom .passive done j) s).Misassigns) :
    (after (Session.advanceFrom .passive done limit) s).vars.Typed := by
  induction limit generalizing s done with
  | zero => exact hv
  | succ limit ih =>
    by_cases hs : s.phase = .executing
    · obtain ⟨t, ht, hst⟩ := h.step
      have hvt : t.vars.Typed := by
        have hx := (h.step_typed_iff hv).mpr (hm 0 (Nat.zero_lt_succ limit))
        rwa [after, ht] at hx
      rw [after, advanceFrom_succ hs ht]
      refine ih hst hvt fun j hj => ?_
      have hx := hm (j + 1) (Nat.succ_lt_succ hj)
      rwa [after, advanceFrom_succ hs ht] at hx
    · rw [after, advanceFrom_of_rest .passive hs]
      exact hv

lemma WellTyped.not_misassigns (hw : s.WellTyped) (h : s.Sound) (hv : s.vars.Typed) : ¬ s.Misassigns := by
  rintro ⟨hs, n, name, e, v, hn, hf, he, hne⟩
  obtain ⟨n', stmt, hn', hf', hp⟩ := h.coherent.exists_plain_statement hs
  obtain rfl := Option.some.inj (hn.symm.trans hn')
  obtain rfl := Option.some.inj (hf.symm.trans hf')
  obtain ⟨l₁, l₂, hb, -⟩ := List.lookup_eq_some_iff.mp hf
  have ht : e.isText = isTextName name := by
    simpa [Stmt.isTyped] using hw (n, .assign (.var name) e) (hb ▸ by simp)
  have hpv : v.Plain := by
    rcases hp.2.eval hv.plain with ⟨w, hw, hx⟩ | hx
    · cases he.symm.trans hx
      exact hw
    · cases he.symm.trans hx
  apply hne
  rw [hpv.suits_iff, hp.2.isText_eval hv he, ht]

/-- The compiled lines change only where all variables are forgotten. -/
lemma Reachable.typed {depth : Nat} (h : Reachable depth s) : s.WellTyped → s.vars.Typed := by
  let P : Numbered Stmt → Variables → Prop :=
    fun compiled vars => ((∀ b ∈ compiled, b.2.isTyped = true) → vars.Typed) ∧ vars.Plain
  have hs : Preserves (fun u => u.Coherent ∧ P u.compiled u.vars) (step .passive) := by
    rintro u ⟨hc, hw, hp⟩
    have hu : u.Sound := ⟨hc, hp⟩
    obtain ⟨v, hv, hsv⟩ := hu.step
    have hx : after (step .passive) u = v := by rw [after, hv]
    refine ⟨hx ▸ hsv.coherent, fun ht => ?_, hx ▸ hsv.plain⟩
    by_cases he : u.phase = .executing
    -- A step keeps the compiled lines, so they were well typed before it.
    · obtain ⟨-, -, -, -, -, hk, -⟩ := hu.after_step he
      rw [hk] at ht
      exact (hu.step_typed_iff (hw ht)).mpr (WellTyped.not_misassigns ht hu (hw ht))
    · rw [after_step_of_rest he] at ht ⊢
      exact hw ht
  have hP : s.Coherent ∧ P s.compiled s.vars := by
    induction h with
    | fresh echo =>
      exact ⟨(@Reachable.fresh depth echo).coherent, fun _ => Variables.typed_empty, plain_empty⟩
    | call _ hc ih =>
      refine hc.keepsVars (P := P) ?_ ?_ hs ih
      · exact fun _ => ⟨fun _ => Variables.typed_empty, plain_empty⟩
      · exact fun hP ha => ⟨fun hw => answer_typed (hP.1 hw) ha, answer_plain hP.2 ha⟩
  exact hP.2.1

theorem variables_typed_unless_misassigned {depth : Nat} (h : Reachable depth s) :
    (s.WellTyped → s.vars.Typed) ∧
    (s.vars.Typed → (∀ name, (s.vars.get name).Suits name) ∧
      (∀ text, (after (deliver .passive text) s).vars.Typed) ∧
      (after (run .passive) s).vars.Typed ∧
      (∀ message, (after (stop .passive message) s).vars.Typed) ∧
      ((after (step .passive) s).vars.Typed ↔ ¬ s.Misassigns) ∧
      ∀ limit, (∀ j < limit, ¬ (after (advance .passive j) s).Misassigns) →
        (after (advance .passive limit) s).vars.Typed) := by
  refine ⟨h.typed, fun hv => ⟨hv.get, fun text => ?_, ?_, fun message => ?_, h.sound.step_typed_iff hv,
    fun limit => h.sound.advanceFrom_typed hv⟩⟩
  · exact keepsVars_deliver (P := fun _ vars => vars.Typed) (fun _ => Variables.typed_empty) answer_typed s hv
  · exact keepsVars_run (P := fun _ vars => vars.Typed) (fun _ => Variables.typed_empty) s hv
  · exact keepsVars_stop (P := fun _ vars => vars.Typed) message s hv

/-- A session that has set a text by `LET` and has stepped on to the sum of two numbers. -/
def labelled : Session :=
  after (step .passive) <| after (deliver .passive "RUN") <|
    after (deliver .passive "20 LET B = A + 1") <| after (deliver .passive "10 LET A$ = \"ONE\"") {}

lemma labelled_reachable : Reachable 240 labelled :=
  (Reachable.fresh true).call (.deliver _) |>.call (.deliver _) |>.call (.deliver _) |>.call .step

theorem labelled_stays_typed : labelled.WellTyped ∧ labelled.vars.bindings.map (·.1) = ["A$"] ∧
    labelled.vars.Typed ∧ (after (step .passive) labelled).vars.Typed ∧
    (after (step .passive) labelled).vars.bindings.map (·.1) = ["A$", "B"] := by
  have hw : labelled.WellTyped := by
    unfold WellTyped
    decide +kernel
  obtain ⟨ht, hs⟩ := variables_typed_unless_misassigned labelled_reachable
  have hm := hw.not_misassigns labelled_reachable.sound (ht hw)
  exact ⟨hw, by decide +kernel, ht hw, (hs (ht hw)).2.2.2.2.1.mpr hm, by decide +kernel⟩

/-- A session whose program has given a number to a name of texts. -/
def mislabelled : Session :=
  after (step .passive) <| after (deliver .passive "RUN") <| after (deliver .passive "10 LET A$ = 5") {}

lemma mislabelled_reachable : Reachable 240 mislabelled :=
  (Reachable.fresh true).call (.deliver _) |>.call (.deliver _) |>.call .step

theorem text_name_holds_number : Reachable 240 mislabelled ∧ isTextName "A$" = true ∧
    (mislabelled.vars.get "A$").isNumber = true ∧ ¬ mislabelled.vars.Typed := by
  have hn : (mislabelled.vars.get "A$").isNumber = true := by decide +kernel
  refine ⟨mislabelled_reachable, by decide, hn, fun ht => ?_⟩
  have hs := ht.get "A$"
  revert hn hs
  cases mislabelled.vars.get "A$" <;> simp [Value.isNumber, Value.Suits]
  decide

end LineBasic.Session
