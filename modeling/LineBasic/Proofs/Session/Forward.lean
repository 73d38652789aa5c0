import LineBasic.Proofs.Session.Jump
import LineBasic.Proofs.Session.Loop

/-! Programs that never jump back. A run of one executes its lines in their order, each at most once,
and so it ends, however it is driven and whatever is answered. -/

namespace LineBasic.Session

def Forward (code : Numbered Stmt) : Prop := ∀ n target, (n, Stmt.goto target) ∈ code → n < target

/-- The first place at which a statement may yet be executed. -/
def frontier (s : Session) : Nat :=
  match s.phase with
  | .executing => s.pc
  | .awaiting => s.pc + 1
  | .idle | .compiling => s.order.size

variable {s t u : Session}

lemma frontier_executing (hs : s.phase = .executing) : s.frontier = s.pc := by simp [frontier, hs]

lemma frontier_awaiting (hs : s.phase = .awaiting) : s.frontier = s.pc + 1 := by simp [frontier, hs]

lemma frontier_idle (hs : s.phase = .idle) : s.frontier = s.order.size := by simp [frontier, hs]

lemma Coherent.frontier_le (h : s.Coherent) : s.frontier ≤ s.order.size := by
  cases hs : s.phase with
  | idle | compiling => simp [frontier, hs]
  | executing =>
    rw [frontier_executing hs]
    exact (h.executing hs).2.2.le
  | awaiting =>
    obtain ⟨-, n, prompt, target, hn, -, -⟩ := h.awaiting hs
    rw [frontier_awaiting hs]
    exact (Array.getElem?_eq_some_iff.mp hn).1

lemma moveTo_order (s : Session) (pc : Nat) : (s.moveTo pc).order = s.order := by
  rw [moveTo]
  split <;> rfl

lemma moveTo_frontier (hs : s.phase = .executing) (pc : Nat) :
    (s.moveTo pc).frontier = min pc s.order.size := by
  rw [moveTo]
  split
  · rw [frontier_idle rfl]
    exact (min_eq_right ‹_›).symm
  · rename_i hp
    rw [frontier_executing (s := { s with pc }) hs]
    exact (min_eq_left (Nat.le_of_not_le hp)).symm

section Step

inductive Passed (s : Session) : Session → Prop
  | on {t : Session} {pc : Nat} (hp : s.pc < pc) (ht : t.phase = .executing) (ho : t.order = s.order)
      (hc : t.compiled = s.compiled) : Passed s (t.moveTo pc)
  | asked (n : Int) (prompt : String) (target : Expr) :
      Passed s { s.asked n prompt target with stepping := false }
  | halted (n : Int) (d : Diagnostic) : Passed s (s.halted n d)

lemma effect_jump {vars : Variables} {stmt : Stmt} {target : Int}
    (h : effect vars stmt = .ok (.jump target)) : stmt = .goto target := by
  cases stmt with
  | goto m =>
    cases h
    rfl
  | print e =>
    obtain ⟨v, -, h₁⟩ := Grammar.bind_ok h
    obtain ⟨text, -, h₂⟩ := Grammar.bind_ok h₁
    cases h₂
  | assign e e' =>
    obtain ⟨name, -, h₁⟩ := Grammar.bind_ok h
    obtain ⟨v, -, h₂⟩ := Grammar.bind_ok h₁
    obtain ⟨w, -, h₃⟩ := Grammar.bind_ok h₂
    cases h₃
  | input prompt e =>
    obtain ⟨text, -, h₁⟩ := Grammar.bind_ok h
    cases h₁
  | rem | cls | foreign => cases h

lemma Coherent.settle_jump (h : s.Coherent) (hs : s.phase = .executing) {n target : Int}
    (hn : s.order[s.pc]? = some n) (hlt : n < target) (ht : s.settle n (.ok (.jump target)) = .ok () t) :
    Passed s t := by
  rw [settle] at ht
  cases hr : resolve? s.order target with
  | none =>
    rw [hr] at ht
    cases ht
    exact .halted n _
  | some i =>
    rw [hr] at ht
    cases ht
    -- Places stand in the order of their line numbers, so the later line has the later place.
    have ha := h.order_pairwise hs
    have hi : s.order[i]? = some target := (Session.resolve?_eq_some_iff ha).mp hr
    exact .on (lt_of_getElem?_lt ha hn hi hlt) hs rfl rfl

lemma Coherent.step_passed (h : s.Coherent) (hs : s.phase = .executing) (hf : Forward s.compiled)
    (ht : (step .passive).run s = .ok () t) : Passed s t := by
  obtain ⟨n, stmt, hn, hfind⟩ := h.exists_statement hs
  rw [step_passive hs h.stopRequested hn hfind] at ht
  rcases he : effect s.vars stmt with fault | ⟨vars, told⟩ | target | ⟨prompt, target⟩
  · rw [he] at ht
    cases fault with
    | told d =>
      cases ht
      exact .halted n d
    | _ => cases ht
  · rw [he] at ht
    cases ht
    exact .on (Nat.lt_succ_self _) hs rfl rfl
  · obtain rfl := effect_jump he
    rw [he] at ht
    have hc := compileLines_ascending h.ascending (h.executing hs).1.1
    exact h.settle_jump hs hn (hf n target ((Numbered.find?_eq_some_iff hc).mp hfind)) ht
  · rw [he] at ht
    cases ht
    exact .asked n prompt target

lemma Coherent.answer_moves (h : s.Coherent) (hs : s.phase = .awaiting) {text : String}
    (ht : (submit .passive text).run s = .ok () t) : ∃ u : Session, u.phase = .executing ∧
      u.order = s.order ∧ u.compiled = s.compiled ∧ t = u.moveTo (s.pc + 1) := by
  obtain ⟨-, n, prompt, target, -, -, hp⟩ := h.awaiting hs
  rw [submit_passive hs hp, accept_passive] at ht
  split at ht
  · cases ht
    refine ⟨_, ?_, ?_, ?_, rfl⟩ <;> rfl
  · cases ht

end Step

section Onward

/-- The second session is further on in the same run, by so many places at least. -/
structure Onward (s t : Session) (places : Nat) : Prop where
  order : t.order = s.order
  compiled : t.compiled = s.compiled
  frontier : s.frontier + places ≤ t.frontier

lemma Passed.onward (hp : Passed s t) (h : s.Coherent) (hs : s.phase = .executing) : Onward s t 1 := by
  have hlt := (h.executing hs).2.2
  cases hp with
  | on hp ht ho hc =>
    refine ⟨(moveTo_order _ _).trans ho, (moveTo_compiled _).trans hc, ?_⟩
    rw [moveTo_frontier ht, frontier_executing hs, ho]
    omega
  | asked n prompt target =>
    refine ⟨rfl, rfl, ?_⟩
    rw [frontier_executing hs, frontier_awaiting (s := { s.asked n prompt target with stepping := false }) rfl]
    rfl
  | halted n d =>
    refine ⟨rfl, rfl, ?_⟩
    rw [frontier_executing hs, frontier_idle rfl]
    exact hlt

lemma Coherent.answer_onward (h : s.Coherent) (hs : s.phase = .awaiting) {text : String}
    (ht : (submit .passive text).run s = .ok () t) : Onward s t 0 := by
  have hle := h.frontier_le
  obtain ⟨u, hu, ho, hc, rfl⟩ := h.answer_moves hs ht
  refine ⟨(moveTo_order _ _).trans ho, (moveTo_compiled _).trans hc, ?_⟩
  rw [moveTo_frontier hu, ho]
  rw [frontier_awaiting hs] at hle ⊢
  exact le_min le_rfl hle

end Onward

/-- A run from a session: the places and line numbers of the statements that it has executed, the
answers that it has taken, and where it has come to. -/
inductive Course (s : Session) : List (Nat × Int) → List String → Session → Prop
  | here : Course s [] [] s
  | step {ran : List (Nat × Int)} {answers : List String} {t u : Session} {n : Int}
      (h : Course s ran answers u) (hu : u.phase = .executing) (hn : u.currentLine = some n)
      (ht : (step .passive).run u = .ok () t) : Course s (ran ++ [(u.pc, n)]) answers t
  | answer {ran : List (Nat × Int)} {answers : List String} {t u : Session} {text : String}
      (h : Course s ran answers u) (hu : u.phase = .awaiting)
      (ht : (submit .passive text).run u = .ok () t) : Course s ran (answers ++ [text]) t

section Course

variable {ran : List (Nat × Int)} {answers : List String}

/-- A run that has executed its statements from lower places to higher ones. -/
structure Ordered (s : Session) (ran : List (Nat × Int)) (u : Session) : Prop where
  sound : u.Sound
  onward : Onward s u ran.length
  places : (ran.map Prod.fst).Pairwise (· < ·)
  behind : ∀ place ∈ ran.map Prod.fst, place < u.frontier
  lines : ∀ p ∈ ran, s.order[p.1]? = some p.2

lemma Ordered.step (h : Ordered s ran u) (hf : Forward s.compiled) (hu : u.phase = .executing) {n : Int}
    (hn : u.currentLine = some n) (ht : (step .passive).run u = .ok () t) :
    Ordered s (ran ++ [(u.pc, n)]) t := by
  obtain ⟨t', ht', hsound⟩ := h.sound.step
  obtain rfl : t' = t := by
    rw [ht] at ht'
    cases ht'
    rfl
  have ho := (h.sound.coherent.step_passed hu (h.onward.compiled ▸ hf) ht).onward h.sound.coherent hu
  have hfu := frontier_executing hu
  have hle := ho.frontier
  refine ⟨hsound, ⟨ho.order.trans h.onward.order, ho.compiled.trans h.onward.compiled, ?_⟩, ?_, ?_, ?_⟩
  · rw [List.length_append]
    exact (Nat.add_assoc ..).ge.trans ((Nat.add_le_add_right h.onward.frontier 1).trans hle)
  · rw [List.map_append, List.pairwise_append]
    refine ⟨h.places, List.pairwise_singleton .., fun place hp => ?_⟩
    simpa using hfu ▸ h.behind place hp
  · intro place hp
    rw [List.map_append, List.mem_append] at hp
    rcases hp with hp | hp
    · exact (h.behind place hp).trans hle
    · obtain rfl : place = u.pc := by simpa using hp
      omega
  · intro p hp
    rcases List.mem_append.mp hp with hp | hp
    · exact h.lines p hp
    · obtain rfl := List.mem_singleton.mp hp
      rw [← h.onward.order]
      simpa [currentLine, hu] using hn

lemma Sound.submit (h : s.Sound) (hs : s.phase = .awaiting) {text : String}
    (ht : (submit .passive text).run s = .ok () t) : t.Sound := by
  have hd := h.deliver text
  rwa [after, deliver_of_awaiting hs, ht] at hd

lemma Ordered.answer (h : Ordered s ran u) (hu : u.phase = .awaiting) {text : String}
    (ht : (submit .passive text).run u = .ok () t) : Ordered s ran t := by
  have ho := h.sound.coherent.answer_onward hu ht
  exact ⟨h.sound.submit hu ht, ⟨ho.order.trans h.onward.order, ho.compiled.trans h.onward.compiled,
    h.onward.frontier.trans ho.frontier⟩, h.places, fun place hp => (h.behind place hp).trans_le ho.frontier,
    h.lines⟩

lemma Course.ordered (h : Course s ran answers u) (hs : s.Sound) (hf : Forward s.compiled) :
    Ordered s ran u := by
  induction h with
  | here => exact ⟨hs, ⟨rfl, rfl, le_rfl⟩, .nil, by simp, by simp⟩
  | step _ hu hn ht ih => exact ih.step hf hu hn ht
  | answer _ hu ht ih => exact ih.answer hu ht

lemma Ordered.numbers (h : Ordered s ran u) (ha : s.order.toList.Pairwise (· < ·)) :
    (ran.map Prod.snd).Pairwise (· < ·) := by
  refine List.pairwise_map.mpr ((List.pairwise_map.mp h.places).imp_of_mem ?_)
  intro p q hp hq hlt
  obtain ⟨hi, hip⟩ := Array.getElem?_eq_some_iff.mp (h.lines p hp)
  obtain ⟨hj, hjq⟩ := Array.getElem?_eq_some_iff.mp (h.lines q hq)
  rw [← hip, ← hjq]
  exact List.pairwise_iff_getElem.mp ha p.1 q.1 hi hj hlt

lemma Ordered.length_le (h : Ordered s ran u) : ran.length ≤ s.order.size := by
  have hle := h.sound.coherent.frontier_le
  rw [h.onward.order] at hle
  have hf := h.onward.frontier
  omega

variable (hs : s.Sound) (hf : Forward s.compiled) (h : Course s ran answers u)

include hs hf h

/-- A step leaves fewer places to come to. -/
lemma Course.exists_step (hu : u.phase = .executing) : ∃ n t, (Session.step .passive).run u = .ok () t ∧
    Course s (ran ++ [(u.pc, n)]) answers t ∧ s.order.size - t.frontier < s.order.size - u.frontier := by
  have ho := h.ordered hs hf
  have hco := ho.sound.coherent
  obtain ⟨t, ht, -⟩ := ho.sound.step
  obtain ⟨n, hn, -⟩ := hco.currentLine (by simp [running, hu])
  have hon := (hco.step_passed hu (ho.onward.compiled ▸ hf) ht).onward hco hu
  refine ⟨n, t, ht, h.step hu hn ht, ?_⟩
  have hle := ((h.step hu hn ht).ordered hs hf).sound.coherent.frontier_le
  rw [hon.order, ho.onward.order] at hle
  have hlt := hon.frontier
  omega

lemma Course.exists_answer (hu : u.phase = .awaiting) {text : String}
    (hx : ∃ x, Value.ofAnswer text = .ok x) : ∃ t, Course s ran (answers ++ [text]) t ∧
      t.phase ≠ .awaiting ∧ s.order.size - t.frontier ≤ s.order.size - u.frontier := by
  have ho := h.ordered hs hf
  obtain ⟨t, ht, hp⟩ := ho.sound.answer hu hx
  rw [deliver_of_awaiting hu] at ht
  exact ⟨t, h.answer hu ht, hp, Nat.sub_le_sub_left (ho.sound.coherent.answer_onward hu ht).frontier _⟩

/-- Stepping without a limit ends. -/
lemma Course.exhaust (done : Nat) : ∃ n more v, Course s (ran ++ more) answers v ∧ v.phase ≠ .executing ∧
    ∀ m ≥ n, (advanceFrom .passive done m).run u = .ok (done + more.length) v := by
  induction hk : s.order.size - u.frontier using Nat.strong_induction_on generalizing ran u done with
  | _ k ih =>
    subst hk
    by_cases hu : u.phase = .executing
    · obtain ⟨n, t, ht, hc, hlt⟩ := h.exists_step hs hf hu
      obtain ⟨m, more, v, hv, hp, hm⟩ := ih _ hlt hc (done + 1) rfl
      refine ⟨m + 1, (u.pc, n) :: more, v, by simpa using hv, hp, ?_⟩
      intro k hk
      obtain ⟨k, rfl⟩ := Nat.exists_eq_succ_of_ne_zero (show k ≠ 0 by omega)
      rw [Nat.succ_eq_add_one, advanceFrom_succ hu ht, hm k (by omega), List.length_cons, Nat.add_assoc,
        Nat.add_comm 1]
    · exact ⟨0, [], u, by simpa using h, hu, fun m _ => advanceFrom_of_rest .passive hu done m⟩

omit h in
lemma Course.exists_idle {answer : Nat → String} (ha : ∀ i, ∃ x, Value.ofAnswer (answer i) = .ok x)
    {count : Nat} (h : Course s ran ((List.range count).map answer) u) :
    ∃ more count v, Course s (ran ++ more) ((List.range count).map answer) v ∧ v.phase = .idle := by
  -- An answer may leave as many places as before it, but then no other answer follows it.
  induction hk : 2 * (s.order.size - u.frontier) + (if u.phase = .awaiting then 1 else 0)
    using Nat.strong_induction_on generalizing ran u count with
  | _ k ih =>
    subst hk
    by_cases hu : u.phase = .executing
    · obtain ⟨n, t, -, hc, hlt⟩ := h.exists_step hs hf hu
      have hm : 2 * (s.order.size - t.frontier) + (if t.phase = .awaiting then 1 else 0) <
          2 * (s.order.size - u.frontier) + (if u.phase = .awaiting then 1 else 0) := by
        split <;> omega
      obtain ⟨more, count, v, hv, hp⟩ := ih _ hm hc rfl
      exact ⟨(u.pc, n) :: more, count, v, by simpa using hv, hp⟩
    by_cases hw : u.phase = .awaiting
    · obtain ⟨t, hc, hp, hle⟩ := h.exists_answer hs hf hw (ha count)
      have hr : (List.range count).map answer ++ [answer count] = (List.range (count + 1)).map answer := by
        simp [List.range_succ]
      rw [hr] at hc
      refine ih _ ?_ hc rfl
      rw [if_neg hp, if_pos hw]
      omega
    · have hi := (h.ordered hs hf).sound.coherent.idle_of_not_running (by simp [running, hu, hw])
      exact ⟨[], count, u, by simpa using h, hi⟩

end Course

section Start

variable {code : Numbered Stmt}

lemma started_compiled (s : Session) : (s.started code).compiled = code := by
  rw [started]
  split <;> rfl

lemma started_order (s : Session) : (s.started code).order = code.numbers.toArray := by
  rw [started]
  split <;> rfl

lemma exists_started (hs : s.phase = .idle) (hc : compileLines s.depth s.program = (code, none))
    (h : t = after (run .passive) s ∨ t = after (deliver .passive "RUN") s) : ∃ u, t = started u code := by
  rcases h with rfl | rfl
  · exact ⟨s, by rw [after, run_passive_of_ok hs hc]⟩
  · exact ⟨s.echoed (.line ">RUN"), by
      rw [after, deliver_run hs hc, run_passive_of_ok (s := s.echoed (.line ">RUN")) hs hc]⟩

end Start

theorem forward_program_ends {depth : Nat} {code : Numbered Stmt} (h : Reachable depth s) (hs : s.phase = .idle)
    (hc : compileLines s.depth s.program = (code, none)) (hf : Forward code) {s₀ : Session}
    (h₀ : s₀ = after (run .passive) s ∨ s₀ = after (deliver .passive "RUN") s) :
    (∀ ran answers u, Course s₀ ran answers u →
      (ran.map Prod.fst).Pairwise (· < ·) ∧
      (ran.map Prod.snd).Nodup ∧
      (∀ p ∈ ran, s.program.numbers[p.1]? = some p.2) ∧
      ran.length ≤ s.program.length ∧
      (∀ t, u.phase = .executing → (step .passive).run u = .ok () t →
        u.pc < t.pc ∨ t.phase = .awaiting ∨ ∃ n d, t = u.halted n d) ∧
      (∀ text t, u.phase = .awaiting → (submit .passive text).run u = .ok () t → u.pc < t.pc) ∧
      ∃ n more v, Course s₀ (ran ++ more) answers v ∧ v.phase ≠ .executing ∧
        ∀ m ≥ n, (advance .passive m).run u = .ok more.length v) ∧
    ∀ answer : Nat → String, (∀ i, ∃ x, Value.ofAnswer (answer i) = .ok x) →
      ∃ ran count u, Course s₀ ran ((List.range count).map answer) u ∧ u.phase = .idle ∧
        ran.length ≤ s.program.length := by
  have hsound : s₀.Sound := by
    rcases h₀ with rfl | rfl
    · exact (h.call .run).sound
    · exact (h.call (.deliver "RUN")).sound
  obtain ⟨u₀, rfl⟩ := exists_started hs hc h₀
  have hcode : Forward (u₀.started code).compiled := by rwa [started_compiled]
  have hn : code.numbers = s.program.numbers := compileLines_numbers hc
  have hord : (u₀.started code).order.toList = s.program.numbers := by rw [started_order, ← hn]
  have hsize : (u₀.started code).order.size = s.program.length := by
    rw [← Array.length_toList, hord, Numbered.numbers, List.length_map]
  refine ⟨fun ran answers u hu => ?_, fun answer ha => ?_⟩
  · have ho := hu.ordered hsound hcode
    have hco := ho.sound.coherent
    refine ⟨ho.places, ?_, ?_, hsize ▸ ho.length_le, ?_, ?_, ?_⟩
    · exact (ho.numbers (hord ▸ h.coherent.ascending)).imp ne_of_lt
    · intro p hp
      rw [← hord, Array.getElem?_toList]
      exact ho.lines p hp
    · intro t hp ht
      cases hco.step_passed hp (ho.onward.compiled ▸ hcode) ht with
      | on hlt => exact .inl (by rwa [moveTo_pc])
      | asked => exact .inr (.inl rfl)
      | halted n d => exact .inr (.inr ⟨n, d, rfl⟩)
    · intro text t hp ht
      obtain ⟨v, -, -, -, rfl⟩ := hco.answer_moves hp ht
      rw [moveTo_pc]
      exact Nat.lt_succ_self _
    · simpa only [Nat.zero_add, advance] using hu.exhaust hsound hcode 0
  · have hstart : Course (u₀.started code) [] ((List.range 0).map answer) (u₀.started code) := .here
    obtain ⟨ran, count, u, hu, hp⟩ := Course.exists_idle hsound hcode ha hstart
    exact ⟨ran, count, u, hu, hp, hsize ▸ (hu.ordered hsound hcode).length_le⟩

def skipping : Session :=
  after (storeLine 40 "CLS") <| after (storeLine 30 "PRINT A$") <| after (storeLine 20 "GOTO 40") <|
    after (storeLine 10 "INPUT A$") {}

lemma skipping_reachable : Reachable 240 skipping :=
  ((((Reachable.fresh true).call (.store 10 "INPUT A$")).call (.store 20 "GOTO 40")).call
    (.store 30 "PRINT A$")).call (.store 40 "CLS")

lemma skipping_forward : Forward (compileLines skipping.depth skipping.program).1 := by
  have hall : (compileLines skipping.depth skipping.program).1.all (fun p => match p.2 with
      | .goto target => p.1 < target
      | _ => true) = true := by decide +kernel
  intro n target hm
  simpa using List.all_eq_true.mp hall _ hm

theorem skipping_ends : ∃ ran count u, Course (after (run .passive) skipping) ran
    ((List.range count).map fun _ => "hi") u ∧ u.phase = .idle ∧ ran.length ≤ 4 := by
  have hc : compileLines skipping.depth skipping.program = ((compileLines skipping.depth skipping.program).1, none) :=
    Prod.ext rfl (Option.isNone_iff_eq_none.mp (by decide +kernel))
  have hl : skipping.program.length = 4 := by decide +kernel
  obtain ⟨-, hends⟩ := forward_program_ends skipping_reachable (by decide +kernel) hc
    skipping_forward (.inl rfl)
  rw [← hl]
  exact hends _ fun _ => ofAnswer_hi

end LineBasic.Session
