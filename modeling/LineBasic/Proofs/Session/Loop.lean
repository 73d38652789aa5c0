import LineBasic.Proofs.Session.Alike
import LineBasic.Proofs.Session.Calls

/-! The plain loop that runs a program: it is stepped while it executes, given the next answer while it
waits, and stopped when there is none left. Whoever drives a program in another way and hands on what it
tells passes through the same states. -/

namespace LineBasic.Session

variable {s t : Session}

section Advance

lemma advanceFrom_executing (host : Host) (hs : s.phase = .executing) (done limit : Nat) :
    (advanceFrom host done (limit + 1)).run s = match (step host).run s with
      | .ok _ t => (advanceFrom host (done + 1) limit).run t
      | .error fault t => .error fault t := by
  simp only [advanceFrom, EStateM.run_bind, EStateM.run_get, if_pos hs]
  cases (step host).run s <;> rfl

lemma advanceFrom_add (host : Host) (m n done : Nat) (s : Session) :
    (advanceFrom host done (m + n)).run s = match (advanceFrom host done m).run s with
      | .ok j t => (advanceFrom host j n).run t
      | .error fault t => .error fault t := by
  induction m generalizing done s with
  | zero =>
    rw [Nat.zero_add]
    rfl
  | succ m ih =>
    rw [Nat.succ_add]
    by_cases hs : s.phase = .executing
    · rw [advanceFrom_executing host hs, advanceFrom_executing host hs]
      cases (step host).run s with
      | ok a t => exact ih (done + 1) t
      | error fault t => rfl
    · simp only [advanceFrom_of_rest host hs]

lemma advanceFrom_shift (host : Host) (n done more : Nat) (s : Session) :
    (advanceFrom host (done + more) n).run s =
      ((advanceFrom host more n).run s).map (done + ·) := by
  induction n generalizing more s with
  | zero => rfl
  | succ n ih =>
    by_cases hs : s.phase = .executing
    · rw [advanceFrom_executing host hs, advanceFrom_executing host hs]
      cases (step host).run s with
      | ok a t => exact ih (more + 1) t
      | error fault t => rfl
    · rw [advanceFrom_of_rest host hs, advanceFrom_of_rest host hs]
      rfl

lemma advance_add (host : Host) (m n : Nat) (s : Session) : (advance host (m + n)).run s = (do
    let j ← advance host m
    let k ← advance host n
    return j + k).run s := by
  rw [advance, advanceFrom_add, EStateM.run_bind]
  simp only [← advance.eq_def]
  cases (advance host m).run s with
  | error fault t => rfl
  | ok j t =>
    have hj := advanceFrom_shift host n j 0 t
    rw [Nat.add_zero, ← advance] at hj
    simp only [hj, EStateM.run_bind]
    cases (advance host n).run t <;> rfl

end Advance

section Answer

lemma Coherent.exists_awaited (h : s.Coherent) (hs : s.phase = .awaiting) :
    ∃ name n, s.pending = some ⟨.var name, n, s.pc + 1⟩ := by
  obtain ⟨hl, n, prompt, target, -, hf, hp⟩ := h.awaiting hs
  obtain ⟨code, -, hc⟩ := compileLines_find? h.ascending hl.1 hf
  obtain ⟨⟨name, rfl⟩, -⟩ : (Stmt.input prompt target).Plain := Parse.compileLine_plain hc
  exact ⟨name, n, hp⟩

lemma Sound.answer (h : s.Sound) (hs : s.phase = .awaiting) {text : String}
    (hx : ∃ x, Value.ofAnswer text = .ok x) :
    ∃ t, (Session.deliver .passive text).run s = .ok () t ∧ t.phase ≠ .awaiting := by
  obtain ⟨name, n, hp⟩ := h.coherent.exists_awaited hs
  obtain ⟨x, hx⟩ := hx
  have hv : (if isTextName name then Value.text text else .number x).Plain := by
    split <;> trivial
  obtain ⟨vars, hset, -⟩ := h.plain.set name hv
  have ha : Session.answer (s.echoed (.append text)).vars (.var name) text = .ok vars := by
    rw [answer_var hx]
    exact hset
  rw [deliver_of_awaiting hs, submit_passive hs hp, accept_passive, ha]
  refine ⟨_, rfl, ?_⟩
  rw [moveTo_phase]
  split <;> simp

lemma exists_deliver_run (hs : s.phase = .idle) : ∃ t, (deliver .passive "RUN").run s = .ok () t := by
  obtain ⟨t, ht⟩ := exists_run_passive (s.echoed (.line (">" ++ "RUN")))
  rw [deliver_passive (by simp [hs]), run_reporting, command_run, ht]
  exact ⟨t, rfl⟩

end Answer

section Trails

/-- The second of two sessions is like the first, but has handed on what it told before. -/
structure Trails (told : List Event) (s t : Session) : Prop where
  alike : Alike s t
  echo : s.echo = t.echo
  events : s.events.toList = told ++ t.events.toList

variable {told : List Event} {s' : Session}

lemma Trails.sound (h : Trails told s t) (hs : s.Sound) : t.Sound :=
  ⟨h.alike.coherent hs.coherent, h.alike.vars ▸ hs.plain⟩

lemma Trails.call {α : Type} {act : Act α} (h : Trails told s t) (hs : s.Sound)
    (hk : ∀ u, Called u (after act u)) (ht : Tied act) {a : α} (hr : act.run s = .ok a s') : ∃ t', act.run t = .ok a t' ∧ Trails told s' t' := by
  have hx := ht s t hs.coherent h.alike
  have he := (hk s).echo_eq hs.coherent
  have he' := (hk t).echo_eq (h.sound hs).coherent
  rw [after, hr] at he
  rw [after] at he'
  rw [hr] at hx
  generalize act.run t = y at hx he' ⊢
  cases hx with
  | ok a hg =>
    obtain ⟨ha, es, hs', ht'⟩ := hg
    refine ⟨_, rfl, ha, he.trans (h.echo.trans he'.symm), ?_⟩
    rw [hs', ht', h.events, List.append_assoc]

lemma Trails.deliver (h : Trails told s t) (hs : s.Sound) {text : String}
    (hr : (deliver .passive text).run s = .ok () s') :
    ∃ t', (deliver .passive text).run t = .ok () t' ∧ Trails told s' t' := by
  have hx := deliver_ended hs.coherent h.alike text
  have he := (Called.deliver text).echo_eq hs.coherent
  have he' := (Called.deliver text).echo_eq (h.sound hs).coherent
  rw [after, hr] at he
  rw [after] at he'
  rw [hr] at hx
  generalize (Session.deliver .passive text).run t = y at hx he' ⊢
  cases hx with
  | ok a hg =>
    obtain ⟨ha, es, hs', ht'⟩ := hg
    refine ⟨_, rfl, ha, he.trans (h.echo.trans he'.symm), ?_⟩
    rw [hs', ht']
    cases hb : t.echo <;> simp [echoed, h.echo, hb, h.events, h.alike.phase]

lemma Trails.handOn (h : Trails told s t) : Trails (told ++ t.events.toList) s { t with events := #[] } :=
  ⟨{ h.alike with }, h.echo, by simp [h.events]⟩

end Trails

/-- A program that is run, the answers left for it and how many steps were made. -/
structure Loop where
  session : Session
  answers : List String
  steps : Nat := 0

namespace Loop

def start (s : Session) (answers : List String) : Loop :=
  { session := after (deliver .passive "RUN") s, answers }

def call (l : Loop) : Act Unit :=
  match l.session.phase, l.answers with
  | .executing, _ => step .passive
  | .awaiting, text :: _ => deliver .passive text
  | .awaiting, [] => stop .passive (some "BREAK")
  | _, _ => pure ()

def next (l : Loop) : Loop where
  session := after l.call l.session
  answers := if l.session.phase = .awaiting then l.answers.tail else l.answers
  steps := if l.session.phase = .executing then l.steps + 1 else l.steps

structure Sound (l : Loop) : Prop where
  session : l.session.Sound
  readable : ∀ text ∈ l.answers, ∃ x, Value.ofAnswer text = .ok x

variable {l : Loop}

lemma call_executing (hs : l.session.phase = .executing) : l.call = step .passive := by simp [call, hs]

lemma call_awaiting {text : String} {rest : List String} (hs : l.session.phase = .awaiting)
    (ha : l.answers = text :: rest) : l.call = deliver .passive text := by simp [call, hs, ha]

lemma call_unanswered (hs : l.session.phase = .awaiting) (ha : l.answers = []) :
    l.call = stop .passive (some "BREAK") := by simp [call, hs, ha]

lemma next_of_rest (hs : l.session.running = false) : l.next = l := by
  cases hp : l.session.phase with
  | idle => simp [next, call, hp, after]
  | compiling => simp [next, call, hp, after]
  | executing => simp [Session.running, hp] at hs
  | awaiting => simp [Session.running, hp] at hs

lemma iterate_of_rest (hs : l.session.running = false) (k : Nat) : next^[k] l = l :=
  Function.iterate_fixed (next_of_rest hs) k

lemma next_iterate (k : Nat) (l : Loop) : next^[k] l.next = next^[k + 1] l := rfl

lemma Sound.returns (h : l.Sound) : l.call.run l.session = .ok () l.next.session := by
  have hret {t : Session} (ht : l.call.run l.session = .ok () t) :
      l.call.run l.session = .ok () l.next.session := by
    have hn : l.next.session = t := by simp only [next, after, ht]
    rw [hn, ht]
  cases hp : l.session.phase with
  | idle => exact hret (t := l.session) (by simp [call, hp])
  | compiling => exact hret (t := l.session) (by simp [call, hp])
  | executing =>
    obtain ⟨t, ht, -⟩ := h.session.step
    exact hret (by rw [call_executing hp, ht])
  | awaiting =>
    cases ha : l.answers with
    | nil =>
      obtain ⟨t, ht, -⟩ := h.session.stop (some "BREAK")
      exact hret (by rw [call_unanswered hp ha, ht])
    | cons text rest =>
      obtain ⟨t, ht, -⟩ := h.session.answer hp (h.readable text (by simp [ha]))
      exact hret (by rw [call_awaiting hp ha, ht])

lemma Sound.next (h : l.Sound) : l.next.Sound := by
  have hret := h.returns
  constructor
  · cases hp : l.session.phase with
    | idle | compiling =>
      have hn : l.next = l := next_of_rest (by simp [Session.running, hp])
      rw [hn]
      exact h.session
    | executing =>
      obtain ⟨t, ht, hst⟩ := h.session.step
      rw [call_executing hp, ht] at hret
      cases hret
      exact hst
    | awaiting =>
      cases ha : l.answers with
      | nil =>
        obtain ⟨t, ht, hst, -⟩ := h.session.stop (some "BREAK")
        rw [call_unanswered hp ha, ht] at hret
        cases hret
        exact hst
      | cons text rest =>
        have hd := h.session.deliver text
        rwa [after, ← call_awaiting hp ha, hret] at hd
  · intro text hm
    apply h.readable text
    simp only [Loop.next] at hm
    split_ifs at hm
    · exact List.mem_of_mem_tail hm
    · exact hm

lemma Sound.iterate (h : l.Sound) (k : Nat) : (Loop.next^[k] l).Sound := by
  induction k generalizing l with
  | zero => exact h
  | succ k ih => exact ih h.next

lemma Sound.next_unanswered (h : l.Sound) (hs : l.session.phase = .awaiting) (ha : l.answers = []) :
    l.next.session.phase = .idle := by
  obtain ⟨t, ht, -, hp⟩ := h.session.stop (some "BREAK")
  have hret := h.returns
  rw [call_unanswered hs ha, ht] at hret
  cases hret
  exact hp

lemma Sound.next_not_awaiting (h : l.Sound) (hs : l.session.phase = .awaiting) :
    l.next.session.phase ≠ .awaiting := by
  cases ha : l.answers with
  | nil => simp [h.next_unanswered hs ha]
  | cons text rest =>
    obtain ⟨t, ht, hp⟩ := h.session.answer hs (h.readable text (by simp [ha]))
    have hret := h.returns
    rw [call_awaiting hs ha, ht] at hret
    cases hret
    exact hp

lemma Sound.trails (h : l.Sound) {told : List Event} {t : Session} (ht : Trails told l.session t) :
    ∃ t', l.call.run t = .ok () t' ∧ Trails told l.next.session t' := by
  have hret := h.returns
  cases hp : l.session.phase with
  | idle | compiling =>
    have hn : l.next = l := next_of_rest (by simp [Session.running, hp])
    exact ⟨t, by simp [call, hp], by rwa [hn]⟩
  | executing =>
    rw [call_executing hp] at hret ⊢
    exact ht.call h.session (fun _ => .step) tied_step hret
  | awaiting =>
    cases ha : l.answers with
    | nil =>
      rw [call_unanswered hp ha] at hret ⊢
      exact ht.call h.session (fun _ => .stop _) (tied_stop _) hret
    | cons text rest =>
      rw [call_awaiting hp ha] at hret ⊢
      exact ht.deliver h.session hret

lemma Sound.advanceFrom (h : l.Sound) (done n : Nat) : ∃ j,
    (advanceFrom .passive done n).run l.session = .ok (done + j) (Loop.next^[j] l).session ∧
      (Loop.next^[j] l).answers = l.answers := by
  induction n generalizing l done with
  | zero => exact ⟨0, rfl, rfl⟩
  | succ n ih =>
    by_cases hs : l.session.phase = .executing
    · have hret := h.returns
      rw [call_executing hs] at hret
      obtain ⟨j, hj, ha⟩ := ih h.next (done + 1)
      refine ⟨j + 1, ?_, ?_⟩
      · rw [advanceFrom_succ hs hret, hj, Nat.add_right_comm, Nat.add_assoc]
        rfl
      · rw [← next_iterate, ha]
        simp [Loop.next, hs]
    · exact ⟨0, advanceFrom_of_rest .passive hs done _, rfl⟩

/-- A batch of statements is some of the loop's steps, and at least one. -/
lemma Sound.advance (h : l.Sound) (hs : l.session.phase = .executing) {n : Nat} (hn : 0 < n) : ∃ j,
    (advance .passive n).run l.session = .ok (j + 1) (Loop.next^[j + 1] l).session ∧
      (Loop.next^[j + 1] l).answers = l.answers := by
  obtain ⟨n, rfl⟩ := Nat.exists_eq_succ_of_ne_zero hn.ne'
  have hret := h.returns
  rw [call_executing hs] at hret
  obtain ⟨j, hj, ha⟩ := h.next.advanceFrom 1 n
  refine ⟨j, ?_, ?_⟩
  · rw [Session.advance, Nat.succ_eq_add_one, advanceFrom_succ hs hret, hj, Nat.add_comm]
    rfl
  · rw [← next_iterate, ha]
    simp [Loop.next, hs]

end Loop

section Paces

variable {B : Type}

/-- One round of a driver makes some moves of the loop, or else it comes closer, by a count of rounds, to
one that does or to its end. -/
def Paces (R : Nat → Loop → B → Prop) (Done : B → Prop) (next : B → B) : Prop :=
  ∀ n l b, R n l b → (l.session.running = true ∧ ∃ k m, R m (Loop.next^[k + 1] l) (next b)) ∨
    (∃ m < n, R m l (next b)) ∨ (l.session.running = false ∧ Done b ∧ next b = b)

/-- A driver goes through states of the loop only, past all of them, and ends when the loop does. -/
structure Tracks (S : Loop → B → Prop) (Done : B → Prop) (l : Loop) (driver : Nat → B) : Prop where
  sound : ∀ i, ∃ k, S (Loop.next^[k] l) (driver i)
  complete : ∀ k, ∃ i j, S (Loop.next^[j + k] l) (driver i)
  ends : ∀ k, (Loop.next^[k] l).session.running = false →
    ∃ i, S (Loop.next^[k] l) (driver i) ∧ Done (driver i)

variable {R : Nat → Loop → B → Prop} {S : Loop → B → Prop} {Done : B → Prop} {next : B → B} {l : Loop}
  {b : B} {n : Nat}

lemma Paces.iterate (h : Paces R Done next) (hr : R n l b) (i : Nat) :
    ∃ k m, R m (Loop.next^[k] l) (next^[i] b) := by
  induction i generalizing n l b with
  | zero => exact ⟨0, n, hr⟩
  | succ i ih =>
    rcases h n l b hr with ⟨-, k, m, hk⟩ | ⟨m, -, hk⟩ | ⟨-, -, hn⟩
    · obtain ⟨j, m', hj⟩ := ih hk
      rw [← Function.iterate_add_apply] at hj
      exact ⟨_, m', hj⟩
    · exact ih hk
    · rw [Function.iterate_succ_apply, hn]
      exact ih hr

lemma Paces.exists_move (h : Paces R Done next) (hr : R n l b) (hl : l.session.running = true) :
    ∃ i k m, R m (Loop.next^[k + 1] l) (next^[i] b) := by
  -- Rounds that leave the loop where it is make the count fall, so one that moves it must come.
  induction n using Nat.strong_induction_on generalizing b with
  | _ n ih =>
    rcases h n l b hr with ⟨-, k, m, hk⟩ | ⟨m, hlt, hk⟩ | ⟨hf, -⟩
    · exact ⟨1, k, m, hk⟩
    · obtain ⟨i, k, m', hi⟩ := ih m hlt hk
      exact ⟨i + 1, k, m', hi⟩
    · exact absurd (hf.symm.trans hl) Bool.false_ne_true

lemma Paces.exists_reached (h : Paces R Done next) (hr : R n l b) (k : Nat) :
    ∃ i j m, R m (Loop.next^[j + k] l) (next^[i] b) := by
  induction k with
  | zero => exact ⟨0, 0, n, hr⟩
  | succ k ih =>
    obtain ⟨i, j, m, hi⟩ := ih
    cases hl : (Loop.next^[j + k] l).session.running with
    | false =>
      refine ⟨i, j, m, ?_⟩
      rwa [← Nat.add_assoc, Function.iterate_succ_apply', Loop.next_of_rest hl]
    | true =>
      obtain ⟨i', j', m', hi'⟩ := h.exists_move hi hl
      rw [← Function.iterate_add_apply, ← Function.iterate_add_apply] at hi'
      exact ⟨i' + i, j' + j, m', by rwa [show j' + j + (k + 1) = j' + 1 + (j + k) by omega]⟩

lemma Paces.exists_done (h : Paces R Done next) (hr : R n l b) (hl : l.session.running = false) :
    ∃ i m, R m l (next^[i] b) ∧ Done (next^[i] b) := by
  induction n using Nat.strong_induction_on generalizing b with
  | _ n ih =>
    rcases h n l b hr with ⟨ht, -⟩ | ⟨m, hlt, hk⟩ | ⟨-, hd, -⟩
    · exact absurd (hl.symm.trans ht) Bool.false_ne_true
    · obtain ⟨i, hi⟩ := ih m hlt hk
      exact ⟨i + 1, hi⟩
    · exact ⟨0, n, hr, hd⟩

lemma Paces.tracks (h : Paces R Done next) {c : Nat} (hr : R n (Loop.next^[c] l) b)
    (hs : ∀ m l b, R m l b → S l b) : Tracks S Done l fun i => next^[i] b where
  sound i := by
    obtain ⟨k, m, hk⟩ := h.iterate hr i
    rw [← Function.iterate_add_apply] at hk
    exact ⟨k + c, hs m _ _ hk⟩
  complete k := by
    obtain ⟨i, j, m, hi⟩ := h.exists_reached hr k
    rw [← Function.iterate_add_apply, Nat.add_right_comm] at hi
    exact ⟨i, j + c, hs m _ _ hi⟩
  ends k hk := by
    obtain ⟨i, j, m, hi⟩ := h.exists_reached hr k
    rw [← Function.iterate_add_apply, Nat.add_right_comm, Function.iterate_add_apply,
      Loop.iterate_of_rest hk] at hi
    obtain ⟨i', m', hi', hd⟩ := h.exists_done hi hk
    rw [← Function.iterate_add_apply] at hi' hd
    exact ⟨i' + i, hs m' _ _ hi', hd⟩

end Paces

end LineBasic.Session
