import LineBasic.Proofs.Session.Commands
import LineBasic.Proofs.Session.Loop

/-! Texts that are typed while a program executes. Such a text is told about and changes nothing else,
so that the steps and answers of a run come out as they do without it. -/

namespace LineBasic.Session

variable {s t : Session}

lemma echoed_eq_tell (s : Session) (e : Event) : s.echoed e = s.tell (if s.echo then [e] else []) := by
  cases he : s.echo <;> simp [echoed, tell, he]

lemma Carried.tells (hs : s.phase = .executing) {code : String}
    {x : EStateM.Result Fault Session Unit} (hx : Carried s code x) :
    (∃ told, x = .ok () (s.tell told)) ∨ (∃ d, x = .error (.told d) s) ∨
      ∃ k, x = .error (.longNumeral k) s := by
  have hr : s.running = true := by simp [running, hs]
  cases hx with
  | overlong hl hd => exact .inr (.inr ⟨_, rfl⟩)
  | refused => exact .inr (.inl ⟨_, rfl⟩)
  | stored _ _ hs' _ => cases hr.symm.trans hs'
  | run _ ht =>
    rw [run_passive_of_busy (by simp [hs])] at ht
    cases ht
    exact .inl ⟨[], by rw [tell_nil]⟩
  | listed _ => exact .inl ⟨_, rfl⟩
  | cleared _ => exact .inl ⟨_, rfl⟩
  | renewed _ hs' => cases hr.symm.trans hs'

/-- Whether it returns or not, the call leaves all but what was told. -/
lemma deliver_tells (hs : s.phase = .executing) (text : String) :
    ∃ told, after (deliver .passive text) s = s.tell told := by
  rw [after, deliver_passive (by simp [hs]), run_reporting, echoed_eq_tell]
  generalize (if s.echo then [Event.line (">" ++ text)] else []) = shown
  have hp : (s.tell shown).phase = .executing := hs
  rcases (command_carried _ (Text.trim text)).tells hp with ⟨told, hx⟩ | ⟨d, hx⟩ | ⟨k, hx⟩
  · rw [hx, tell_tell]
    exact ⟨_, rfl⟩
  · simp only [hx, reportCommand_passive, tell_tell]
    exact ⟨_, rfl⟩
  · rw [hx]
    exact ⟨shown, rfl⟩

/-- A call that belongs to a run, or a text that is typed in between. -/
inductive Turn
  | step
  | deliver (text : String)
  | interject (text : String)

namespace Turn

def act : Turn → Act Unit
  | step => Session.step .passive
  | deliver text | interject text => Session.deliver .passive text

def isOwn : Turn → Bool
  | step | deliver _ => true
  | interject _ => false

end Turn

/-- Every interjection finds the session executing. -/
def Timely (s : Session) : List Turn → Prop
  | [] => True
  | turn :: turns => (turn.isOwn = false → s.phase = .executing) ∧ Timely (after turn.act s) turns

instance decidableTimely : (s : Session) → (turns : List Turn) → Decidable (Timely s turns)
  | _, [] => inferInstanceAs (Decidable True)
  | s, turn :: turns =>
    have := decidableTimely (after turn.act s) turns
    inferInstanceAs (Decidable (_ ∧ _))

/-- What a call of a run finds and tells. A text that finds the session waiting is an answer. -/
structure Exchange where
  turn : Turn
  phase : Phase
  told : List Event

def exchanges (s : Session) : List Turn → List Exchange
  | [] => []
  | turn :: turns =>
    let t := after turn.act s
    if turn.isOwn then ⟨turn, s.phase, t.events.toList.drop s.events.size⟩ :: exchanges t turns
    else exchanges t turns

def final (s : Session) (turns : List Turn) : Session := turns.foldl (fun s turn => after turn.act s) s

def calm (turns : List Turn) : List Turn := turns.filter Turn.isOwn

lemma Ended.after {told told' : List Event} {act : Act Unit}
    (h : Ended told told' (act.run s) (act.run t)) :
    Grown told told' (after act s) (after act t) := by
  simp only [Session.after]
  generalize act.run s = x at h ⊢
  generalize act.run t = y at h ⊢
  cases h with
  | ok a hg => exact hg
  | error fault hg => exact hg

/-- Two sessions at the same place of a run, of which one may have been interrupted by texts. -/
structure Abreast (s t : Session) : Prop where
  sound : s.Sound
  alike : Alike s t
  echo : s.echo = t.echo

lemma Turn.called (turn : Turn) (s : Session) : Called s (after turn.act s) := by
  cases turn with
  | step => exact .step
  | deliver text | interject text => exact .deliver text

lemma Turn.sound (turn : Turn) (h : s.Sound) : (after turn.act s).Sound := by
  cases turn with
  | step =>
    obtain ⟨t, ht, hst⟩ := h.step
    simpa only [after, Turn.act, ht] using hst
  | deliver text | interject text => exact h.deliver text

section Abreast

variable (h : Abreast s t)

include h

lemma Abreast.right : t.Sound := ⟨h.alike.coherent h.sound.coherent, h.alike.vars ▸ h.sound.plain⟩

lemma Abreast.grown (turn : Turn) :
    Grown s.events.toList t.events.toList (after turn.act s) (after turn.act t) := by
  cases turn with
  | step => exact (tied_step s t h.sound.coherent h.alike).after
  | deliver text | interject text =>
    obtain ⟨ha, es, hs, ht⟩ := (deliver_ended h.sound.coherent h.alike text).after
    simp only [toList_echoed, h.echo, h.alike.phase, List.append_assoc] at hs ht
    exact ⟨ha, _, hs, ht⟩

lemma Abreast.call (turn : Turn) : Abreast (after turn.act s) (after turn.act t) where
  sound := turn.sound h.sound
  alike := (h.grown turn).1
  echo := ((turn.called s).echo_eq h.sound.coherent).trans
    (h.echo.trans ((turn.called t).echo_eq h.right.coherent).symm)

lemma Abreast.interjection (hs : s.phase = .executing) (text : String) :
    Abreast (after (deliver .passive text) s) t where
  sound := h.sound.deliver text
  alike := by
    obtain ⟨told, ht⟩ := deliver_tells hs text
    rw [ht]
    exact { h.alike with }
  echo := ((Called.deliver text).echo_eq h.sound.coherent).trans h.echo

end Abreast

lemma exchanges_own {turn : Turn} (ho : turn.isOwn = true) {told : List Event}
    (ht : (after turn.act s).events.toList = s.events.toList ++ told) (turns : List Turn) :
    exchanges s (turn :: turns) = ⟨turn, s.phase, told⟩ :: exchanges (after turn.act s) turns := by
  rw [exchanges, if_pos ho, ht, ← Array.length_toList, List.drop_left]

lemma Abreast.turns (h : Abreast s t) {turns : List Turn} (hm : Timely s turns) :
    exchanges s turns = exchanges t (calm turns) ∧ Abreast (final s turns) (final t (calm turns)) := by
  induction turns generalizing s t with
  | nil => exact ⟨rfl, h⟩
  | cons turn turns ih =>
    obtain ⟨hi, hm⟩ := hm
    cases ho : turn.isOwn with
    | true =>
      obtain ⟨hx, hf⟩ := ih (h.call turn) hm
      obtain ⟨-, told, hs, ht⟩ := h.grown turn
      rw [calm, List.filter_cons_of_pos ho, exchanges_own ho hs, exchanges_own ho ht, h.alike.phase]
      exact ⟨congrArg _ hx, hf⟩
    | false =>
      cases turn with
      -- Only the interrupted session moves; the other waits for its next call.
      | interject text => exact ih (h.interjection (hi ho) text) hm
      | step => cases ho
      | deliver text => cases ho

theorem interjections_only_tell {depth : Nat} (h : Reachable depth s) :
    (s.phase = .executing → ∀ text, ∃ told, after (deliver .passive text) s = s.tell told) ∧
    ∀ turns, Timely s turns → exchanges s turns = exchanges s (calm turns) ∧
      (final s turns).vars = (final s (calm turns)).vars := by
  refine ⟨deliver_tells, fun turns hm => ?_⟩
  obtain ⟨hx, hf⟩ := Abreast.turns ⟨h.sound, .refl s, rfl⟩ hm
  exact ⟨hx, hf.alike.vars⟩

/-- Editing, forgetting and starting the program over while it runs. -/
def heckling : List Turn :=
  [.interject "new", .step, .deliver "hi", .interject "20 PRINT 1", .interject "RUN", .interject "LIST",
    .step]

theorem parrot_undisturbed : (after (run .passive) parrot).phase = .executing ∧
    (∃ told, after (deliver .passive "LIST") (after (run .passive) parrot) =
      (after (run .passive) parrot).tell told) ∧
    Timely (after (run .passive) parrot) heckling ∧
    exchanges (after (run .passive) parrot) heckling =
      exchanges (after (run .passive) parrot) [.step, .deliver "hi", .step] ∧
    (exchanges (after (run .passive) parrot) heckling).map (·.told) =
      [[.line "? ", .request "? "], [.append "hi"], [.line "hi", ready]] := by
  have hm : Timely (after (run .passive) parrot) heckling := by decide +kernel
  have hs : (after (run .passive) parrot).phase = .executing := by decide +kernel
  obtain ⟨hd, hx⟩ := interjections_only_tell (parrot_reachable.call .run)
  exact ⟨hs, hd hs "LIST", hm, (hx heckling hm).1, by decide +kernel⟩

end LineBasic.Session
