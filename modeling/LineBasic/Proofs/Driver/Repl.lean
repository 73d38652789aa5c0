import LineBasic.Proofs.Session.Loop
import LineBasic.Repl

/-! The command loop drives a program in batches of statements. However large the batches are, the program
goes through states of the plain loop, and the console hears what that tells. -/

namespace LineBasic

namespace Console

@[simp] lemma heard_write (c : Console) (text : String) : (c.write text).heard = c.heard := rfl

@[simp] lemma heard_inputReceived (c : Console) : c.inputReceived.heard = c.heard := rfl

@[simp] lemma heard_finishLine (c : Console) : c.finishLine.heard = c.heard := by
  rw [finishLine]
  split <;> rfl

@[simp] lemma heard_handle (c : Console) (e : Event) : (c.handle e).heard = c.heard.push e := by
  cases e <;> simp [handle]

lemma heard_handleAll (c : Console) (es : List Event) :
    (c.handleAll es).heard.toList = c.heard.toList ++ es := by
  induction es generalizing c with
  | nil => simp [handleAll]
  | cons e es ih =>
    have hx := ih (c.handle e)
    simpa [handleAll] using hx

end Console

namespace Repl

open Session (Loop Trails Paces Act)

/-- A program that is driven, and the inputs that are left. -/
structure Drive where
  repl : Repl
  inputs : List Input

namespace Drive

def next (d : Drive) : Drive :=
  match d.repl.want, d.inputs with
  | .batch, inputs => ⟨d.repl.runBatch false, inputs⟩
  | .answer, [] => ⟨d.repl.feed .endOfInput, []⟩
  | .answer, input :: rest => ⟨d.repl.feed input, rest⟩
  | _, _ => d

def Done (d : Drive) : Prop := d.repl.stage ≠ .driving

/-- A driven program is where the loop is, and the console has heard all that the loop has told. -/
structure Shows (l : Loop) (d : Drive) : Prop where
  sound : l.Sound
  trails : Trails d.repl.console.heard.toList l.session d.repl.session
  events : d.repl.session.events = #[]
  inputs : d.inputs = l.answers.map .line
  driving : d.repl.stage = .driving ↔ l.session.running = true
  batchSize : 0 < d.repl.batchSize

lemma Shows.heard {l : Loop} {d : Drive} (h : Shows l d) :
    d.repl.console.heard.toList = l.session.events.toList := by
  simpa [h.events] using h.trails.events.symm

lemma play_next {d : Drive} (hd : d.repl.stage = .driving) (n : Nat) :
    play [] d.inputs d.repl (n + 1) = play [] d.next.inputs d.next.repl n := by
  obtain ⟨r, inputs⟩ := d
  have hw : r.want = .answer ∨ r.want = .batch := by
    have hs : r.stage = .driving := hd
    by_cases hp : r.session.phase = .awaiting <;> simp [want, hs, hp]
  rcases hw with hw | hw
  · cases inputs <;> simp [play, next, hw]
  · simp [play, next, hw]

/-- As long as a program is driven, the rounds of the command loop are those of the drive. -/
lemma play_iterate {d : Drive} {i : Nat} (h : ∀ j < i, ¬ (next^[j] d).Done) :
    play [] d.inputs d.repl i = (next^[i] d).repl := by
  induction i generalizing d with
  | zero => rfl
  | succ i ih =>
    have hd : d.repl.stage = .driving := not_not.mp (h 0 (Nat.succ_pos i))
    rw [play_next hd]
    exact ih fun j hj => h (j + 1) (Nat.succ_lt_succ hj)

section Rounds

variable {l l' : Loop} {d : Drive} {r : Repl}

lemma act_ok {α : Type} {call : Act α} {a : α} {t : Session} (h : call.run r.session = .ok a t)
    (go : Repl → Repl) : r.act call go =
      go { r with
        session := { t with events := #[] }
        console := r.console.handleAll t.events.toList } := by
  have hx : call r.session = .ok a t := h
  rw [Repl.act, hx]
  rfl

lemma Shows.act_proceed {α : Type} {call : Act α} {a : α} {t : Session} {inputs : List Input}
    (hs : l'.Sound) (hc : call.run r.session = .ok a t) (ht : Trails r.console.heard.toList l'.session t)
    (hi : inputs = l'.answers.map .line) (hb : 0 < r.batchSize) :
    Shows l' ⟨r.act call Repl.proceed, inputs⟩ := by
  have hr : l'.session.running = t.running := ht.alike.running
  have htr := ht.handOn
  rw [← Console.heard_handleAll] at htr
  rw [act_ok hc, Repl.proceed]
  split_ifs with hp
  · exact ⟨hs, htr, rfl, hi, by simpa using hr.trans hp, hb⟩
  · refine ⟨hs, ?_, rfl, hi, ?_, hb⟩
    · simpa [askCommand] using htr
    · have hp' : t.running ≠ true := hp
      simpa [askCommand, hr] using hp'

lemma Shows.batch (h : Shows l d) (hs : l.session.phase = .executing) :
    ∃ k, Shows (Loop.next^[k + 1] l) d.next := by
  obtain ⟨r, inputs⟩ := d
  have hst : r.stage = .driving := h.driving.mpr (by simp [Session.running, hs])
  have hw : r.want = .batch := by
    have hp : r.session.phase = .executing := h.trails.alike.phase ▸ hs
    simp [want, hst, hp]
  obtain ⟨j, hj, ha⟩ := h.sound.advance hs h.batchSize
  obtain ⟨t, ht, htr⟩ := h.trails.call h.sound.session (fun _ => .advance r.batchSize)
    (Session.tied_advanceFrom 0 _) hj
  have hn : next ⟨r, inputs⟩ = ⟨r.runBatch false, inputs⟩ := by simp [next, hw]
  rw [hn]
  refine ⟨j, ?_⟩
  simp only [runBatch, Bool.false_eq_true, if_false]
  apply Shows.act_proceed (h.sound.iterate _)
  · exact ht
  · exact htr
  · rw [ha]
    exact h.inputs
  · exact h.batchSize

lemma Shows.answer (h : Shows l d) (hs : l.session.phase = .awaiting) : Shows l.next d.next := by
  obtain ⟨r, inputs⟩ := d
  have hst : r.stage = .driving := h.driving.mpr (by simp [Session.running, hs])
  have hw : r.want = .answer := by
    have hp : r.session.phase = .awaiting := h.trails.alike.phase ▸ hs
    simp [want, hst, hp]
  have hi : inputs = l.answers.map .line := h.inputs
  obtain ⟨t, ht, htr⟩ := h.sound.trails h.trails
  cases ha : l.answers with
  | nil =>
    rw [Loop.call_unanswered hs ha] at ht
    have hn : next ⟨r, inputs⟩ = ⟨r.breakOff leave, []⟩ := by simp [next, hw, hi, ha, feed]
    have hover := h.sound.next_unanswered hs ha
    have htr := htr.handOn
    have hx := act_ok (r := r.finishLine) ht leave
    rw [hn, breakOff, hx]
    refine ⟨h.sound.next, ?_, rfl, ?_, ?_, h.batchSize⟩
    · simpa [leave, close, Repl.finishLine, Console.heard_handleAll] using htr
    · simp [Loop.next, hs, ha]
    · simp [leave, close, Session.running, hover]
  | cons text rest =>
    rw [Loop.call_awaiting hs ha] at ht
    have hn : next ⟨r, inputs⟩ = ⟨r.deliver text, rest.map .line⟩ := by simp [next, hw, hi, ha, feed]
    rw [hn]
    apply Shows.act_proceed h.sound.next
    · exact ht
    · exact htr
    · simp [Loop.next, hs, ha]
    · exact h.batchSize

lemma next_of_done (h : d.Done) : d.next = d := by
  have hw : d.repl.want = .command ∨ d.repl.want = .nothing := by
    rw [want]
    split
    · exact .inl rfl
    · exact .inr rfl
    · exact absurd ‹_› h
  rcases hw with hw | hw <;> simp [next, hw]

lemma shows_paces : Paces (fun _ => Shows) Done next := by
  intro n l d h
  cases hr : l.session.running with
  | false =>
    have hd : d.Done := fun hs => Bool.false_ne_true (hr.symm.trans (h.driving.mp hs))
    exact .inr (.inr ⟨rfl, hd, next_of_done hd⟩)
  | true =>
    refine .inl ⟨rfl, ?_⟩
    rcases (by simpa [Session.running] using hr :
      l.session.phase = .executing ∨ l.session.phase = .awaiting) with hs | hs
    · obtain ⟨k, hk⟩ := h.batch hs
      exact ⟨k, n, hk⟩
    · exact ⟨0, n, h.answer hs⟩

lemma shows_start {s : Session} {answers : List String} (hs : s.Sound) (hi : s.phase = .idle)
    (ha : ∀ text ∈ answers, ∃ x, Value.ofAnswer text = .ok x)
    (hr : r.session = { s with events := #[] }) (hh : r.console.heard = s.events)
    (hb : 0 < r.batchSize) : Shows (.start s answers) ⟨r.command "RUN", answers.map .line⟩ := by
  have hc : r.command "RUN" = r.deliver "RUN" := by
    have hw : Text.trim "RUN" = "RUN" := by decide +kernel
    have hf : isFarewell "RUN" = false := by decide +kernel
    simp [Repl.command, hw, hf]
  obtain ⟨u, hu⟩ := Session.exists_deliver_run hi
  have hst : (Loop.start s answers).session = u := by simp only [Loop.start, Session.after, hu]
  have ht : Trails r.console.heard.toList s r.session := by
    rw [hr, hh]
    exact ⟨{ Session.Alike.refl s with }, rfl, by simp⟩
  obtain ⟨t, ht, htr⟩ := ht.deliver hs hu
  rw [hc]
  apply Shows.act_proceed ⟨hs.deliver "RUN", ha⟩
  · exact ht
  · rwa [hst]
  · rfl
  · exact hb

end Rounds

end Drive

end Repl

end LineBasic
