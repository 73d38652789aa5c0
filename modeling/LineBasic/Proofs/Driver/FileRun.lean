import LineBasic.FileRun
import LineBasic.Proofs.Driver.Repl

/-! A program that is run beside other work, with its answers read from a stream. The drive task and its
client take turns in a fixed order, and between them the program goes through states of the plain loop. -/

namespace LineBasic

lemma Session.phase_cases (s : Session) :
    s.phase = .executing ∨ s.phase = .awaiting ∨ s.running = false := by
  cases hp : s.phase <;> simp [running, hp]

namespace Runner

variable {r : Runner} {t : Session} {n : Nat}

section Turns

lemma iterate_executing (hp : r.session.phase = .executing)
    (ht : (Session.step .passive).run r.session = .ok () t) : iterate .passive r =
      ({ r with session := t, steps := r.steps + 1 }.enter .yielded).enqueue .drive := by
  have hx : Session.step .passive r.session = .ok () t := ht
  simp [iterate, Session.running, hp, hx]

lemma iterate_awaiting (hp : r.session.phase = .awaiting) (hl : r.limit = .never) :
    iterate .passive r = { r with wake := false }.request.enter (.parked .pending) := by
  have hl' : (request { r with wake := false }).limit = .never := by
    rw [request]
    split <;> exact hl
  simp [iterate, Session.running, hp, park, hl']

lemma iterate_rest (hp : r.session.running = false) : iterate .passive r = r.conclude .finished := by
  simp [iterate, hp]

end Turns

/-- Nobody listens for the wake signal, which is only so if there is no limit. -/
structure Poised (r : Runner) (client : Client) (queue : List Job) : Prop where
  limit : r.limit = .never
  listener : r.listener.hearing = .fresh
  client : r.client = client
  queue : r.queue = queue

/-- There is no drive task, or one that has come to its end. -/
def Vacant (r : Runner) : Prop := r.task = none ∨ r.task = some ⟨.ended .finished, false⟩

lemma Vacant.active (h : Vacant r) : r.active = false := by
  rcases h with h | h
  · simp [Runner.active, h]
  · simp [Runner.active, h, Task.isAlive]

lemma Vacant.outcome (h : Vacant r) : r.outcome?.getD .finished = .finished := by
  rcases h with h | h <;> simp [outcome?, h]

inductive Blocked (r : Runner) : Prop
  | parked (ht : r.task = some ⟨.parked .pending, false⟩) (hp : r.session.phase = .awaiting)
      (hr : r.requested = true) (hw : r.wake = false)
  | ended (ht : Vacant r) (hp : r.session.running = false) (hr : r.requested = false)

/-- How a run and its client stand between two jobs. The number falls while no statement is executed. -/
inductive Posture (r : Runner) : Nat → Prop
  | yielded (ht : r.task = some ⟨.yielded, false⟩) (hr : r.requested = false)
      (h : Poised r .free [.drive]) : Posture r 9
  | looking (ht : r.task = some ⟨.yielded, false⟩) (hr : r.requested = false)
      (h : Poised r (.watching .fresh) [.drive, .watch]) : Posture r 8
  | looked (ht : r.task = some ⟨.yielded, false⟩) (hr : r.requested = false)
      (h : Poised r (.watching .fresh) [.watch, .drive]) : Posture r 7
  | listening (ht : r.task = some ⟨.yielded, false⟩) (hr : r.requested = false)
      (h : Poised r (.watching .listening) [.drive]) : Posture r 6
  | asked {lookout : Lookout} (hb : Blocked r) (hr : r.requested = true)
      (hl : lookout = .fresh ∨ lookout = .roused) (h : Poised r (.watching lookout) [.watch]) : Posture r 5
  | ended (hb : Blocked r) (hr : r.requested = false)
      (h : Poised r (.watching .fresh) [.watch, .notice]) : Posture r 5
  | noticed {lookout : Lookout} (hb : Blocked r) (h : Poised r (.watching lookout) [.notice]) : Posture r 4
  | called (hb : Blocked r) (h : Poised r .sleeping [.client]) : Posture r 3
  | free (hb : Blocked r) (h : Poised r .free []) : Posture r 2

/-- What a job makes of a posture: it executes a statement, or the number falls. -/
inductive Advanced (r : Runner) (n : Nat) (r' : Runner) : Prop
  | stepped {t : Session} {m : Nat} (hp : r.session.phase = .executing)
      (ht : (Session.step .passive).run r.session = .ok () t) (hs : r'.session = t)
      (hn : r'.steps = r.steps + 1) (h : Posture r' m)
  | closer {m : Nat} (hs : r'.session = r.session) (hn : r'.steps = r.steps) (hm : m < n)
      (h : Posture r' m)

section Advance

lemma Blocked.of_eq {r' : Runner} (h : Blocked r) (hs : r'.session.phase = r.session.phase)
    (ht : r'.task = r.task) (hr : r'.requested = r.requested) (hw : r'.wake = r.wake) : Blocked r' := by
  cases h with
  | parked ht' hp hr' hw' => exact .parked (ht.trans ht') (hs.trans hp) (hr.trans hr') (hw.trans hw')
  | ended ht' hp hr' =>
    refine .ended (ht'.imp ht.trans ht.trans) ?_ (hr.trans hr')
    rw [Session.running, hs]
    exact hp

lemma Posture.handOn (h : Posture r n) : Posture { r with session.events := #[] } n := by
  cases h with
  | yielded ht hr h => exact .yielded ht hr { h with }
  | looking ht hr h => exact .looking ht hr { h with }
  | looked ht hr h => exact .looked ht hr { h with }
  | listening ht hr h => exact .listening ht hr { h with }
  | asked hb hr hl h => exact .asked (hb.of_eq rfl rfl rfl rfl) hr hl { h with }
  | ended hb hr h => exact .ended (hb.of_eq rfl rfl rfl rfl) hr { h with }
  | noticed hb h => exact .noticed (hb.of_eq rfl rfl rfl rfl) { h with }
  | called hb h => exact .called (hb.of_eq rfl rfl rfl rfl) { h with }
  | free hb h => exact .free (hb.of_eq rfl rfl rfl rfl) { h with }

variable {job : Job} {rest : List Job}

lemma advance_cons (hq : r.queue = job :: rest) :
    r.advance .passive = runJob .passive { r with queue := rest } job := by
  simp [advance, hq]

lemma advance_drive (hq : r.queue = .drive :: rest) (ht : r.task = some ⟨.yielded, false⟩) :
    r.advance .passive = iterate .passive { r with queue := rest } := by
  simp [advance_cons hq, runJob, turn, ht]

lemma advance_executing (hq : r.queue = .drive :: rest) (ht : r.task = some ⟨.yielded, false⟩)
    (hp : r.session.phase = .executing) (hx : (Session.step .passive).run r.session = .ok () t) :
    r.advance .passive = { r with
      session := t, steps := r.steps + 1, task := some ⟨.yielded, false⟩, queue := rest ++ [.drive] } := by
  rw [advance_drive hq ht]
  exact iterate_executing hp hx

lemma advance_awaiting (hq : r.queue = .drive :: rest) (ht : r.task = some ⟨.yielded, false⟩)
    (hp : r.session.phase = .awaiting) (hl : r.limit = .never) :
    r.advance .passive = (request { r with queue := rest, wake := false }).enter (.parked .pending) := by
  rw [advance_drive hq ht]
  exact iterate_awaiting hp hl

lemma advance_rest (hq : r.queue = .drive :: rest) (ht : r.task = some ⟨.yielded, false⟩)
    (hp : r.session.running = false) :
    r.advance .passive = conclude { r with queue := rest } .finished := by
  rw [advance_drive hq ht]
  exact iterate_rest hp

lemma advance_looking (hs : r.session.Sound) (ht : r.task = some ⟨.yielded, false⟩)
    (hr : r.requested = false) (h : Poised r (.watching .fresh) [.drive, .watch]) :
    Advanced r 8 (r.advance .passive) := by
  rcases r.session.phase_cases with hp | hp | hp
  · obtain ⟨t, hx, -⟩ := hs.step
    rw [advance_executing h.queue ht hp hx]
    exact .stepped hp hx rfl rfl (.looked rfl hr ⟨h.limit, h.listener, h.client, rfl⟩)
  · have hq : request { r with queue := [.watch], wake := false } =
        { r with queue := [.watch], wake := false, requested := true } := by
      simp [request, h.client]
    rw [advance_awaiting h.queue ht hp h.limit, hq]
    have hb : Blocked (enter { r with queue := [.watch], wake := false, requested := true }
      (.parked .pending)) := .parked rfl hp rfl rfl
    exact .closer rfl rfl (by omega) (.asked hb rfl (.inl rfl) ⟨h.limit, h.listener, h.client, rfl⟩)
  · have hq : conclude { r with queue := [.watch] } .finished =
        { r with queue := [.watch, .notice], task := some ⟨.ended .finished, false⟩ } := by
      simp [conclude, enter, enqueue, h.client]
    rw [advance_rest h.queue ht hp, hq]
    exact .closer rfl rfl (by omega)
      (.ended (.ended (.inr rfl) hp hr) hr ⟨h.limit, h.listener, h.client, rfl⟩)

lemma advance_listening (hs : r.session.Sound) (ht : r.task = some ⟨.yielded, false⟩)
    (hr : r.requested = false) (h : Poised r (.watching .listening) [.drive]) :
    Advanced r 6 (r.advance .passive) := by
  rcases r.session.phase_cases with hp | hp | hp
  · obtain ⟨t, hx, -⟩ := hs.step
    rw [advance_executing h.queue ht hp hx]
    exact .stepped hp hx rfl rfl (.listening rfl hr ⟨h.limit, h.listener, h.client, rfl⟩)
  · have hq : request { r with queue := [], wake := false } =
        { r with queue := [.watch], wake := false, requested := true, client := .watching .roused } := by
      simp [request, h.client, enqueue]
    rw [advance_awaiting h.queue ht hp h.limit, hq]
    have hb : Blocked (enter { r with
      queue := [.watch], wake := false, requested := true, client := .watching .roused }
        (.parked .pending)) := .parked rfl hp rfl rfl
    exact .closer rfl rfl (by omega) (.asked hb rfl (.inr rfl) ⟨h.limit, h.listener, rfl, rfl⟩)
  · have hq : conclude { r with queue := [] } .finished =
        { r with queue := [.notice], task := some ⟨.ended .finished, false⟩ } := by
      simp [conclude, enter, enqueue, h.client]
    rw [advance_rest h.queue ht hp, hq]
    exact .closer rfl rfl (by omega)
      (.noticed (.ended (.inr rfl) hp hr) ⟨h.limit, h.listener, h.client, rfl⟩)

lemma Posture.advance (hs : r.session.Sound) (h : Posture r n) (hc : r.client ≠ .free) :
    Advanced r n (r.advance .passive) := by
  cases h with
  | yielded ht hr h => exact absurd h.client hc
  | looking ht hr h => exact advance_looking hs ht hr h
  | looked ht hr h =>
    have hq : runJob .passive { r with queue := [.drive] } .watch =
        { r with queue := [.drive], client := .watching .listening } := by
      simp [runJob, watch, h.client, hr]
    rw [advance_cons h.queue, hq]
    exact .closer rfl rfl (by omega) (.listening ht hr ⟨h.limit, h.listener, rfl, rfl⟩)
  | listening ht hr h => exact advance_listening hs ht hr h
  | asked hb hr hl h =>
    have hq : runJob .passive { r with queue := [] } .watch =
        { r with queue := [.notice], client := .watching .done } := by
      rcases hl with rfl | rfl <;> simp [runJob, watch, h.client, hr, enqueue]
    rw [advance_cons h.queue, hq]
    exact .closer rfl rfl (by omega)
      (.noticed (hb.of_eq rfl rfl rfl rfl) ⟨h.limit, h.listener, rfl, rfl⟩)
  | ended hb hr h =>
    have hq : runJob .passive { r with queue := [.notice] } .watch =
        { r with queue := [.notice], client := .watching .listening } := by
      simp [runJob, watch, h.client, hr]
    rw [advance_cons h.queue, hq]
    exact .closer rfl rfl (by omega)
      (.noticed (hb.of_eq rfl rfl rfl rfl) ⟨h.limit, h.listener, rfl, rfl⟩)
  | noticed hb h =>
    have hq : runJob .passive { r with queue := [] } .notice =
        { r with queue := [.client], client := .sleeping } := by
      simp [runJob, notify, h.client]
    rw [advance_cons h.queue, hq]
    exact .closer rfl rfl (by omega) (.called (hb.of_eq rfl rfl rfl rfl) ⟨h.limit, h.listener, rfl, rfl⟩)
  | called hb h =>
    rw [advance_cons h.queue]
    exact .closer rfl rfl (by omega) (.free (hb.of_eq rfl rfl rfl rfl) ⟨h.limit, h.listener, rfl, rfl⟩)
  | free hb h => exact absurd h.client hc

end Advance

section Submit

/-- A task was launched or woken and has not had its turn. -/
structure Due (r : Runner) : Prop where
  task : r.task = some ⟨.fresh, false⟩ ∨ r.task = some ⟨.parked .given, false⟩
  requested : r.requested = false

lemma Due.turn (h : Due r) : turn .passive r = iterate .passive r := by
  obtain ⟨session, limit, wake, requested, steps, task, former, wait, listener, client, queue⟩ := r
  obtain rfl : requested = false := h.requested
  rcases h.task with ht | ht
  · obtain rfl : task = _ := ht
    rfl
  · obtain rfl : task = _ := ht
    rfl

lemma sleep_drive (hq : r.queue = [.drive]) {r' : Runner}
    (ht : turn .passive { r with client := .sleeping, queue := [.client] } = r')
    (hc : r'.client = .sleeping) {rest : List Job} (hq' : r'.queue = .client :: rest) :
    sleep .passive r = { r' with client := .free, queue := rest } := by
  have ha : Runner.advance .passive { r with client := .sleeping, queue := [.drive, .client] } = r' := by
    simpa [Runner.advance, runJob] using ht
  simp [sleep, hq, enqueue, serve, ha, hc, advance_cons hq', runJob]

lemma Due.sleep_executing (h : Due r) (hq : r.queue = [.drive]) (hp : r.session.phase = .executing)
    (hx : (Session.step .passive).run r.session = .ok () t) : sleep .passive r =
      { r with
        session := t, steps := r.steps + 1, task := some ⟨.yielded, false⟩, client := .free,
        queue := [.drive] } := by
  have hd : Due { r with client := .sleeping, queue := [.client] } := { h with }
  have ht := hd.turn
  rw [iterate_executing (r := { r with client := .sleeping, queue := [.client] }) hp hx] at ht
  exact sleep_drive hq ht rfl rfl

lemma Due.sleep_rest (h : Due r) (hq : r.queue = [.drive]) (hp : r.session.running = false) :
    sleep .passive r =
      { r with task := some ⟨.ended .finished, false⟩, client := .free, queue := [] } := by
  have hd : Due { r with client := .sleeping, queue := [.client] } := { h with }
  have ht := hd.turn
  rw [iterate_rest (r := { r with client := .sleeping, queue := [.client] }) hp] at ht
  exact sleep_drive hq ht rfl rfl

/-- What the delivery of a line comes to, if it starts a run or answers an `INPUT`: the run has its turn. -/
inductive Submitted (r : Runner) (s : Session) (r' : Runner) : Prop
  | stepped {t : Session} (hp : s.phase = .executing) (ht : (Session.step .passive).run s = .ok () t)
      (hs : r'.session = t) (hn : r'.steps = r.steps + 1) (h : Posture r' 9)
  | rested (hp : s.running = false) (hs : r'.session = s) (hn : r'.steps = r.steps) (h : Posture r' 2)

lemma Due.submitted (h : Due r) (hp : Poised r .free [.drive]) (hs : r.session.Sound)
    (ha : r.session.phase ≠ .awaiting) : Submitted r r.session (sleep .passive r) := by
  by_cases he : r.session.phase = .executing
  · obtain ⟨t, hx, -⟩ := hs.step
    rw [h.sleep_executing hp.queue he hx]
    exact .stepped he hx rfl rfl (.yielded rfl h.requested ⟨hp.limit, hp.listener, rfl, rfl⟩)
  · have hr : r.session.running = false := by simp [Session.running, he, ha]
    rw [h.sleep_rest hp.queue hr]
    exact .rested hr rfl rfl
      (.free (.ended (.inr rfl) hr h.requested) ⟨hp.limit, hp.listener, rfl, rfl⟩)

lemma submit_answer {text : String} {s : Session} (hp : Poised r .free [])
    (ht : r.task = some ⟨.parked .pending, false⟩) (hw : r.wake = false)
    (hd : (Session.deliver .passive text).run r.session = .ok () s) (hs : s.Sound)
    (ha : s.phase ≠ .awaiting) :
    ∃ r', r.submit .passive text = (.ok (), r') ∧ Submitted r s r' := by
  have hx : Session.deliver .passive text r.session = .ok () s := hd
  have hr : rouse { r with session := s, requested := false } = { r with
      session := s, requested := false, wake := true, task := some ⟨.parked .given, false⟩,
      queue := [.drive] } := by
    simp [rouse, hw, hp.listener, ht, enqueue, hp.queue]
  have hrec : r.receive .passive text = (.ok (), { r with
      session := s, requested := false, wake := true, task := some ⟨.parked .given, false⟩,
      queue := [.drive] }) := by
    have hac : active { r with session := s } = true := by simp [active, ht, Task.isAlive]
    simp [receive, hx, hac, hr]
  have hdue : Due { r with
      session := s, requested := false, wake := true, task := some ⟨.parked .given, false⟩,
      queue := [.drive] } := ⟨.inr rfl, rfl⟩
  have hsub := hdue.submitted ⟨hp.limit, hp.listener, hp.client, rfl⟩ hs ha
  refine ⟨_, by rw [submit, hrec], ?_⟩
  cases hsub with
  | stepped hp ht hs hn h => exact .stepped hp ht hs hn h
  | rested hp hs hn h => exact .rested hp hs hn h

lemma submit_run {s t : Session} (hd : (Session.deliver .passive "RUN").run s = .ok () t) (hs : t.Sound)
    (ha : t.phase ≠ .awaiting) : ∃ r', submit .passive "RUN" { session := s } = (.ok (), r') ∧
      Submitted { session := s } t r' := by
  have hx : Session.deliver .passive "RUN" s = .ok () t := hd
  by_cases he : t.phase = .executing
  · have hrec : receive .passive "RUN" { session := s } = (.ok (), launch { session := t }) := by
      simp [receive, hx, he, active]
    have hdue : Due (launch { session := t }) := ⟨.inl rfl, rfl⟩
    have hsub := hdue.submitted ⟨rfl, rfl, rfl, rfl⟩ hs ha
    refine ⟨_, by rw [submit, hrec], ?_⟩
    cases hsub with
    | stepped hp ht hs hn h => exact .stepped hp ht hs hn h
    | rested hp hs hn h => exact .rested hp hs hn h
  · have hrec : receive .passive "RUN" { session := s } = (.ok (), { session := t }) := by
      simp [receive, hx, he, active]
    have hr : t.running = false := by simp [Session.running, he, ha]
    have hsl : sleep .passive { session := t } = { session := t } := by
      simp [sleep, serve, Runner.advance, runJob, enqueue]
    refine ⟨{ session := t }, by simp only [submit, hrec, hsl], ?_⟩
    exact .rested hr rfl rfl (.free (.ended (.inl rfl) hr rfl) ⟨rfl, rfl, rfl, rfl⟩)

end Submit

end Runner

namespace FileRun

open Session (Loop Trails Paces Tracks)
open Runner (Posture Blocked Poised Submitted)

def answerOf (line : String) : String := .ofList (Text.trimEndBy isLineEnding line.toList)

structure Reading where
  run : FileRun
  lines : List String

namespace Reading

def next (d : Reading) : Reading :=
  match d.run.want, d.lines with
  | .nothing, _ => d
  | .round, _ => { d with run := d.run.round }
  | .answer, [] => { d with run := d.run.feed .endOfInput }
  | .answer, line :: rest => ⟨d.run.feed (.line line), rest⟩

lemma play_iterate (d : Reading) (i : Nat) : play (d.lines.map .line) d.run i = (next^[i] d).run := by
  induction i generalizing d with
  | zero => rfl
  | succ i ih =>
    obtain ⟨f, lines⟩ := d
    cases hw : f.want with
    | nothing =>
      have hn : next ⟨f, lines⟩ = ⟨f, lines⟩ := by simp [next, hw]
      rw [Function.iterate_fixed hn]
      simp [play, hw]
    | round =>
      rw [Function.iterate_succ_apply, ← ih]
      simp [play, next, hw]
    | answer =>
      rw [Function.iterate_succ_apply, ← ih]
      cases lines <;> simp [play, next, hw]

def Done (d : Reading) : Prop := d.run.stage = .ended .finished

/-- The program is where the loop is, with as many steps made, and the console has heard all that the loop
has told. -/
structure Shows (l : Loop) (d : Reading) : Prop where
  sound : l.Sound
  trails : Trails d.run.console.heard.toList l.session d.run.runner.session
  events : d.run.runner.session.events = #[]
  steps : d.run.runner.steps = l.steps
  answers : l.answers = d.lines.map answerOf

variable {l : Loop} {d : Reading} {f : FileRun} {lines : List String} {r : Runner}

lemma Shows.heard (h : Shows l d) : d.run.console.heard.toList = l.session.events.toList := by
  simpa [h.events] using h.trails.events.symm

lemma Shows.update (hs : l.Sound) (ht : Trails f.console.heard.toList l.session r.session)
    (hn : r.steps = l.steps) (ha : l.answers = lines.map answerOf) : Shows l ⟨f.update r, lines⟩ := by
  have htr := ht.handOn
  rw [← Console.heard_handleAll] at htr
  exact ⟨hs, htr, rfl, hn, ha⟩

/-- How a run stands to the loop between two rounds. -/
inductive Stands : Nat → Loop → Reading → Prop
  | driving {n : Nat} {l : Loop} {d : Reading} (h : Shows l d) (hs : d.run.stage = .driving)
      (hp : Posture d.run.runner n) : Stands n l d
  | stopped {l : Loop} {d : Reading} (h : Shows l d) (hs : d.run.stage = .closing)
      (hr : l.session.running = false) (hp : Poised d.run.runner .free [.drive])
      (ht : d.run.runner.task = some ⟨.parked .given, false⟩) : Stands 2 l d
  | closing {l : Loop} {d : Reading} (h : Shows l d) (hs : d.run.stage = .closing)
      (hr : l.session.running = false) (ht : d.run.runner.Vacant) : Stands 1 l d
  | ended {l : Loop} {d : Reading} (h : Shows l d) (hs : d.Done) (hr : l.session.running = false) :
      Stands 0 l d

lemma Stands.shows {n : Nat} (h : Stands n l d) : Shows l d := by
  cases h <;> assumption

lemma next_of_round (hw : d.run.want = .round) : d.next = ⟨d.run.round, d.lines⟩ := by simp [next, hw]

lemma Shows.running (h : Shows l d) : d.run.runner.session.running = l.session.running :=
  h.trails.alike.running.symm

lemma Shows.soundRun (h : Shows l d) : d.run.runner.session.Sound := h.trails.sound h.sound.session

lemma Shows.job {n : Nat} (h : Shows l d) (hs : d.run.stage = .driving) (hp : Posture d.run.runner n)
    (hc : d.run.runner.client ≠ .free) :
    (l.session.running = true ∧ ∃ k m, Stands m (Loop.next^[k + 1] l) d.next) ∨
      ∃ m < n, Stands m l d.next := by
  obtain ⟨f, lines⟩ := d
  have hs' : f.stage = .driving := hs
  have hc' : f.runner.client ≠ .free := hc
  have hn : next ⟨f, lines⟩ = ⟨f.update (f.runner.advance .passive), lines⟩ := by
    rw [next_of_round (by simp [want, hs', hc'])]
    simp [round, hs', hc']
  rw [hn]
  cases hp.advance h.soundRun hc with
  | @stepped t m hex ht hst hsteps hpost =>
    have hl : l.session.phase = .executing := h.trails.alike.phase.trans hex
    obtain ⟨t', ht', htr⟩ := h.sound.trails h.trails
    rw [Loop.call_executing hl, ht] at ht'
    cases ht'
    refine .inl ⟨by simp [Session.running, hl], 0, m, .driving ?_ hs hpost.handOn⟩
    apply Shows.update h.sound.next
    · rwa [hst]
    · rw [hsteps, show f.runner.steps = l.steps from h.steps]
      simp [Loop.next, hl]
    · simpa [Loop.next, hl] using h.answers
  | @closer m hst hsteps hm hpost =>
    refine .inr ⟨m, hm, .driving ?_ hs hpost.handOn⟩
    apply Shows.update h.sound
    · rw [hst]
      exact h.trails
    · exact hsteps.trans h.steps
    · exact h.answers

lemma Shows.look (h : Shows l d) (hs : d.run.stage = .driving)
    (ht : d.run.runner.task = some ⟨.yielded, false⟩) (hr : d.run.runner.requested = false)
    (hp : Poised d.run.runner .free [.drive]) : Stands 8 l d.next := by
  obtain ⟨f, lines⟩ := d
  have hs' : f.stage = .driving := hs
  have hc : f.runner.client = .free := hp.client
  have hr' : f.runner.requested = false := hr
  have ha : f.runner.active = true := by
    have ht' : f.runner.task = some ⟨.yielded, false⟩ := ht
    simp [Runner.active, ht', Runner.Task.isAlive]
  have hn : next ⟨f, lines⟩ = ⟨f.update f.runner.lookOut, lines⟩ := by
    rw [next_of_round (by simp [want, hs', hr'])]
    simp [round, hs', hc, ha]
  have hpost : Posture f.runner.lookOut 8 := by
    refine .looking ht hr ⟨hp.limit, hp.listener, rfl, ?_⟩
    have hq : f.runner.queue = [.drive] := hp.queue
    simp [Runner.lookOut, Runner.enqueue, hq]
  rw [hn]
  exact .driving (Shows.update h.sound h.trails h.steps h.answers) hs hpost.handOn

@[simp] lemma lineRead_runner (f : FileRun) : f.lineRead.runner = f.runner := rfl

@[simp] lemma lineRead_heard (f : FileRun) : f.lineRead.console.heard = f.console.heard := by
  simp only [lineRead]
  split <;> simp

/-- A line was handed to the run, and the run has had its turn. -/
lemma Shows.submitted {s : Session} {r' : Runner} (hl : l.Sound)
    (ht : Trails f.console.heard.toList l.session s) (hn : r.steps = l.steps)
    (ha : l.answers = lines.map answerOf) (hs : f.stage = .driving) (h : Submitted r s r') :
    ∃ k m, Stands m (Loop.next^[k] l) ⟨f.update r', lines⟩ := by
  cases h with
  | stepped hp hx hst hsteps hpost =>
    have hex : l.session.phase = .executing := ht.alike.phase.trans hp
    obtain ⟨t, ht', htr⟩ := hl.trails ht
    rw [Loop.call_executing hex, hx] at ht'
    cases ht'
    refine ⟨1, 9, .driving ?_ hs hpost.handOn⟩
    apply Shows.update hl.next
    · rwa [hst]
    · rw [hsteps, hn]
      simp [Loop.next, hex]
    · simpa [Loop.next, hex] using ha
  | rested hp hst hsteps hpost =>
    refine ⟨0, 2, .driving ?_ hs hpost.handOn⟩
    apply Shows.update hl
    · rwa [hst]
    · exact hsteps.trans hn
    · exact ha

lemma want_answer (hs : f.stage = .driving) (hp : Poised f.runner .free [])
    (ht : f.runner.task = some ⟨.parked .pending, false⟩) (hr : f.runner.requested = true) :
    f.want = .answer := by
  simp [want, hs, hp.client, Runner.active, ht, Runner.Task.isAlive, hr]

lemma Shows.answer (h : Shows l d) (hs : d.run.stage = .driving) (hp : Poised d.run.runner .free [])
    (ht : d.run.runner.task = some ⟨.parked .pending, false⟩) (hw : d.run.runner.wake = false)
    (hr : d.run.runner.requested = true) (ha : d.run.runner.session.phase = .awaiting) {line : String}
    {rest : List String} (hd : d.lines = line :: rest) :
    ∃ k m, Stands m (Loop.next^[k + 1] l) d.next := by
  obtain ⟨f, lines⟩ := d
  obtain rfl : lines = line :: rest := hd
  have hl : l.session.phase = .awaiting := h.trails.alike.phase.trans ha
  have hans : l.answers = answerOf line :: rest.map answerOf := h.answers
  obtain ⟨s, hx, htr⟩ := h.sound.trails h.trails
  rw [Loop.call_awaiting hl hans] at hx
  have hsn : s.phase ≠ .awaiting := htr.alike.phase ▸ h.sound.next_not_awaiting hl
  obtain ⟨r', hr', hsub⟩ := Runner.submit_answer hp ht hw hx (htr.sound h.sound.next.session) hsn
  have hn : next ⟨f, line :: rest⟩ = ⟨f.lineRead.update r', rest⟩ := by
    have hwant : f.want = .answer := want_answer hs hp ht hr
    have hr'' : f.runner.submit .passive (answerOf line) = (.ok (), r') := hr'
    simp only [next, hwant, feed, submit, lineRead_runner]
    rw [← answerOf, hr'']
  rw [hn]
  refine Shows.submitted h.sound.next ?_ ?_ ?_ hs hsub
  · rwa [lineRead_heard]
  · rw [h.steps]
    simp [Loop.next, hl]
  · simp [Loop.next, hl, hans]

lemma Shows.endOfInput (h : Shows l d) (hs : d.run.stage = .driving) (hp : Poised d.run.runner .free [])
    (ht : d.run.runner.task = some ⟨.parked .pending, false⟩) (hw : d.run.runner.wake = false)
    (hr : d.run.runner.requested = true) (ha : d.run.runner.session.phase = .awaiting)
    (hd : d.lines = []) : Stands 2 l.next d.next := by
  obtain ⟨f, lines⟩ := d
  obtain rfl : lines = [] := hd
  have hl : l.session.phase = .awaiting := h.trails.alike.phase.trans ha
  have hans : l.answers = [] := h.answers
  have hover : l.next.session.running = false := by
    simp [Session.running, h.sound.next_unanswered hl hans]
  obtain ⟨s, hx, htr⟩ := h.sound.trails h.trails
  rw [Loop.call_unanswered hl hans] at hx
  have hstop : f.runner.stop .passive = (.ok (), { f.runner with
      session := s, wake := true, task := some ⟨.parked .given, false⟩, queue := [.drive] }) := by
    have hx' : Session.stop .passive (some "BREAK") f.runner.session = .ok () s := hx
    have hw' : f.runner.wake = false := hw
    have ht' : f.runner.task = some ⟨.parked .pending, false⟩ := ht
    have hlis : f.runner.listener.hearing = .fresh := hp.listener
    have hq : f.runner.queue = [] := hp.queue
    simp [Runner.stop, hx', Runner.rouse, hw', hlis, ht', Runner.enqueue, hq]
  have hn : next ⟨f, []⟩ = ⟨{ f.lineRead.update { f.runner with
      session := s, wake := true, task := some ⟨.parked .given, false⟩, queue := [.drive] } with
        stage := .closing }, []⟩ := by
    have hwant : f.want = .answer := want_answer hs hp ht hr
    simp only [next, hwant, feed, lineRead_runner, hstop]
  rw [hn]
  have hsh : Shows l.next ⟨f.lineRead.update { f.runner with
      session := s, wake := true, task := some ⟨.parked .given, false⟩, queue := [.drive] }, []⟩ := by
    apply Shows.update h.sound.next
    · rwa [lineRead_heard]
    · rw [show f.runner.steps = l.steps from h.steps]
      simp [Loop.next, hl]
    · simp [Loop.next, hl, hans]
  exact .stopped { hsh with } rfl hover ⟨hp.limit, hp.listener, hp.client, rfl⟩ rfl

lemma Shows.stopped (h : Shows l d) (hs : d.run.stage = .closing) (hr : l.session.running = false)
    (hp : Poised d.run.runner .free [.drive])
    (ht : d.run.runner.task = some ⟨.parked .given, false⟩) : Stands 1 l d.next := by
  obtain ⟨f, lines⟩ := d
  have hs' : f.stage = .closing := hs
  have ht' : f.runner.task = some ⟨.parked .given, false⟩ := ht
  have hc : f.runner.client = .free := hp.client
  have ha : f.runner.active = true := by simp [Runner.active, ht', Runner.Task.isAlive]
  have hx : f.runner.advance .passive = { f.runner with
      queue := [], requested := false, task := some ⟨.ended .finished, false⟩ } := by
    have hrun : f.runner.session.running = false := h.running.trans hr
    rw [Runner.advance_cons hp.queue]
    simp [Runner.runJob, Runner.turn, ht', Runner.iterate, hrun, Runner.conclude, Runner.enter, hc]
  have hn : next ⟨f, lines⟩ = ⟨f.update { f.runner with
      queue := [], requested := false, task := some ⟨.ended .finished, false⟩ }, lines⟩ := by
    rw [next_of_round (by simp [want, hs'])]
    simp [round, hs', ha, hx]
  rw [hn]
  exact .closing (Shows.update h.sound h.trails h.steps h.answers) hs hr (.inr rfl)

lemma Shows.close (h : Shows l d) (hs : d.run.stage = .closing) (hr : l.session.running = false)
    (ht : d.run.runner.Vacant) : Stands 0 l d.next := by
  obtain ⟨f, lines⟩ := d
  have hs' : f.stage = .closing := hs
  have ha : f.runner.active = false := ht.active
  have ho : f.runner.outcome?.getD .finished = .finished := ht.outcome
  have hn : next ⟨f, lines⟩ =
      ⟨{ f with console := f.console.finishLine, stage := .ended .finished }, lines⟩ := by
    rw [next_of_round (by simp [want, hs'])]
    simp [round, hs', ha, finish, ho]
  rw [hn]
  refine .ended { h with trails := ?_ } rfl hr
  simpa using h.trails

lemma Shows.leave (h : Shows l d) (hs : d.run.stage = .driving) (ht : d.run.runner.Vacant)
    (hp : Poised d.run.runner .free []) (hr : l.session.running = false) : Stands 1 l d.next := by
  obtain ⟨f, lines⟩ := d
  have hs' : f.stage = .driving := hs
  have hc : f.runner.client = .free := hp.client
  have ha : f.runner.active = false := ht.active
  have hn : next ⟨f, lines⟩ = ⟨{ f with stage := .closing }, lines⟩ := by
    rw [next_of_round (by simp [want, hs', ha])]
    simp [round, hs', hc, ha]
  rw [hn]
  exact .closing { h with } rfl hr ht

lemma stands_paces : Paces Stands Done next := by
  intro n l d h
  cases h with
  | driving h hs hp =>
    -- A client that is free makes the next call; otherwise the next job of the queue is done.
    by_cases hc : d.run.runner.client = .free
    · cases hp with
      | yielded ht hr hp => exact .inr (.inl ⟨8, by omega, h.look hs ht hr hp⟩)
      | free hb hp =>
        cases hb with
        | parked ht ha hr hw =>
          have hl : l.session.running = true := by
            simp [Session.running, h.trails.alike.phase.trans ha]
          refine .inl ⟨hl, ?_⟩
          cases hd : d.lines with
          | nil => exact ⟨0, 2, h.endOfInput hs hp ht hw hr ha hd⟩
          | cons line rest => exact h.answer hs hp ht hw hr ha hd
        | ended ht hr =>
          exact .inr (.inl ⟨1, by omega, h.leave hs ht hp (h.running.symm.trans hr)⟩)
      | looking _ _ hp | looked _ _ hp | listening _ _ hp | asked _ _ _ hp | ended _ _ hp | noticed _ hp
      | called _ hp => simp [hp.client] at hc
    · rcases h.job hs hp hc with hx | hx
      · exact .inl hx
      · exact .inr (.inl hx)
  | stopped h hs hr hp ht => exact .inr (.inl ⟨1, by omega, h.stopped hs hr hp ht⟩)
  | closing h hs hr ht => exact .inr (.inl ⟨0, by omega, h.close hs hr ht⟩)
  | ended h hs hr =>
    refine .inr (.inr ⟨hr, hs, ?_⟩)
    have hw : d.run.want = .nothing := by
      rw [want, show d.run.stage = .ended .finished from hs]
    simp [next, hw]

lemma Stands.reads {n : Nat} (h : Stands n l d) (hw : d.run.want = .answer) :
    d.run.runner.session.phase = .awaiting := by
  cases h with
  | stopped _ hs => simp [want, hs] at hw
  | closing _ hs => simp [want, hs] at hw
  | ended _ hs => simp [want, show d.run.stage = .ended .finished from hs] at hw
  | driving h hs hp =>
    obtain ⟨hc, ha, hr⟩ : d.run.runner.client = .free ∧ d.run.runner.active = true ∧
        d.run.runner.requested = true := by simpa [want, hs] using hw
    cases hp with
    | free hb =>
      cases hb with
      | parked _ hp => exact hp
      | ended ht => exact absurd (ht.active.symm.trans ha) Bool.false_ne_true
    | yielded _ hn => exact absurd (hn.symm.trans hr) Bool.false_ne_true
    | looking _ _ hp | looked _ _ hp | listening _ _ hp | asked _ _ _ hp | ended _ _ hp | noticed _ hp
    | called _ hp => simp [hp.client] at hc

lemma stands_start {s : Session} (hs : s.Sound) (hi : s.phase = .idle)
    (ha : ∀ text ∈ lines.map answerOf, ∃ x, Value.ofAnswer text = .ok x) (terminal : Bool) :
    ∃ k m, Stands m (Loop.next^[k] (.start s (lines.map answerOf))) ⟨start s .never terminal, lines⟩ := by
  obtain ⟨t, ht⟩ := Session.exists_deliver_run hi
  have hl : Loop.Sound (.start s (lines.map answerOf)) := ⟨hs.deliver "RUN", ha⟩
  have hst : (Loop.start s (lines.map answerOf)).session = t := by
    simp only [Loop.start, Session.after, ht]
  have hn : t.phase ≠ .awaiting := by
    have hx := Session.deliver_not_awaiting "RUN" s (by simp [hi])
    rwa [Session.after, ht] at hx
  obtain ⟨r', hr', hsub⟩ := Runner.submit_run ht (hst ▸ hl.session) hn
  have hx : start s .never terminal = update { runner := { session := s }, terminal } r' := by
    simp only [start, submit, hr']
  rw [hx]
  refine Shows.submitted hl ?_ rfl rfl rfl hsub
  rw [hst]
  exact ⟨Session.Alike.refl t, rfl, rfl⟩

end Reading

theorem drivers_follow_loop {depth : Nat} {s : Session} (h : s.Reachable depth) (hi : s.phase = .idle) :
    (∀ (host : Session.Host) (m n : Nat) (t : Session), (Session.advance host (m + n)).run t = (do
      let j ← Session.advance host m
      let k ← Session.advance host n
      return j + k).run t) ∧
    (∀ answers : List String, (∀ text ∈ answers, ∃ x, Value.ofAnswer text = .ok x) →
      (∃ t, (Session.deliver .passive "RUN").run s = .ok () t) ∧
      (∀ k, ∃ t, (Loop.next^[k] (.start s answers)).call.run
        (Loop.next^[k] (.start s answers)).session = .ok () t) ∧
      ∀ r : Repl, r.session = { s with events := #[] } → r.console.heard = s.events → 0 < r.batchSize →
        let d : Repl.Drive := ⟨r.command "RUN", answers.map .line⟩
        Tracks Repl.Drive.Shows Repl.Drive.Done (.start s answers) (fun i => Repl.Drive.next^[i] d) ∧
        ∀ i, (∀ j < i, ¬ (Repl.Drive.next^[j] d).Done) →
          Repl.play [] d.inputs d.repl i = (Repl.Drive.next^[i] d).repl) ∧
    (∀ (lines : List String) (terminal : Bool),
      (∀ line ∈ lines, ∃ x, Value.ofAnswer (answerOf line) = .ok x) →
        let d : Reading := ⟨start s .never terminal, lines⟩
        Tracks (fun l d => d.Shows l ∧ (d.run.want = .answer → d.run.runner.session.phase = .awaiting))
          Reading.Done (.start s (lines.map answerOf)) (fun i => Reading.next^[i] d) ∧
        ∀ i, play (lines.map .line) d.run i = (Reading.next^[i] d).run) := by
  refine ⟨Session.advance_add, fun answers ha => ⟨Session.exists_deliver_run hi, fun k => ?_, ?_⟩, ?_⟩
  · have hl : Loop.Sound (.start s answers) := ⟨h.sound.deliver "RUN", ha⟩
    exact ⟨_, (hl.iterate k).returns⟩
  · intro r hr hh hb d
    have hd := Repl.Drive.shows_start h.sound hi ha hr hh hb
    have ht := Repl.Drive.shows_paces.tracks (n := 0) (c := 0) hd fun _ _ _ hx => hx
    exact ⟨ht, fun i hj => Repl.Drive.play_iterate hj⟩
  · intro lines terminal ha d
    have ha' : ∀ text ∈ lines.map answerOf, ∃ x, Value.ofAnswer text = .ok x := by
      simpa using ha
    obtain ⟨k, m, hd⟩ := Reading.stands_start h.sound hi ha' terminal
    exact ⟨Reading.stands_paces.tracks hd fun _ _ _ hx => ⟨hx.shows, hx.reads⟩, Reading.play_iterate d⟩

def parrotLoop : Repl :=
  { settings := {}, session := { Session.parrot with events := #[] }, console := {}, batchSize := 1 }

theorem parrot_driven_alike :
    (∃ i, Repl.Drive.Done (Repl.Drive.next^[i] ⟨parrotLoop.command "RUN", [.line "hi"]⟩) ∧
      (Repl.Drive.next^[i] ⟨parrotLoop.command "RUN", [.line "hi"]⟩).repl.console.heard.toList =
        [.line ">RUN", .line "? ", .request "? ", .append "hi", .line "hi", .line "Ready"]) ∧
    ∃ i, (play [.line "hi\r\n"] (start Session.parrot .never false) i).runner.steps = 2 ∧
      (play [.line "hi\r\n"] (start Session.parrot .never false) i).console.heard.toList =
        [.line ">RUN", .line "? ", .request "? ", .append "hi", .line "hi", .line "Ready"] := by
  obtain ⟨-, hr, hf⟩ := drivers_follow_loop Session.parrot_reachable (by decide +kernel)
  have hover : (Loop.next^[3] (.start Session.parrot ["hi"])).session.running = false := by decide +kernel
  constructor
  · obtain ⟨-, -, hr⟩ := hr ["hi"] (by simpa using Session.ofAnswer_hi)
    obtain ⟨ht, -⟩ := hr parrotLoop rfl (by decide +kernel) (by decide)
    obtain ⟨i, hs, hd⟩ := ht.ends 3 hover
    refine ⟨i, hd, hs.heard.trans ?_⟩
    decide +kernel
  · have ha : answerOf "hi\r\n" = "hi" := by decide +kernel
    obtain ⟨ht, hp⟩ := hf ["hi\r\n"] false (by simpa [ha] using Session.ofAnswer_hi)
    simp only [List.map_cons, List.map_nil, ha] at ht hp
    obtain ⟨i, ⟨hs, -⟩, -⟩ := ht.ends 3 hover
    refine ⟨i, ?_, ?_⟩
    · rw [hp i, hs.steps]
      decide +kernel
    · rw [hp i, hs.heard]
      decide +kernel

end FileRun

end LineBasic
