import LineBasic.Session.Command

/-! Driving a run beside other work. A task executes one statement per turn and yields; at an
`INPUT` it parks until it is woken. All that happens between two acts of the client is a queue of
jobs, which run in their order; a job may append others.

A wait without a limit is for the wake signal itself. A limited wait has a listener, a second task
that waits for the wake signal: when the listener has ended, the drive task is released, and when
the time is up first, the drive task dismisses the listener and waits for its end. -/

namespace LineBasic

namespace Runner

inductive Outcome
  | finished
  | cancelled
  | failed (fault : Fault)

inductive Signal
  | pending
  | given
  | cancelled
deriving DecidableEq

inductive Closing
  | expired
  | cancelled
deriving DecidableEq

inductive Stage
  | fresh
  | yielded
  | parked (signal : Signal)
  | waiting (signal : Signal)
  | closing (reason : Closing) (signal : Signal)
  | ended (outcome : Outcome)

structure Task where
  stage : Stage
  cancelRequested : Bool := false

def Task.isAlive (t : Task) : Bool :=
  match t.stage with
  | .ended _ => false
  | _ => true

/-- What a listener has come to. One that was roused or dismissed has a turn ahead. -/
inductive Hearing
  | fresh
  | listening
  | roused
  | dismissed
  | heard
  | silenced
deriving DecidableEq

structure Listener where
  hearing : Hearing := .fresh
  cancelRequested : Bool := false

def Listener.isDone (l : Listener) : Bool := l.hearing = .heard || l.hearing = .silenced

/-- How long an `INPUT` may wait. A limit that is no number cannot be waited for. -/
inductive Limit
  | never
  | later
  | atOnce
  | unusable
deriving DecidableEq

def Limit.ofValue : Value → Limit
  | .absent => .never
  | .number x => if x ≤ 0 then .atOnce else .later
  | .text _ => .unusable
  | v => if (v.integer?.getD 0) ≤ 0 then .atOnce else .later

/-- Jobs of the queue. Those of a listener bear the number of its wait. -/
inductive Job
  | drive
  | listen (wait : Nat)
  | release (wait : Nat)
  | watch
  | notice
  | client
deriving DecidableEq

inductive Lookout
  | fresh
  | listening
  | roused
  | done
deriving DecidableEq

inductive Client
  | free
  | sleeping
  | joining
  | watching (lookout : Lookout)
deriving DecidableEq

end Runner

structure Runner where
  session : Session
  limit : Runner.Limit := .never
  wake : Bool := false
  requested : Bool := false
  steps : Nat := 0
  task : Option Runner.Task := none
  former : List Runner.Task := []
  wait : Nat := 0
  listener : Runner.Listener := {}
  client : Runner.Client := .free
  queue : List Runner.Job := []

namespace Runner

open Session (Host Act)

variable (host : Host)

def active (r : Runner) : Bool := (r.task.map Task.isAlive).getD false

def enqueue (r : Runner) (job : Job) : Runner := { r with queue := r.queue ++ [job] }

def enter (r : Runner) (stage : Stage) : Runner := { r with task := some { stage } }

def conclude (r : Runner) (outcome : Outcome) : Runner :=
  let r := r.enter (.ended outcome)
  match r.client with
  | .joining => r.enqueue .client
  | .watching _ => r.enqueue .notice
  | .free | .sleeping => r

def request (r : Runner) : Runner :=
  let r := { r with requested := true }
  match r.client with
  | .watching .listening => { r with client := .watching .roused }.enqueue .watch
  | _ => r

def rouse (r : Runner) : Runner :=
  if r.wake then r
  else
    let r := { r with wake := true }
    let r := if r.listener.hearing = .listening then
        { r with listener.hearing := .roused }.enqueue (.listen r.wait)
      else r
    match r.task with
    | some ⟨.parked .pending, cancelRequested⟩ =>
      { r with task := some ⟨.parked .given, cancelRequested⟩ }.enqueue .drive
    | _ => r

/-- Begins a wait for the wake signal. A wait that is over at once dismisses its listener before
that has begun to listen. -/
def park (r : Runner) : Runner :=
  let r := { r with wake := false }.request
  match r.limit with
  | .never => r.enter (.parked .pending)
  | .unusable => { r with requested := false }.conclude (.failed .wrongType)
  | .later =>
    let r := { r with wait := r.wait + 1, listener := {} }
    (r.enqueue (.listen r.wait)).enter (.waiting .pending)
  | .atOnce =>
    let r := { r with wait := r.wait + 1, listener := { cancelRequested := true } }
    (r.enqueue (.listen r.wait)).enter (.closing .expired .pending)

def iterate (r : Runner) : Runner :=
  if !r.session.running then r.conclude .finished
  else if r.session.phase = .awaiting then r.park
  else match Session.step host r.session with
    | .ok _ session => ({ r with session, steps := r.steps + 1 }.enter .yielded).enqueue .drive
    | .error fault session => { r with session }.conclude (.failed fault)

def abandon (r : Runner) : Runner :=
  match Session.stop host (some "BREAK") r.session with
  | .ok _ session => { r with session }.conclude .cancelled
  | .error fault session => { r with session }.conclude (.failed fault)

def timeOut (r : Runner) : Runner :=
  match Session.stop host (some "INPUT TIMEOUT") r.session with
  | .ok _ session => iterate host { r with session }
  | .error fault session => { r with session }.conclude (.failed fault)

def close (r : Runner) (reason : Closing) : Runner :=
  let r := r.enter (.closing reason .pending)
  if r.listener.hearing = .listening then
    { r with listener.hearing := .dismissed }.enqueue (.listen r.wait)
  else { r with listener.cancelRequested := true }

def leave (r : Runner) (reason : Closing) : Runner :=
  let r := { r with requested := false }
  if r.listener.hearing = .heard then iterate host r
  else match reason with
    | .expired => timeOut host r
    | .cancelled => abandon host r

/-- Gives the drive task a turn, which lasts until it yields, waits or ends. A listener that has
heard the wake signal wins over a cancellation. -/
def turn (r : Runner) : Runner :=
  match r.task with
  | none => r
  | some ⟨stage, cancelRequested⟩ =>
    match stage with
    | .ended _ => r
    | .fresh => if cancelRequested then r.conclude .cancelled else iterate host r
    | .yielded => if cancelRequested then abandon host r else iterate host r
    | .parked signal =>
      let r := { r with requested := false }
      if cancelRequested || signal = .cancelled then abandon host r else iterate host r
    | .waiting signal =>
      if r.listener.isDone then leave host r .cancelled
      else if cancelRequested || signal = .cancelled then r.close .cancelled
      else r.close .expired
    | .closing reason signal =>
      if cancelRequested || signal = .cancelled then abandon host { r with requested := false }
      else match reason with
        | .expired => leave host r .expired
        | .cancelled => abandon host { r with requested := false }

def hear (r : Runner) (hearing : Hearing) : Runner :=
  { r with listener := { hearing } }.enqueue (.release r.wait)

def listen (r : Runner) : Runner :=
  match r.listener.hearing with
  | .fresh =>
    if r.listener.cancelRequested then r.hear .silenced
    else if r.wake then r.hear .heard
    else { r with listener.hearing := .listening }
  | .roused => if r.listener.cancelRequested then r.hear .silenced else r.hear .heard
  | .dismissed => r.hear .silenced
  | .listening | .heard | .silenced => r

def release (r : Runner) : Runner :=
  match r.task with
  | some ⟨.waiting .pending, cancelRequested⟩ =>
    { r with task := some ⟨.waiting .given, cancelRequested⟩ }.enqueue .drive
  | some ⟨.closing reason .pending, cancelRequested⟩ =>
    { r with task := some ⟨.closing reason .given, cancelRequested⟩ }.enqueue .drive
  | _ => r

def watch (r : Runner) : Runner :=
  match r.client with
  | .watching .fresh =>
    if r.requested then { r with client := .watching .done }.enqueue .notice
    else { r with client := .watching .listening }
  | .watching .roused => { r with client := .watching .done }.enqueue .notice
  | _ => r

/-- Tells a client that looks out that there is news. What else was on the way to it is dropped. -/
def notify (r : Runner) : Runner :=
  match r.client with
  | .watching _ =>
    { r with
      client := .sleeping
      queue := r.queue.filter (fun job => job ≠ .watch ∧ job ≠ .notice) ++ [.client] }
  | _ => r

def runJob (r : Runner) : Job → Runner
  | .drive => turn host r
  | .listen n => if n = r.wait then r.listen else r
  | .release n => if n = r.wait then r.release else r
  | .watch => r.watch
  | .notice => r.notify
  | .client => { r with client := .free }

def expire (r : Runner) : Runner :=
  match r.task with
  | some ⟨.waiting .pending, _⟩ => r.release
  | _ => r

/-- Runs the next job. Time passes only while there is none. -/
def advance (r : Runner) : Runner :=
  match r.queue with
  | [] => r.expire
  | job :: rest => runJob host { r with queue := rest } job

def serve (r : Runner) : Nat → Runner
  | 0 => r
  | patience + 1 => if r.client = .free then r else serve (advance host r) patience

def sleep (r : Runner) : Runner :=
  serve host ({ r with client := .sleeping }.enqueue .client) (r.queue.length + 1)

def launch (r : Runner) : Runner :=
  ({ r with former := r.former ++ r.task.toList }.enter .fresh).enqueue .drive

def receive (text : String) (r : Runner) : Except Fault Unit × Runner :=
  match Session.deliver host text r.session with
  | .error fault session => (.error fault, { r with session })
  | .ok _ session =>
    let r := { r with session }
    (.ok (), if r.active then { r with requested := false }.rouse
      else if session.phase = .executing then r.launch
      else r)

def submit (text : String) (r : Runner) : Except Fault Unit × Runner :=
  match receive host text r with
  | (.error fault, r) => (.error fault, r)
  | (.ok _, r) => (.ok (), sleep host r)

def stop (r : Runner) : Except Fault Unit × Runner :=
  match Session.stop host (some "BREAK") r.session with
  | .error fault session => (.error fault, { r with session })
  | .ok _ session => (.ok (), { r with session }.rouse)

/-- Cancels the wait of a task, or else its next turn. -/
def Task.cancel (t : Task) : Task × Bool :=
  match t.stage with
  | .parked .pending => ({ t with stage := .parked .cancelled }, true)
  | .waiting .pending => ({ t with stage := .waiting .cancelled }, true)
  | .closing reason .pending => ({ t with stage := .closing reason .cancelled }, true)
  | _ => ({ t with cancelRequested := true }, false)

def cancel (r : Runner) : Bool × Runner :=
  match r.task with
  | none => (false, r)
  | some task =>
    if task.isAlive then
      let (task, due) := task.cancel
      let r := { r with task := some task }
      (true, if due then r.enqueue .drive else r)
    else (false, r)

def join (r : Runner) (patience : Nat) : Runner :=
  if r.active then serve host { r with client := .joining } patience else r

def lookOut (r : Runner) : Runner := { r with client := .watching .fresh }.enqueue .watch

def untilBlocked (r : Runner) : Nat → Bool × Runner
  | 0 => (false, r)
  | patience + 1 =>
    if r.client ≠ .free then untilBlocked (advance host r) patience
    else if !r.active then (false, r)
    else if r.requested then (true, r)
    else untilBlocked r.lookOut patience

def outcome? (r : Runner) : Option Outcome :=
  match r.task with
  | some ⟨.ended outcome, _⟩ => some outcome
  | _ => none

end Runner

end LineBasic
