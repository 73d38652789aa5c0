import LineBasic.Session.Command

/-! Hosts that act on a session from inside the calls they receive, as their script says. -/

namespace LineBasic.Session

def Reaction.answers (r : Reaction) (e : Event) : Bool :=
  r.kind = e.kind && (r.text.map (· == e.text)).getD true && r.times != 0

/-- The first reaction to an event, and the script with that reaction used up once. -/
def takeReaction? (e : Event) : List Reaction → Option (List Action × List Reaction)
  | [] => none
  | r :: rest =>
    if Reaction.answers r e then some (r.actions, { r with times := r.times - 1 } :: rest)
    else (takeReaction? e rest).map fun (actions, rest) => (actions, r :: rest)

def reactionsLeft : List Reaction → Nat
  | [] => 0
  | r :: rest => r.times + reactionsLeft rest

def perform (host : Host) : Action → Act Unit
  | .stop message => stop host message
  | .deliver text => deliver host text
  | .step => step host
  | .run => run host

def performAll (host : Host) : List Action → Act Unit
  | [] => return
  | action :: rest => do
    perform host action
    performAll host rest

def react : Nat → Event → Act Unit
  | 0, _ => return
  | depth + 1, e => do
    match takeReaction? e (← get).script with
    | none => return
    | some (actions, script) =>
      modify ({ · with script })
      performAll ⟨react depth⟩ actions

/-- Each reaction uses up one of those left, so they bound the depth. -/
def Host.scripted : Host := ⟨fun e => do react (reactionsLeft (← get).script) e⟩

end LineBasic.Session
