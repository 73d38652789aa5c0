import LineBasic.Application

/-! The command line program. -/

namespace LineBasic.CommandLine

open Application

def variableNames : List String :=
  ["MYBASIC_BANNER", "MYBASIC_PROMPT", "MYBASIC_LOG_LEVEL", "MYBASIC_INPUT_TIMEOUT"]

def readEnvironment : IO (List (String × String)) :=
  variableNames.filterMapM fun name => do return (← IO.getEnv name).map (name, ·)

def reason : IO.Error → String
  | .noFileOrDirectory _ _ details | .inappropriateType _ _ details
  | .permissionDenied _ _ details => details.capitalize
  | e => toString e

def readContents (path : String) : IO Contents := do
  try return .ok (← IO.FS.readBinFile path).toList
  catch e => return .error (reason e)

/-- Writes what the console has taken up since the last time. -/
def present (c : Console) : IO Console := do
  let out ← IO.getStdout
  out.putStr c.written
  out.flush
  return { c with written := "", heard := #[] }

def complain (fault : Fault) : IO UInt32 := do
  (← IO.getStderr).putStr (complaint (fault.message?.getD "internal fault"))
  return 1

partial def interact (r : Repl) : IO UInt32 := do
  let r := { r with console := ← present r.console }
  match r.want with
  | .command | .answer => interact (r.feed (.ofRead (← (← IO.getStdin).getLine)))
  | .batch => interact (r.runBatch false)
  | .nothing =>
    match r.stage with
    | .ended (some fault) => complain fault
    | _ => return 0

/-- Waits for a reading until the deadline, in milliseconds of the clock. -/
partial def await (reading : Task (Except IO.Error String)) (deadline : Option Nat) :
    IO FileRun.Answer := do
  if ← IO.hasFinished reading then
    return .ofRead (← IO.ofExcept reading.get)
  let now ← IO.monoMsNow
  if deadline.any (· ≤ now) then return .late
  IO.sleep 5
  await reading deadline

/-- Reads an answer, for at most the given number of seconds. -/
def readAnswer (seconds : Option Float) : IO FileRun.Answer := do
  let input ← IO.getStdin
  let now ← IO.monoMsNow
  let reading ← IO.asTask input.getLine .dedicated
  await reading (seconds.map fun x => now + (x * 1000).toUInt64.toNat)

partial def drive (seconds : Option Float) (f : FileRun) : IO UInt32 := do
  let f := { f with console := ← present f.console }
  match f.want with
  | .answer => drive seconds (f.feed (← readAnswer seconds))
  | .round => drive seconds f.round
  | .nothing =>
    match f.outcome? with
    | some (.failed fault) => complain fault
    | _ => return 0

def seconds? : Plan → Option Float
  | .program _ _ settings =>
    match settings.inputTimeout with
    | .number x => some x
    | _ => none
  | _ => none

def refuse (refusal : Refusal) : IO UInt32 := do
  (← IO.getStderr).putStr (complaint (refusal.message?.getD "internal fault"))
  return 1

def run (argv : List String) : IO UInt32 := do
  let environment ← readEnvironment
  let p := plan argv fun name => environment.lookup name
  let contents ← match p.path? with
    | some path => readContents path
    | none => pure (.ok [])
  match begin p contents (← (← IO.getStdin).isTty) with
  | .ended report =>
    (← IO.getStdout).putStr report.output
    (← IO.getStderr).putStr report.errors
    return report.exitCode.toUInt32
  | .escaped refusal => refuse refusal
  | .interactive repl => interact repl
  | .batch f => drive (seconds? p) f

end LineBasic.CommandLine

def main (argv : List String) : IO UInt32 := LineBasic.CommandLine.run argv
