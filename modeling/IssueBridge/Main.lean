import IssueBridge.Program.Basic
import Std.Time.DateTime.Timestamp

/-!
# The executable

Gathers what a run needs to know, runs it, and carries out what it wrote and told. There is no way
to other machines here, so that every connection is refused.
-/

namespace IssueBridge.Program

/-- What stands at a path. -/
def entryAt (path : String) : IO (Option Entry) := do
  let place := System.mkFilePath [path]
  if ← place.isDir then return some .folder
  else if ← place.pathExists then
    try
      return some (.file (← IO.FS.readFile place))
    catch _ => return some .unreadable
  else return none

/-- What stands at paths. -/
def diskAt (paths : List String) : IO Disk := do
  let found ← paths.filterMapM fun path => do
    return (← entryAt path).map fun entry => (path, entry)
  return Dictionary.ofList found

/-- The variables of the environment that set options. -/
def environment : IO (Dictionary String) := do
  let found ← CommandLine.Flag.all.filterMapM fun f => do
    return (← IO.getEnv f.environmentName).map fun value => (f.environmentName, value)
  return Dictionary.ofList found

def now : IO Instant := do
  let nanos := (← Std.Time.Timestamp.now).toNanosecondsSinceUnixEpoch.val
  return (Instant.ofParts? (nanos / nanosPerSecond) (nanos % nanosPerSecond).toNat).getD default

def eventLine (e : Event) : String :=
  let level := match e.level with
    | .info => " INFO "
    | .warn => " WARN "
    | .error => "ERROR "
  let fields := e.fields.map fun (name, value) => " " ++ name ++ "=" ++ value.compress
  level ++ e.message ++ String.join fields

def isTold (chosen : LogLevel) : Level → Bool
  | .error => true
  | .warn => chosen != .error
  | .info => chosen != .error && chosen != .warn

def tell (chosen : LogLevel) (events : List Event) : IO Unit := do
  for e in events do
    if isTold chosen e.level then IO.eprintln (eventLine e)

/-- Writes the files that differ between two file systems. -/
def writeChanges (before after : Disk) : IO Unit := do
  for (path, entry) in after do
    match entry with
    | .file text =>
      if before.get? path ≠ some entry then
        if let some folder := (System.mkFilePath [path]).parent then IO.FS.createDirAll folder
        IO.FS.writeFile path text
    | .folder | .unreadable => pure ()

/-- Tells how a run ended, and yields its code. -/
def conclude (exit : Exit) : IO UInt32 := do
  IO.print exit.output
  IO.eprint exit.complaint
  return exit.code

/-- Carries out what a part of a run did, and goes on with the next pass when it is due. -/
partial def proceed (chosen : LogLevel) (before : Disk) (exit : Exit) (w : World Machine) :
    IO UInt32 := do
  tell chosen w.log
  writeChanges before w.state.disk
  match exit with
  | .resting session seconds =>
    IO.sleep (UInt32.ofNat (min (seconds.toNat * 1000) (UInt32.size - 1)))
    let started ← now
    let (exit, after) := session.step started (fun _ => started) ⟨w.state, []⟩
    proceed chosen w.state.disk exit after
  | exit => conclude exit

/-- Runs the program with arguments. -/
def execute (arguments : List String) : IO UInt32 := do
  let home := Settings.homeFolder (← IO.getEnv "HOME")
  let invocation : Invocation := { arguments, environment := ← environment, home }
  let chosen := match CommandLine.parse invocation.arguments invocation.environment with
    | .ok cli => cli.logLevel
    | .error _ => .info
  let disk ← diskAt (paths invocation)
  let machine : Machine := { disk, server := { origin := none, exchanges := [] } }
  let started ← now
  let (exit, w) := run invocation started (fun _ => started) ⟨machine, []⟩
  proceed chosen disk exit w

end IssueBridge.Program

def main (arguments : List String) : IO UInt32 :=
  IssueBridge.Program.execute arguments
