import IssueBridge.Cutoff.Store
import IssueBridge.Json.Printer
import IssueBridge.Json.Reader
import IssueBridge.Json.Record
import IssueBridge.Time.Reader
import IssueBridge.Time.Writer

/-!
# The cutoff

The start time of the last pass that left nothing undone. Later passes look only at what changed
since; a store keeps it between runs.
-/

namespace IssueBridge

/-- The time before which nothing is left to do, if there is one. -/
structure Cutoff where
  since : Option Instant := none
  deriving DecidableEq, Inhabited

namespace Cutoff

/-- The later of the cutoff and a configured time. -/
def effective (c : Cutoff) (configured : Option Instant) : Option Instant :=
  match c.since, configured with
  | some s, some t => some (s.later t)
  | some s, none => some s
  | none, t => t

def toJson (c : Cutoff) : Json :=
  .obj [("since", (c.since.map fun t => Json.str t.rfc3339).getD .null)]

def text (c : Cutoff) : String :=
  c.toJson.pretty

def ofJson? (v : Json) : Option Cutoff := do
  let r ← v.record? 1
  some ⟨← r.optional "since" 0 fun t => t.str?.bind Instant.ofTimestamp?⟩

def form : Json.Form Cutoff :=
  ⟨.record [("since", .whole)], ofJson?⟩

def ofText? (text : String) : Option Cutoff :=
  form.read? text

variable {σ : Type}

/-- The cutoff of a store; none if nothing is kept or what is kept cannot be read as a cutoff. -/
def load (store : Store σ) : Call σ Cutoff := do
  match ← store.read with
  | none => return {}
  | some text =>
    match ofText? text with
    | some c => return c
    | none =>
      Call.emit .stateCorrupt
      return {}

/-- Keeps a new cutoff. -/
def save (store : Store σ) (c : Cutoff) : Call σ Unit :=
  store.write c.text

/-- Moves the cutoff to a time, also when it cannot be kept. -/
def advance (store : Store σ) (t : Instant) : Action σ (Cutoff × Except Failure Unit) := do
  let result ← (save store ⟨some t⟩).run
  return (⟨some t⟩, result)

/-- Whether a pass moves the cutoff to its start: it wrote, and no issue failed. -/
def advances (outcome : Except Failure Report) (confirm : Bool) : Bool :=
  match outcome with
  | .ok report => confirm && report.failedIssues.isEmpty
  | .error _ => false

/-- The cutoff after a pass, which moves it if nothing is left to do, and what remains to be told:
a failure of the pass, or of keeping the cutoff. -/
def settle (store : Store σ) (c : Cutoff) (outcome : Except Failure Report) (started : Instant)
    (confirm : Bool) : Action σ (Cutoff × Except Failure Unit) := do
  match outcome with
  | .error e => return (c, .error e)
  | .ok report =>
    if advances outcome confirm then
      let (next, result) ← advance store started
      return (next, result.mapError (Failure.within "Failed to save sync state"))
    else
      if confirm then emit (.cutoffKept report.failedIssues)
      return (c, .ok ())

/-- Ends a pass. A failure ends a single run, and is only told by a run that goes on. -/
def finish (store : Store σ) (c : Cutoff) (outcome : Except Failure Report)
    (started : Instant) (confirm oneShot : Bool) : Action σ (Cutoff × Except Failure Unit) := do
  let (next, result) ← settle store c outcome started confirm
  match result with
  | .error e =>
    if oneShot then return (next, .error e)
    else
      emit (.passFailed e)
      return (next, .ok ())
  | .ok () => return (next, .ok ())

end Cutoff

end IssueBridge
