import IssueBridge.Http.Message
import IssueBridge.Number.Decimal
import IssueBridge.Pass.Action
import IssueBridge.Time.Duration

/-!
# Trying again

A request that meets a refused connection, silence, too many requests or a failing server is sent
again after a wait. Waits double up to a limit, and no wait begins that would end after the time
that the policy allows in all.
-/

namespace IssueBridge.Http

/-- What became of one attempt at a request. -/
inductive Outcome where
  | reply (r : Reply)
  /-- No connection came about. -/
  | refused
  /-- The server did not answer in time. -/
  | timedOut
  /-- The connection broke. -/
  | dropped
  deriving DecidableEq, Inhabited

/-- The way to the servers. -/
structure Transport (σ : Type) where
  /-- One attempt at a request within a time limit: what became of it, and the time it took. -/
  attempt : Request → Duration → Action σ (Outcome × Duration)
  /-- Lets time pass. -/
  wait : Duration → Action σ Unit

/-- How long to try. -/
structure Policy where
  /-- The time for a request in all. -/
  timeout : Duration
  /-- The time for one attempt. -/
  attemptLimit : Duration
  firstWait : Duration
  longestWait : Duration
  deriving DecidableEq, Inhabited

namespace Policy

/-- The policy that allows a time in all. One attempt may take a third of it, and a second at
least. -/
def ofTimeout (timeout : Duration) : Policy :=
  { timeout
    attemptLimit := max (timeout.div 3) (.ofSeconds 1)
    firstWait := .ofMillis 500
    longestWait := .ofSeconds 30 }

/-- A number shifted to the left, unless no bit of it would be left. -/
def shiftLeft? (n places : UInt32) : Option UInt32 :=
  if places < 32 then some (n <<< places) else none

/-- How many times as long as the first wait the wait after some number of waits is. -/
def growth (waits : UInt32) : UInt32 :=
  (shiftLeft? 1 (min waits 16)).getD 0xFFFFFFFF

/-- The wait after some number of waits. -/
def pause (p : Policy) (waits : UInt32) : Duration :=
  min (p.firstWait.mulSaturating (growth waits)) p.longestWait

/-- What to do after an attempt. -/
inductive Verdict where
  | accept (r : Reply)
  | reject (cause : Cause)
  | again (error : String) (wait : Duration)
  deriving DecidableEq

/-- The time that a server asks to wait. -/
def askedWait? (r : Reply) : Option Duration :=
  (r.header? "retry-after").bind fun s =>
    (Decimal.toUInt64? (Text.trim s.toList)).map Duration.ofSeconds

/-- The words for a request that got no answer. -/
def unanswered (url : Url) : String :=
  "error sending request for url (" ++ url.text ++ ")"

/-- Judges a reply after some number of waits. -/
def judgeReply (p : Policy) (waits : UInt32) (r : Reply) : Verdict :=
  if r.isSuccess then .accept r
  else if r.status = 429 then
    let wait := match askedWait? r with
      | some asked => min asked p.longestWait
      | none => p.pause waits
    .again (statusLine 429) wait
  else if r.isServerError then .again (statusLine r.status ++ ": " ++ r.body.shown) (p.pause waits)
  else .reject (.status (statusLine r.status) r.body.shown)

/-- Judges an attempt after some number of waits. -/
def judge (p : Policy) (url : Url) (waits : UInt32) : Outcome → Verdict
  | .reply r => p.judgeReply waits r
  | .refused | .timedOut => .again (unanswered url) (p.pause waits)
  | .dropped => .reject .requestFailed

/-- What comes after an attempt: the result, or a wait and another attempt at a time that is counted
from the first one. -/
inductive Turn where
  | done (result : Except Cause Reply)
  | again (error : String) (wait due : Duration)

/-- What comes after an attempt that took some time, after some number of attempts and some time. -/
def turn (p : Policy) (url : Url) (attempts : UInt32) (elapsed took : Duration) (o : Outcome) :
    Turn :=
  match p.judge url attempts o with
  | .accept reply => .done (.ok reply)
  | .reject cause => .done (.error cause)
  | .again error wait =>
    match (elapsed.add? took).bind fun now => now.add? wait with
    | none => .done (.error .overflow)
    | some due =>
      if p.timeout < due then .done (.error (.retriesExhausted (attempts + 1) error))
      else .again error wait due

end Policy

variable {σ : Type}

/-- Sends a request after some number of attempts, which is counted in 32 bits, and some time, at
most `patience` times more; none if that does not settle it. -/
def sendFrom (t : Transport σ) (p : Policy) (r : Request) :
    Nat → UInt32 → Duration → Action σ (Option (Except Cause Reply))
  | 0, _, _ => return none
  | patience + 1, attempts, elapsed => do
    let (outcome, took) ← t.attempt r p.attemptLimit
    match p.turn r.url attempts elapsed took outcome with
    | .done result => return some result
    | .again error wait due =>
      emit (.retrying (attempts + 1) wait.millis error)
      t.wait wait
      sendFrom t p r patience (attempts + 1) due

end IssueBridge.Http
