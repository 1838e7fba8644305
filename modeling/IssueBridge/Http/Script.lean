import IssueBridge.Http.Retry

/-!
# A server with a script

A server that answers requests from a list, in the order in which they come, whoever sends them.
Time passes only while it is silent and between attempts. Connections to other servers are refused.
-/

namespace IssueBridge.Http

/-- What the server does with one request. -/
inductive Exchange where
  | answer (r : Reply)
  /-- It stays silent until the time for the attempt is over. -/
  | hang
  /-- It closes the connection without an answer. -/
  | drop
  deriving DecidableEq, Inhabited

/-- The server, the requests that it received, and the time in nanoseconds. -/
structure Script where
  /-- Where the server listens, if it does. -/
  origin : Option (List Char)
  /-- What it has not done yet. -/
  exchanges : List Exchange
  requests : List Request := []
  clock : Nat := 0
  deriving Inhabited

namespace Script

/-- What the server answers after its script. -/
def exhausted : Reply :=
  ⟨404, [], "script exhausted"⟩

/-- A time rounded up to whole milliseconds. -/
def wholeMillis (time : Duration) : Duration :=
  .saturating ((time.nanos + nanosPerMilli - 1) / nanosPerMilli * nanosPerMilli)

/-- What becomes of a request that reaches the server, and how long it takes. -/
def outcome (limit : Duration) : Option Exchange → Outcome × Duration
  | some (.answer r) => (.reply r, 0)
  | some .hang => (.timedOut, wholeMillis limit)
  | some .drop => (.dropped, 0)
  | none => (.reply exhausted, 0)

def attempt (r : Request) (limit : Duration) (s : Script) : (Outcome × Duration) × Script :=
  if s.origin = some r.url.origin then
    let (result, took) := outcome limit s.exchanges.head?
    ((result, took),
      { s with
        exchanges := s.exchanges.tail
        requests := s.requests ++ [r]
        clock := s.clock + took.nanos })
  else ((.refused, 0), s)

def transport : Transport Script where
  attempt r limit := onState (attempt r limit)
  wait time := onState fun s => ((), { s with clock := s.clock + time.nanos })

end Script

end IssueBridge.Http
