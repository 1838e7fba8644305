import IssueBridge.Time.Calendar

/-!
# Instants

Points in time to the nanosecond, in UTC. A leap second is the continuation of the second before
it, so that two instants compare by their seconds and then by their nanoseconds.
-/

namespace IssueBridge

/-- The day count of the first of January 1970. -/
def epochDay : Int :=
  719162

def secondsPerDay : Int :=
  86400

def nanosPerSecond : Nat :=
  1000000000

namespace Instant

/-- The second with which the year -262143 begins. -/
def firstSecond : Int :=
  (Date.daysBefore (-262143) - epochDay) * secondsPerDay

/-- The second with which the year 262142 ends. -/
def lastSecond : Int :=
  (Date.daysBefore 262143 - epochDay) * secondsPerDay - 1

/-- A second of the years that can be represented. -/
def Representable (seconds : Int) : Prop :=
  firstSecond ≤ seconds ∧ seconds ≤ lastSecond

instance (seconds : Int) : Decidable (Representable seconds) :=
  inferInstanceAs (Decidable (_ ∧ _))

/-- Nanoseconds that belong to a second, or to the leap second after the last second of a minute.
UTC has leap seconds nowhere else, so more nanoseconds behind another second are no instant. -/
def Fits (seconds : Int) (nanos : Nat) : Prop :=
  nanos < nanosPerSecond ∨ (nanos < 2 * nanosPerSecond ∧ seconds % 60 = 59)

instance (seconds : Int) (nanos : Nat) : Decidable (Fits seconds nanos) :=
  inferInstanceAs (Decidable (_ ∨ _))

end Instant

/-- A point in time: whole seconds since the start of 1970, leap seconds left out, and
nanoseconds, which run on past a second during a leap second. -/
structure Instant where
  seconds : Int
  nanos : Nat
  representable : Instant.Representable seconds
  fits : Instant.Fits seconds nanos
  deriving DecidableEq

namespace Instant

instance : Inhabited Instant :=
  ⟨⟨0, 0, by decide, by decide⟩⟩

/-- The instant of a second and nanoseconds, if there is one. -/
def ofParts? (seconds : Int) (nanos : Nat) : Option Instant :=
  if h : Representable seconds ∧ Fits seconds nanos then some ⟨seconds, nanos, h.1, h.2⟩ else none

def le (s t : Instant) : Bool :=
  s.seconds < t.seconds || (s.seconds == t.seconds && s.nanos ≤ t.nanos)

def later (s t : Instant) : Instant :=
  if s.le t then t else s

/-- A date and a time of day; the second is 60 during a leap second. -/
structure Civil where
  date : Date
  hour : Nat
  minute : Nat
  second : Nat
  nanos : Nat
  deriving DecidableEq, Inhabited

/-- The date and time of day of an instant in UTC. -/
def toCivil (t : Instant) : Civil :=
  let clock := (t.seconds % secondsPerDay).toNat
  let leap := t.nanos / nanosPerSecond
  { date := Date.ofDays (t.seconds / secondsPerDay + epochDay)
    hour := clock / 3600
    minute := clock / 60 % 60
    second := clock % 60 + leap
    nanos := t.nanos % nanosPerSecond }

/-- The fields of a date and time of day are in their ranges. -/
def Civil.exists? (c : Civil) : Bool :=
  c.date.exists? && c.hour < 24 && c.minute < 60 && c.second ≤ 60 && c.nanos < nanosPerSecond

/-- The instant of a date and a time of day at an offset from UTC in seconds. -/
def ofCivil? (c : Civil) (offset : Int) : Option Instant :=
  let clock := c.hour * 3600 + c.minute * 60 + min c.second 59
  let reading := (c.date.toDays - epochDay) * secondsPerDay + clock
  let nanos := c.nanos + (if c.second = 60 then nanosPerSecond else 0)
  if c.exists? ∧ offset.natAbs < 86400 ∧ Representable reading then
    ofParts? (reading - offset) nanos
  else none

end Instant

end IssueBridge
