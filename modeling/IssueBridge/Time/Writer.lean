import IssueBridge.Time.Instant
import IssueBridge.Number.Decimal

/-!
# Writing instants

Timestamps as RFC 3339 and in the two formats that issues and comments carry. Years take four
digits, and a sign in front of them outside 0 to 9999.
-/

namespace IssueBridge.Instant

def yearText (year : Int) : List Char :=
  if 0 ≤ year ∧ year ≤ 9999 then Decimal.padded 4 year.toNat
  else if year < 0 then '-' :: Decimal.padded 4 year.natAbs
  else '+' :: Decimal.padded 4 year.toNat

/-- Year, month and day between hyphens. -/
def dateText (d : Date) : List Char :=
  yearText d.year ++ '-' :: Decimal.padded 2 d.month ++ '-' :: Decimal.padded 2 d.day

/-- Hour, minute and second between colons. -/
def clockText (c : Civil) : List Char :=
  Decimal.padded 2 c.hour ++ ':' :: Decimal.padded 2 c.minute ++ ':' :: Decimal.padded 2 c.second

/-- A fraction of a second in 0, 3, 6 or 9 digits, the fewest that are exact. -/
def fractionText (nanos : Nat) : List Char :=
  if nanos = 0 then []
  else if nanos % 1000000 = 0 then '.' :: Decimal.padded 3 (nanos / 1000000)
  else if nanos % 1000 = 0 then '.' :: Decimal.padded 6 (nanos / 1000)
  else '.' :: Decimal.padded 9 nanos

/-- RFC 3339 in UTC, as exact as the instant. -/
def rfc3339Chars (t : Instant) : List Char :=
  let c := t.toCivil
  dateText c.date ++ 'T' :: clockText c ++ fractionText c.nanos ++ ['Z']

def rfc3339 (t : Instant) : String :=
  String.ofList t.rfc3339Chars

/-- RFC 3339 in UTC, to the second. -/
def rfc3339Seconds (t : Instant) : String :=
  let c := t.toCivil
  String.ofList (dateText c.date ++ 'T' :: clockText c ++ ['Z'])

/-- The tenths of the second that has begun; a leap second counts ten more. -/
def tenths (t : Instant) : Nat :=
  t.nanos / 100000000

/-- The value of the last-sync field, such as `2024-01-31T09:15:00.0+0000`. -/
def syncText (t : Instant) : String :=
  let c := t.toCivil
  String.ofList (dateText c.date ++ 'T' :: clockText c ++ '.' :: Decimal.ofNat t.tenths ++
    "+0000".toList)

/-- The time in a comment header, such as `12:00 PM, January 1 2020`. -/
def headerChars (t : Instant) : List Char :=
  let c := t.toCivil
  Decimal.padded 2 c.hour ++ ':' :: Decimal.padded 2 c.minute ++
    (if c.hour < 12 then " AM, " else " PM, ").toList ++
    (Date.monthName c.date.month).toList ++ ' ' :: Decimal.ofNat c.date.day ++
    ' ' :: yearText c.date.year

def headerText (t : Instant) : String :=
  String.ofList t.headerChars

end IssueBridge.Instant
