/-!
# The Gregorian calendar

Days are counted from the first of January of the year 1, which is day 0, in both directions.
-/

namespace IssueBridge

/-- A day of the proleptic Gregorian calendar. -/
structure Date where
  year : Int
  month : Nat
  day : Nat
  deriving DecidableEq, Inhabited

namespace Date

/-- A year with a 29th of February. -/
def isLeap (year : Int) : Bool :=
  year % 4 == 0 && (year % 100 != 0 || year % 400 == 0)

/-- The number of days in the years from 1 up to but not including `year`. -/
def daysBefore (year : Int) : Int :=
  let y := year - 1
  365 * y + y / 4 - y / 100 + y / 400

def monthLengths (year : Int) : List Nat :=
  [31, if isLeap year then 29 else 28, 31, 30, 31, 30, 31, 31, 30, 31, 30, 31]

/-- The length of a month; zero for a month that does not exist. -/
def monthLength (year : Int) (month : Nat) : Nat :=
  if month = 0 then 0 else (monthLengths year).getD (month - 1) 0

/-- The month and the day of a day of the year, counted from zero, among months of the given
lengths the first of which has the number `month`. -/
def splitDay (month : Nat) : List Nat → Nat → Nat × Nat
  | [], day => (month, day + 1)
  | length :: rest, day =>
    if day < length then (month, day + 1) else splitDay (month + 1) rest (day - length)

/-- The day count of a date. -/
def toDays (d : Date) : Int :=
  let passed : Nat := ((monthLengths d.year).take (d.month - 1)).foldl (· + ·) 0
  daysBefore d.year + passed + (d.day - 1 : Nat)

def yearOf (days : Int) : Int :=
  let guess := days * 400 / 146097 + 1
  if days < daysBefore guess then guess - 1
  else if daysBefore (guess + 1) ≤ days then guess + 1
  else guess

/-- The date of a day count. -/
def ofDays (days : Int) : Date :=
  let year := yearOf days
  let (month, day) := splitDay 1 (monthLengths year) (days - daysBefore year).toNat
  ⟨year, month, day⟩

def exists? (d : Date) : Bool :=
  1 ≤ d.day && d.day ≤ monthLength d.year d.month

def monthName (month : Nat) : String :=
  ["January", "February", "March", "April", "May", "June", "July", "August", "September",
    "October", "November", "December"].getD (month - 1) ""

end Date

end IssueBridge
