import IssueBridge.Time.Instant
import IssueBridge.Text.Blank

/-!
# Reading instants

Three notations: RFC 3339, a relaxed form of it, and a form without a colon in the offset. Each
step reads from the front of a text and returns what it read and the rest.
-/

namespace IssueBridge.Instant.Reader

/-- Between `least` and `most` digits. -/
def number (least most : Nat) (s : List Char) : Option (Nat × List Char) :=
  let digits := (s.take most).takeWhile Char.isDigit
  if digits.length < least then none
  else some (Nat.ofDigitChars 10 digits 0, s.drop digits.length)

def char (c : Char) : List Char → Option (List Char)
  | [] => none
  | d :: rest => if d = c then some rest else none

/-- The separator of date and time. -/
def dateEnd : List Char → Option (List Char)
  | [] => none
  | c :: rest => if c = 'T' ∨ c = 't' ∨ c = ' ' then some rest else none

/-- Digits of a fraction of a second; those after the ninth are ignored. -/
def nanos (s : List Char) : Option (Nat × List Char) :=
  match s with
  | '.' :: rest => do
    let (n, after) ← number 1 9 rest
    let count := rest.length - after.length
    some (n * Nat.pow 10 (9 - count), after.dropWhile Char.isDigit)
  | _ => some (0, s)

/-- An offset from UTC in seconds: a sign, two digits of hours, what `separator` skips, and two
digits of minutes. -/
def offset (separator : List Char → Option (List Char)) (s : List Char) :
    Option (Int × List Char) := do
  let (negative, s) ← match s with
    | '+' :: rest => some (false, rest)
    | '-' :: rest => some (true, rest)
    | '\u2212' :: rest => some (true, rest)
    | _ => none
  let (hours, s) ← number 2 2 s
  let s ← separator s
  let (minutes, s) ← number 2 2 s
  let size : Int := hours * 3600 + minutes * 60
  if minutes < 60 then some (if negative then -size else size, s) else none

/-- Any number of colons and blanks. -/
def colonsOrBlanks (s : List Char) : Option (List Char) :=
  some (s.dropWhile fun c => c == ':' || Text.isBlank c)

/-- An offset, or Z for none. -/
def offsetOrZulu (separator : List Char → Option (List Char)) (s : List Char) :
    Option (Int × List Char) :=
  match s with
  | 'Z' :: rest => some (0, rest)
  | 'z' :: rest => some (0, rest)
  | _ => offset separator s

/-- A number of at most `most` digits after blanks. -/
def spaced (most : Nat) (s : List Char) : Option (Nat × List Char) :=
  number 1 most (Text.trimLeft s)

/-- A year of up to four digits, or of any number of digits after a sign. -/
def year (s : List Char) : Option (Int × List Char) :=
  match Text.trimLeft s with
  | '-' :: rest => (number 1 rest.length rest).map fun (n, rest) => (-(n : Int), rest)
  | '+' :: rest => (number 1 rest.length rest).map fun (n, rest) => ((n : Int), rest)
  | rest => (number 1 4 rest).map fun (n, rest) => ((n : Int), rest)

/-- Year, month and day, with `between` in front of each hyphen. -/
def date (between : List Char → List Char) (s : List Char) : Option (Date × List Char) := do
  let (y, s) ← year s
  let s ← char '-' (between s)
  let (m, s) ← spaced 2 s
  let s ← char '-' (between s)
  let (d, s) ← spaced 2 s
  some (⟨y, m, d⟩, s)

/-- Hour, minute and second, with `between` in front of each colon. -/
def clock (between : List Char → List Char) (s : List Char) :
    Option ((Nat × Nat × Nat) × List Char) := do
  let (h, s) ← spaced 2 s
  let s ← char ':' (between s)
  let (m, s) ← spaced 2 s
  let s ← char ':' (between s)
  let (sec, s) ← spaced 2 s
  some ((h, m, sec), s)

/-- RFC 3339 with all its digits; a space may stand for the T. -/
def strict? (s : List Char) : Option Instant := do
  let (y, s) ← number 4 4 s
  let s ← char '-' s
  let (mo, s) ← number 2 2 s
  let s ← char '-' s
  let (d, s) ← number 2 2 s
  let s ← dateEnd s
  let (h, s) ← number 2 2 s
  let s ← char ':' s
  let (mi, s) ← number 2 2 s
  let s ← char ':' s
  let (sec, s) ← number 2 2 s
  let (n, s) ← nanos s
  let (shift, s) ← offsetOrZulu (char ':') s
  if s = [] then ofCivil? ⟨⟨y, mo, d⟩, h, mi, sec, n⟩ shift else none

/-- The letters UTC in any case, or an offset, or Z. -/
def zone (s : List Char) : Option (Int × List Char) :=
  if (s.take 3).map Char.toUpper = ['U', 'T', 'C'] then some (0, s.drop 3)
  else offsetOrZulu colonsOrBlanks s

/-- RFC 3339 with blanks between its parts, leading zeros left out and years of any length after
a sign. -/
def relaxed? (s : List Char) : Option Instant := do
  let (d, s) ← date Text.trimLeft s
  let s ← dateEnd s
  let ((h, mi, sec), s) ← clock Text.trimLeft s
  let (n, s) ← nanos s
  let (shift, s) ← zone (Text.trimLeft s)
  if Text.trimLeft s = [] then ofCivil? ⟨d, h, mi, sec, n⟩ shift else none

/-- Date and time to the second, then an offset such as `-0700`. -/
def compact? (s : List Char) : Option Instant := do
  let (d, s) ← date id s
  let s ← char 'T' s
  let ((h, mi, sec), s) ← clock id s
  let (shift, s) ← offset colonsOrBlanks (Text.trimLeft s)
  if s = [] then ofCivil? ⟨d, h, mi, sec, 0⟩ shift else none

end IssueBridge.Instant.Reader

namespace IssueBridge.Instant

/-- The instant that a timestamp in JSON stands for. -/
def ofTimestamp? (s : String) : Option Instant :=
  Reader.relaxed? s.toList

/-- The instant that a configured start time stands for: RFC 3339, or the form with a compact
offset. -/
def ofSetting? (s : String) : Option Instant :=
  match Reader.strict? s.toList with
  | some t => some t
  | none => Reader.compact? s.toList

end IssueBridge.Instant
