import IssueBridge.Number.Binary64
import IssueBridge.Number.Decimal

/-!
# Numerals of doubles

Texts that stand for a double-precision number: an optional sign, then digits with an optional
point and an optional decimal exponent, or the name of an infinity or of NaN.
-/

namespace IssueBridge.Numeral

/-- A decimal numeral taken apart: all its digits, how many of them follow the point, and the
exponent of ten. -/
structure Parts where
  digits : List Char
  places : Nat
  exponent : Int
  deriving DecidableEq

/-- The exponent after an `e`. -/
def exponent? : List Char → Option Int
  | [] => some 0
  | c :: rest => if c = 'e' ∨ c = 'E' then Decimal.toInt? rest else none

/-- An unsigned numeral, with a digit before or after the point. -/
def parts? (s : List Char) : Option Parts := do
  let whole := s.takeWhile Char.isDigit
  let rest := s.dropWhile Char.isDigit
  let (fraction, rest) := match rest with
    | '.' :: more => (more.takeWhile Char.isDigit, more.dropWhile Char.isDigit)
    | _ => ([], rest)
  if whole = [] ∧ fraction = [] then none
  else
    let exponent ← exponent? rest
    some ⟨whole ++ fraction, fraction.length, exponent⟩

/-- The sign in front, and what follows it. -/
def splitSign : List Char → Bool × List Char
  | '-' :: rest => (true, rest)
  | '+' :: rest => (false, rest)
  | s => (false, s)

/-- The double nearest to the number that a text stands for. -/
def toBinary64? (s : List Char) : Option Binary64 :=
  let (negative, body) := splitSign s
  match parts? body with
  | some p =>
    some (.ofDecimal negative (Nat.ofDigitChars 10 p.digits 0) (p.exponent - p.places))
  | none =>
    let name := body.map Char.toLower
    if name = "inf".toList ∨ name = "infinity".toList then some (.infinity negative)
    else if name = "nan".toList then some .nan
    else none

end IssueBridge.Numeral
