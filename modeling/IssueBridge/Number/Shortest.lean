import IssueBridge.Number.Binary64
import IssueBridge.Number.Decimal

/-!
# Shortest decimals

The decimal text of a finite double with the fewest digits that read back as the same double, and
of those the nearest.
-/

namespace IssueBridge.Binary64

/-- Digits times ten to the power `exponent`. -/
structure Decimals where
  digits : Nat
  exponent : Int

/-- The magnitudes that round to a finite number lie between `low` and `high`, all three over the
denominator `den`; the ends belong to them when `closed`. -/
structure Reach where
  low : Nat
  value : Nat
  high : Nat
  den : Nat
  closed : Bool

/-- Halfway to the neighbours on both sides. The neighbour below a power of two is nearer. -/
def reach (x : Binary64) : Reach :=
  let (num, den) := x.ratio
  let unit := Nat.pow 2 (x.scale - 1075)
  let narrow := x.fractionField = 0 ∧ 1 < x.exponentField
  { low := 4 * num - (if narrow then unit else 2 * unit), value := 4 * num,
    high := 4 * num + 2 * unit, den := 4 * den, closed := x.significand % 2 == 0 }

/-- The decimal lies within the reach. -/
def Reach.holds (r : Reach) (d : Decimals) : Bool :=
  let (n, den) := (d.digits * Nat.pow 10 d.exponent.toNat * r.den, Nat.pow 10 (-d.exponent).toNat)
  if r.closed then r.low * den ≤ n && n ≤ r.high * den else r.low * den < n && n < r.high * den

/-- The nearer of the two neighbours of the value on the grid of powers `exponent` that lie
within its reach. -/
def Reach.onGrid? (r : Reach) (exponent : Int) : Option Decimals :=
  let num := r.value * Nat.pow 10 (-exponent).toNat
  let den := r.den * Nat.pow 10 exponent.toNat
  let below := num / den
  let nearer := if 2 * (num % den) ≤ den then [below, below + 1] else [below + 1, below]
  (nearer.map fun n => Decimals.mk n exponent).find? r.holds

/-- How many places before the point the value has at most, as an exponent of ten. -/
def Reach.top (r : Reach) : Int :=
  (Nat.toDigits 10 r.value).length - (Nat.toDigits 10 r.den).length + 1

/-- The fewest digits that read back. -/
def shortest (x : Binary64) : Decimals :=
  let r := x.reach
  let grids := (List.range 20).map fun (k : Nat) => r.top - (k : Int)
  match grids.findSome? r.onGrid? with
  | some d => d
  | none => ⟨0, 0⟩

/-- Trailing zeros of the digits, moved into the exponent. -/
def Decimals.strip (d : Decimals) : Nat → Decimals
  | 0 => d
  | fuel + 1 =>
    if d.digits ≠ 0 ∧ d.digits % 10 = 0 then strip ⟨d.digits / 10, d.exponent + 1⟩ fuel else d

/-- The text of a finite number: positional between `1e-5` and `1e16`, with at least one digit
after the point, and with an exponent elsewhere. -/
def text (x : Binary64) : List Char :=
  let sign := if x.negative then ['-'] else []
  if x.significand = 0 then sign ++ "0.0".toList
  else
    let d := x.shortest.strip 400
    let digits := Decimal.ofNat d.digits
    let point : Int := digits.length + d.exponent
    let body :=
      if 0 ≤ d.exponent ∧ point ≤ 16 then
        digits ++ List.replicate d.exponent.toNat '0' ++ ".0".toList
      else if 0 < point ∧ point ≤ 16 then
        digits.take point.toNat ++ ['.'] ++ digits.drop point.toNat
      else if -5 < point ∧ point ≤ 0 then
        "0.".toList ++ List.replicate (-point).toNat '0' ++ digits
      else
        let tail := if digits.length = 1 then [] else '.' :: digits.drop 1
        digits.take 1 ++ tail ++ ['e'] ++ Decimal.ofInt (point - 1)
    sign ++ body

end IssueBridge.Binary64
