/-!
# Whole numbers in decimal

Writing whole numbers in decimal, and reading them back with an optional sign.
-/

namespace IssueBridge.Decimal

/-- The digits of a natural number, without leading zeros. -/
def ofNat (n : Nat) : List Char :=
  Nat.toDigits 10 n

/-- The digits of a whole number, after a minus sign if it is negative. -/
def ofInt : Int → List Char
  | .ofNat n => ofNat n
  | .negSucc n => '-' :: ofNat (n + 1)

/-- The digits of a natural number, with leading zeros up to `width` places. -/
def padded (width n : Nat) : List Char :=
  let digits := ofNat n
  List.replicate (width - digits.length) '0' ++ digits

/-- One or more digits. -/
def toNat? (s : List Char) : Option Nat :=
  if s ≠ [] ∧ s.all Char.isDigit then some (Nat.ofDigitChars 10 s 0) else none

/-- One or more digits after an optional sign. -/
def toInt? : List Char → Option Int
  | '-' :: rest => (toNat? rest).map fun n => -(n : Int)
  | '+' :: rest => (toNat? rest).map Int.ofNat
  | s => (toNat? s).map Int.ofNat

/-- A whole number that fits in 64 bits with a sign. -/
def toInt64? (s : List Char) : Option Int64 :=
  match toInt? s with
  | some n =>
    if Int64.minValue.toInt ≤ n ∧ n ≤ Int64.maxValue.toInt then some (Int64.ofInt n) else none
  | none => none

/-- A whole number that fits in 64 bits without a sign; a plus is allowed in front. -/
def toUInt64? (s : List Char) : Option UInt64 :=
  let digits := match s with
    | '+' :: rest => rest
    | _ => s
  match toNat? digits with
  | some n => if n < UInt64.size then some (UInt64.ofNat n) else none
  | none => none

theorem toNat?_ofNat (n : Nat) : toNat? (ofNat n) = some n := by
  have hall : (Nat.toDigits 10 n).all Char.isDigit = true :=
    List.all_eq_true.2 fun _ hc => Nat.isDigit_of_mem_toDigits (by decide) (by decide) hc
  simp [toNat?, ofNat, Nat.toDigits_ne_nil, hall, Nat.ofDigitChars_toDigits]

theorem toInt?_ofInt (n : Int) : toInt? (ofInt n) = some n := by
  cases n with
  | ofNat n =>
    have hne : ofNat n ≠ [] := Nat.toDigits_ne_nil
    have hd : ∀ c ∈ ofNat n, c.isDigit = true :=
      fun _ hc => Nat.isDigit_of_mem_toDigits (by decide) (by decide) hc
    have h := toNat?_ofNat n
    simp only [ofInt]
    cases hs : ofNat n with
    | nil => exact absurd hs hne
    | cons c rest =>
      have hc := hd c (by simp [hs])
      rw [hs] at h
      unfold toInt?
      split
      · simp_all
      · simp_all
      · simp [h]
  | negSucc n => simp [ofInt, toInt?, toNat?_ofNat, Int.negSucc_eq]

theorem toList_toString (n : Nat) : (toString n).toList = ofNat n :=
  String.toList_ofList

theorem ofList_ofInt (n : Int) : String.ofList (ofInt n) = toString n := by
  cases n with
  | ofNat n => rfl
  | negSucc n =>
    change String.ofList ('-' :: ofNat (n + 1)) = "-" ++ toString (n + 1)
    rw [← String.toList_inj, String.toList_append, String.toList_ofList, toList_toString]
    rfl

end IssueBridge.Decimal
