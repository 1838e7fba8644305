import IssueBridge.Proofs.WholeDoubles
import Mathlib.Algebra.Order.Field.Power
import Mathlib.Data.Rat.Cast.Order
import Mathlib.Tactic.FieldSimp
import Mathlib.Tactic.Linarith
import Mathlib.Tactic.NormNum

/-!
# The values of doubles

A finite double stands for its significand times a power of two, with its sign. It is whole exactly
if that is an integer, and two finite doubles are equal as numbers if they stand for the same one.
-/

namespace IssueBridge

/-- The number of the given sign and magnitude. -/
def signed (negative : Bool) (q : ℚ) : ℚ :=
  if negative then -q else q

/-- The number that a finite double stands for. -/
def Binary64.value (x : Binary64) : ℚ :=
  signed x.negative (x.significand * 2 ^ ((x.scale : ℤ) - 1075))

namespace Proofs

variable {x : Binary64} {n : ℤ}

lemma signed_signed (negative : Bool) (q : ℚ) : signed negative (signed negative q) = q := by
  cases negative with
  | false => rfl
  | true => exact neg_neg q

@[simp] lemma signed_zero (negative : Bool) : signed negative 0 = 0 := by
  cases negative with
  | false => rfl
  | true => exact neg_zero

lemma signed_eq_iff (negative : Bool) (q v : ℚ) :
    signed negative q = v ↔ q = signed negative v := by
  constructor
  · rintro rfl
    rw [signed_signed]
  · rintro rfl
    rw [signed_signed]

/-- A power of a whole exponent, by natural ones. -/
lemma zpow_eq_div (b : ℚ) (q : ℤ) : b ^ q = b ^ q.toNat / b ^ (-q).toNat := by
  obtain ⟨k, rfl | rfl⟩ := q.eq_nat_or_neg
  · rw [Int.toNat_natCast, Int.toNat_neg_natCast, pow_zero, div_one, zpow_natCast]
  · rw [neg_neg, Int.toNat_natCast, Int.toNat_neg_natCast, pow_zero, one_div, zpow_neg,
      zpow_natCast]

lemma ratio_pos (x : Binary64) : 0 < x.ratio.2 :=
  Nat.two_pow_pos _

/-- The value is the quotient of the magnitude, with the sign. -/
lemma value_eq_ratio (x : Binary64) :
    x.value = signed x.negative ((x.ratio.1 : ℚ) / x.ratio.2) := by
  have hratio : (x.ratio.1 : ℚ) / x.ratio.2 = x.significand * 2 ^ ((x.scale : ℤ) - 1075) := by
    unfold Binary64.ratio
    simp only [Nat.pow_eq, Nat.cast_mul, Nat.cast_pow, Nat.cast_ofNat]
    rw [zpow_eq_div, show ((x.scale : ℤ) - 1075).toNat = x.scale - 1075 by omega,
      show (-((x.scale : ℤ) - 1075)).toNat = 1075 - x.scale by omega, mul_div_assoc]
  rw [hratio]
  rfl

/-- A quotient is an integer if nothing remains. -/
lemma quotient_eq_iff {num den : ℕ} (hden : 0 < den) (m : ℤ) :
    (num : ℚ) / den = m ↔ num % den = 0 ∧ ((num / den : ℕ) : ℤ) = m := by
  have hne : (den : ℚ) ≠ 0 := Nat.cast_ne_zero.mpr hden.ne'
  rw [div_eq_iff hne]
  constructor
  · intro h
    have hproduct : (num : ℤ) = m * den := by exact_mod_cast h
    have hmod : num % den = 0 := by
      have hemod : (num : ℤ) % den = 0 := by rw [hproduct, Int.mul_emod_left]
      exact_mod_cast hemod
    refine ⟨hmod, ?_⟩
    rw [Int.natCast_div, hproduct, Int.mul_ediv_cancel _ (by exact_mod_cast hden.ne')]
  · rintro ⟨hmod, rfl⟩
    exact_mod_cast (Nat.div_mul_cancel (Nat.dvd_of_mod_eq_zero hmod)).symm

/-- A double is whole if it stands for an integer. -/
lemma toInt?_eq_some_iff : x.toInt? = some n ↔ x.isFinite = true ∧ x.value = n := by
  have hsigned : x.value = n ↔
      (x.ratio.1 : ℚ) / x.ratio.2 = ((if x.negative then -n else n : ℤ) : ℚ) := by
    rw [value_eq_ratio, signed_eq_iff]
    cases x.negative with
    | false => rfl
    | true =>
      rw [if_pos rfl, Int.cast_neg]
      rfl
  rw [hsigned, quotient_eq_iff (ratio_pos x)]
  unfold Binary64.toInt?
  dsimp only
  rw [Option.ite_none_right_eq_some, Option.some.injEq, and_assoc]
  cases x.negative with
  | false => rfl
  | true =>
    simp only [if_true]
    rw [neg_eq_iff_eq_neg]

/-- A finite whole double stands for the integer of 64 bits that is read from it. -/
lemma wholeOf?_map_eq_some_iff (hfinite : x.isFinite = true) :
    (Jira.CustomValue.wholeOf? x).map Int64.toInt = some n ↔
      x.value = n ∧ -2 ^ 63 ≤ n ∧ n < 2 ^ 63 := by
  rw [Option.map_eq_some_iff]
  constructor
  · rintro ⟨i, hi, rfl⟩
    obtain ⟨-, hvalue⟩ := toInt?_eq_some_iff.mp (wholeOf?_eq_some_iff.mp hi)
    exact ⟨hvalue, i.le_toInt, i.toInt_lt⟩
  · rintro ⟨hvalue, hlow, hhigh⟩
    have hi : (Int64.ofInt n).toInt = n := Int64.toInt_ofInt_of_le hlow hhigh
    refine ⟨Int64.ofInt n, wholeOf?_eq_some_iff.mpr ?_, hi⟩
    rw [hi]
    exact toInt?_eq_some_iff.mpr ⟨hfinite, hvalue⟩

end Proofs

end IssueBridge
