import IssueBridge.Proofs.DoubleValues
import Mathlib.Algebra.Order.Field.Basic

/-!
# The nearest doubles

Rounding gives the finite double nearest to a number, and the one with the even significand where
two are equally near. Seen from the exponent to which a number is rounded, a double is a whole
number of units, or it is below all numbers of that exponent.
-/

namespace IssueBridge.Proofs

/-- The finite double nearest to a number; of two at the same distance, the even one. -/
structure Nearest (q : ℚ) (x : Binary64) : Prop where
  finite : x.isFinite = true
  least : ∀ y : Binary64, y.isFinite = true → |q - x.value| ≤ |q - y.value|
  even : ∀ y : Binary64, y.isFinite = true → y.value ≠ x.value →
    |q - y.value| = |q - x.value| → Even x.significand ∧ Odd y.significand

variable {q : ℚ} {x y : Binary64}

/-- No two numbers are nearest. -/
lemma value_unique (hx : Nearest q x) (hy : Nearest q y) : x.value = y.value := by
  by_contra hne
  have htie : |q - x.value| = |q - y.value| :=
    le_antisymm (hx.least y hy.finite) (hy.least x hx.finite)
  have hodd := (hx.even y hy.finite (Ne.symm hne) htie.symm).2
  have heven := (hy.even x hx.finite hne htie).1
  exact Nat.not_even_iff_odd.mpr hodd heven

/-- Nothing is nearer to what a double stands for than the double itself. -/
lemma nearest_of_exact (hx : x.isFinite = true) : Nearest x.value x := by
  refine ⟨hx, fun y _ => ?_, fun y _ hne htie => ?_⟩
  · rw [sub_self, abs_zero]
    exact abs_nonneg _
  · rw [sub_self, abs_zero, abs_eq_zero, sub_eq_zero] at htie
    exact absurd htie.symm hne

/-! ## Whole numbers of a unit -/

/-- The whole number that is half a unit away at most, and even if it is half a unit. -/
structure RoundsTo (a : ℚ) (r : ℤ) : Prop where
  near : |a - r| ≤ 1 / 2
  tie : |a - r| = 1 / 2 → Even r

/-- The distance of a rounded quotient, as a part of the denominator. -/
lemma distance_roundDiv (num : ℕ) {den : ℕ} (hden : 0 < den) :
    2 * |(num : ℤ) - (Binary64.roundDiv num den : ℕ) * den| ≤ den ∧
      (2 * |(num : ℤ) - (Binary64.roundDiv num den : ℕ) * den| = den →
        Binary64.roundDiv num den % 2 = 0) := by
  have hmod : den * (num / den) + num % den = num := Nat.div_add_mod num den
  have hlt := Nat.mod_lt num hden
  unfold Binary64.roundDiv
  dsimp only
  generalize num / den = f at hmod
  generalize num % den = ρ at hmod hlt
  have hdown : (num : ℤ) - (f : ℕ) * den = ρ := by
    rw [← hmod]
    push_cast
    ring
  have hup : (num : ℤ) - (f + 1 : ℕ) * den = ρ - den := by
    rw [← hdown]
    push_cast
    ring
  split
  · rw [hdown, abs_of_nonneg (Int.natCast_nonneg ρ)]
    omega
  · rw [hup, abs_of_nonpos (by omega)]
    omega

lemma roundsTo_roundDiv (num : ℕ) {den : ℕ} (hden : 0 < den) :
    RoundsTo ((num : ℚ) / den) (Binary64.roundDiv num den : ℕ) := by
  have hpos : (0 : ℚ) < den := by exact_mod_cast hden
  have hscaled : ∀ r : ℤ, |(num : ℚ) / den - r| = (|(num : ℤ) - r * den| : ℤ) / (den : ℚ) := by
    intro r
    rw [div_sub' hpos.ne', abs_div, abs_of_pos hpos, mul_comm]
    push_cast
    rfl
  obtain ⟨hnear, htie⟩ := distance_roundDiv num hden
  constructor
  · rw [hscaled, div_le_div_iff₀ hpos two_pos, one_mul, mul_comm]
    exact_mod_cast hnear
  · rw [hscaled, div_eq_div_iff hpos.ne' two_ne_zero, one_mul, mul_comm]
    intro h
    have heven := htie (by exact_mod_cast h)
    rw [Int.even_coe_nat, Nat.even_iff]
    exact heven

/-- Every other whole number is at least as far away, and is odd if it is no farther. -/
lemma RoundsTo.others {a : ℚ} {r k : ℤ} (h : RoundsTo a r) (hk : k ≠ r) :
    |a - r| ≤ |a - k| ∧ (|a - k| = |a - r| → Even r ∧ Odd k) := by
  have hone : (1 : ℚ) ≤ |(k : ℚ) - r| := by exact_mod_cast Int.one_le_abs (sub_ne_zero.mpr hk)
  have htriangle := abs_sub_le (k : ℚ) a r
  rw [abs_sub_comm (k : ℚ) a] at htriangle
  have hnear := h.near
  refine ⟨by linarith, fun htie => ?_⟩
  have heven : Even r := h.tie (by linarith)
  have hnext : |k - r| = 1 := by
    have hle : |(k : ℚ) - r| ≤ 1 := by linarith
    exact_mod_cast le_antisymm hle hone
  refine ⟨heven, ?_⟩
  rw [Int.even_iff] at heven
  rw [Int.odd_iff]
  rcases (abs_eq zero_le_one).mp hnext with h | h <;> omega

/-- Rounding passes over no whole number. -/
lemma RoundsTo.le_of_lt {a : ℚ} {r k : ℤ} (h : RoundsTo a r) (hk : a < k) : r ≤ k := by
  have hr : (r : ℚ) < k + 1 := by linarith [abs_le.mp h.near]
  exact Int.lt_add_one_iff.mp (by exact_mod_cast hr)

lemma RoundsTo.le_of_le {a : ℚ} {r k : ℤ} (h : RoundsTo a r) (hk : k ≤ a) : k ≤ r := by
  have hr : (k : ℚ) < r + 1 := by linarith [abs_le.mp h.near]
  exact Int.lt_add_one_iff.mp (by exact_mod_cast hr)

/-! ## Doubles in a unit -/

lemma significand_lt (x : Binary64) : x.significand < 2 ^ 53 := by
  have hf : x.fractionField < 2 ^ 52 := Nat.mod_lt _ (by decide)
  unfold Binary64.significand
  rw [Nat.pow_eq]
  split <;> omega

lemma abs_signed (negative : Bool) (q : ℚ) : |signed negative q| = |q| := by
  cases negative with
  | false => rfl
  | true => exact abs_neg q

/-- Which side has the sign makes no difference. -/
lemma abs_signed_sub (negative : Bool) (q v : ℚ) :
    |signed negative q - v| = |q - signed negative v| := by
  cases negative with
  | false => rfl
  | true =>
    change |-q - v| = |q - -v|
    rw [← abs_neg, neg_sub, sub_neg_eq_add, sub_neg_eq_add, add_comm]

lemma abs_value (x : Binary64) : |x.value| = x.significand * 2 ^ ((x.scale : ℤ) - 1075) := by
  unfold Binary64.value
  rw [abs_signed, abs_of_nonneg (by positivity)]

lemma scale_pos (x : Binary64) : 1 ≤ x.scale :=
  Nat.le_max_right _ _

/-- A double is a whole number of units, odd only if the significand is; or it is small. -/
lemma whole_or_small (y : Binary64) {e : ℤ} {v : ℚ} (hv : |v| = |y.value|) :
    (∃ k : ℤ, v = k * 2 ^ e ∧ (Odd k → Odd y.significand)) ∨
      (-1074 < e ∧ v < 2 ^ (e + 52)) := by
  have hscale := scale_pos y
  rw [abs_value] at hv
  rcases le_or_gt e ((y.scale : ℤ) - 1075) with hle | hlt
  · left
    obtain ⟨n, hn⟩ := Int.le.dest hle
    have hmul : |v| = ((y.significand * 2 ^ n : ℕ) : ℤ) * 2 ^ e := by
      rw [hv, ← hn, add_comm, zpow_add₀ two_ne_zero, zpow_natCast]
      push_cast
      ring
    have hodd : Odd (y.significand * 2 ^ n) → Odd y.significand := fun h => (Nat.odd_mul.mp h).1
    rcases abs_choice v with habs | habs
    · exact ⟨_, by rw [← habs]; exact hmul, fun h => hodd (by exact_mod_cast h)⟩
    · refine ⟨-((y.significand * 2 ^ n : ℕ) : ℤ), ?_, fun h => hodd ?_⟩
      · rw [Int.cast_neg, neg_mul, ← hmul, habs, neg_neg]
      · exact_mod_cast odd_neg.mp h
  · right
    refine ⟨by omega, ?_⟩
    have hsignificand : (y.significand : ℚ) < 2 ^ (53 : ℤ) := by exact_mod_cast significand_lt y
    calc v ≤ |v| := le_abs_self v
      _ = y.significand * 2 ^ ((y.scale : ℤ) - 1075) := hv
      _ < 2 ^ (53 : ℤ) * 2 ^ ((y.scale : ℤ) - 1075) :=
        mul_lt_mul_of_pos_right hsignificand (zpow_pos two_pos _)
      _ = 2 ^ (53 + ((y.scale : ℤ) - 1075)) := (zpow_add₀ two_ne_zero _ _).symm
      _ ≤ 2 ^ (e + 52) := zpow_le_zpow_right₀ one_le_two (by omega)

/-- A magnitude rounded to units of an exponent: no smaller exponent would do for it, but the least
one, and the units fit in a significand or carry. -/
structure Rounded (m : ℚ) (e : ℤ) (r : ℕ) : Prop where
  exponent : -1074 ≤ e
  large : -1074 < e → 2 ^ (e + 52) ≤ m
  units : RoundsTo (m / 2 ^ e) r
  normal : -1074 < e → 2 ^ 52 ≤ r
  carried : r ≤ 2 ^ 53

namespace Rounded

variable {m v : ℚ} {e k : ℤ} {r : ℕ}

/-- Every other whole number of units is at least as far away. -/
lemma whole (h : Rounded m e r) (hk : k ≠ r) :
    |m - r * 2 ^ e| ≤ |m - k * 2 ^ e| ∧
      (|m - k * 2 ^ e| = |m - r * 2 ^ e| → Even r ∧ Odd k) := by
  have hunit : (0 : ℚ) < 2 ^ e := zpow_pos two_pos e
  have hdistance : ∀ k : ℤ, |m - k * 2 ^ e| = |m / 2 ^ e - k| * 2 ^ e := by
    intro k
    rw [← abs_of_pos hunit, ← abs_mul, abs_of_pos hunit, sub_mul, div_mul_cancel₀ _ hunit.ne']
  obtain ⟨hle, htie⟩ := h.units.others hk
  have hr := hdistance r
  rw [Int.cast_natCast] at hr hle htie
  rw [hdistance, hr]
  refine ⟨mul_le_mul_of_nonneg_right hle hunit.le, fun hsame => ?_⟩
  have heven := htie (mul_right_cancel₀ hunit.ne' hsame)
  exact ⟨by exact_mod_cast heven.1, heven.2⟩

/-- A number below all those of the exponent is farther away: the least of these is a whole number
of units and lies in between. -/
lemma small (h : Rounded m e r) (he : -1074 < e) (hv : v < 2 ^ (e + 52)) :
    |m - r * 2 ^ e| < |m - v| := by
  have hm := h.large he
  have hpower : ((2 ^ 52 : ℤ) : ℚ) * 2 ^ e = 2 ^ (e + 52) := by
    rw [zpow_add₀ two_ne_zero, mul_comm]
    norm_cast
  have hbetween : |m - r * 2 ^ e| ≤ |m - 2 ^ (e + 52)| := by
    by_cases hr : (2 ^ 52 : ℤ) = r
    · rw [← hpower, hr, Int.cast_natCast]
    · rw [← hpower]
      exact (h.whole hr).1
  have hstrict : |m - 2 ^ (e + 52)| < |m - v| := by
    rw [abs_of_nonneg (by linarith), abs_of_pos (by linarith)]
    linarith
  exact lt_of_le_of_lt hbetween hstrict

/-- Every other double is at least as far away, with either sign. -/
lemma others (h : Rounded m e r) (y : Binary64) (hv : |v| = |y.value|) (hne : v ≠ r * 2 ^ e) :
    |m - r * 2 ^ e| ≤ |m - v| ∧
      (|m - v| = |m - r * 2 ^ e| → Even r ∧ Odd y.significand) := by
  rcases whole_or_small y (e := e) hv with ⟨k, rfl, hodd⟩ | ⟨he, hsmall⟩
  · have hk : k ≠ r := by
      rintro rfl
      exact hne (by rw [Int.cast_natCast])
    obtain ⟨hle, htie⟩ := h.whole hk
    exact ⟨hle, fun hsame => ⟨(htie hsame).1, hodd (htie hsame).2⟩⟩
  · have hfar := h.small he hsmall
    exact ⟨hfar.le, fun hsame => absurd hsame hfar.ne'⟩

/-- A double that is a number rounded to whole units is nearest. -/
lemma nearest {negative : Bool} (h : Rounded m e r) (hfinite : x.isFinite = true)
    (hvalue : x.value = signed negative (r * 2 ^ e)) (hparity : Even r → Even x.significand) :
    Nearest (signed negative m) x := by
  have hside : ∀ y : Binary64, |signed negative m - y.value| = |m - signed negative y.value| :=
    fun y => abs_signed_sub negative m y.value
  have hx : signed negative x.value = r * 2 ^ e := by rw [hvalue, signed_signed]
  refine ⟨hfinite, fun y _ => ?_, fun y _ hne htie => ?_⟩
  · rw [hside, hside, hx]
    by_cases hy : signed negative y.value = r * 2 ^ e
    · rw [hy]
    · exact (h.others y (abs_signed _ _) hy).1
  · rw [hside, hside, hx] at htie
    have hy : signed negative y.value ≠ r * 2 ^ e := by
      intro hy
      rw [hvalue] at hne
      exact hne ((signed_eq_iff _ _ _).mp hy)
    obtain ⟨heven, hodd⟩ := (h.others y (abs_signed _ _) hy).2 htie
    exact ⟨hparity heven, hodd⟩

end Rounded

/-! ## The pattern of a rounded number -/

lemma value_ofCode (negative : Bool) {e f : ℕ} (he : e < 2047) (hf : f < 2 ^ 52) :
    let x := Binary64.ofCode negative (e * 2 ^ 52 + f)
    x.isFinite = true ∧ x.significand = (if e = 0 then f else 2 ^ 52 + f) ∧
      x.value = signed negative ((if e = 0 then f else 2 ^ 52 + f : ℕ) *
        2 ^ (((max e 1 : ℕ) : ℤ) - 1075)) := by
  obtain ⟨hexponent, hfraction, hsign⟩ := fields_ofCode negative e f (by omega) hf
  have hsignificand : (Binary64.ofCode negative (e * 2 ^ 52 + f)).significand =
      if e = 0 then f else 2 ^ 52 + f := by
    unfold Binary64.significand
    rw [hexponent, hfraction]
    rfl
  refine ⟨?_, hsignificand, ?_⟩
  · unfold Binary64.isFinite
    rw [hexponent, bne_iff_ne]
    exact he.ne
  · unfold Binary64.value Binary64.scale
    rw [hsignificand, hsign, hexponent]

/-- Units are added to the code of their exponent: less than `2 ^ 52` are the fraction of a number
below the normal ones, and `2 ^ 53` carry into the exponent. -/
lemma rounded_ofCode (negative : Bool) {k r : ℕ} (hr : r ≤ 2 ^ 53) (hnormal : 0 < k → 2 ^ 52 ≤ r)
    (hfinite : k * 2 ^ 52 + r < 2047 * 2 ^ 52) :
    let x := Binary64.ofCode negative (k * 2 ^ 52 + r)
    x.isFinite = true ∧ x.value = signed negative (r * 2 ^ ((k : ℤ) - 1074)) ∧
      (Even r → Even x.significand) := by
  dsimp only
  rcases Nat.lt_or_ge r (2 ^ 52) with hsmall | hlarge
  · have hk : k = 0 := by omega
    subst hk
    obtain ⟨hx, hsignificand, hvalue⟩ := value_ofCode negative (e := 0) (by omega) hsmall
    rw [if_pos rfl] at hsignificand hvalue
    refine ⟨hx, hvalue, ?_⟩
    rw [hsignificand]
    exact id
  · rcases Nat.lt_or_ge r (2 ^ 53) with hfits | hcarry
    · obtain ⟨hx, hsignificand, hvalue⟩ := value_ofCode negative (e := k + 1) (f := r - 2 ^ 52)
        (by omega) (by omega)
      rw [if_neg (by omega), Nat.add_sub_cancel' hlarge] at hsignificand hvalue
      rw [show (k + 1) * 2 ^ 52 + (r - 2 ^ 52) = k * 2 ^ 52 + r by omega] at hx hsignificand hvalue
      rw [show ((max (k + 1) 1 : ℕ) : ℤ) - 1075 = (k : ℤ) - 1074 by omega] at hvalue
      refine ⟨hx, hvalue, ?_⟩
      rw [hsignificand]
      exact id
    · obtain rfl : r = 2 ^ 53 := by omega
      obtain ⟨hx, hsignificand, hvalue⟩ := value_ofCode negative (e := k + 2) (f := 0)
        (by omega) (by omega)
      rw [if_neg (by omega)] at hsignificand hvalue
      rw [show (k + 2) * 2 ^ 52 + 0 = k * 2 ^ 52 + 2 ^ 53 by omega] at hx hsignificand hvalue
      refine ⟨hx, ?_, fun _ => ?_⟩
      · rw [hvalue, show ((max (k + 2) 1 : ℕ) : ℤ) - 1075 = 1 + ((k : ℤ) - 1074) by omega,
          zpow_add₀ two_ne_zero, ← mul_assoc]
        norm_num
      · rw [hsignificand]
        decide

/-! ## Rounding a quotient -/

lemma rescale_eq (num den : ℕ) (q : ℤ) :
    ((Binary64.rescale num den q).1 : ℚ) / (Binary64.rescale num den q).2 =
      (num : ℚ) / den / 2 ^ q := by
  unfold Binary64.rescale
  simp only [Nat.pow_eq, Nat.cast_mul, Nat.cast_pow, Nat.cast_ofNat]
  rw [zpow_eq_div 2 q, div_div_div_eq]

lemma lt_iff_quotient_lt (num : ℕ) {den : ℕ} (hden : den ≠ 0) (q : ℤ) :
    (Binary64.rescale num den q).1 < (Binary64.rescale num den q).2 ↔
      (num : ℚ) / den < 2 ^ q := by
  have hpos : 0 < (Binary64.rescale num den q).2 :=
    Nat.mul_pos (Nat.pos_of_ne_zero hden) (Nat.two_pow_pos _)
  have hunit : (0 : ℚ) < 2 ^ q := zpow_pos two_pos q
  rw [← div_lt_one hunit, ← rescale_eq, div_lt_one (by exact_mod_cast hpos), Nat.cast_lt]

lemma log2_bounds {n : ℕ} (hn : n ≠ 0) :
    (2 : ℚ) ^ (n.log2 : ℤ) ≤ n ∧ (n : ℚ) < 2 ^ ((n.log2 : ℤ) + 1) := by
  constructor
  · exact_mod_cast Nat.log2_self_le hn
  · exact_mod_cast Nat.lt_log2_self

/-- The lengths of two numbers leave two exponents for their quotient. -/
lemma quotient_bounds {num den : ℕ} (hnum : num ≠ 0) (hden : den ≠ 0) :
    (2 : ℚ) ^ ((num.log2 : ℤ) - den.log2 - 1) ≤ (num : ℚ) / den ∧
      (num : ℚ) / den < 2 ^ ((num.log2 : ℤ) - den.log2 + 1) := by
  obtain ⟨hnumlow, hnumhigh⟩ := log2_bounds hnum
  obtain ⟨hdenlow, hdenhigh⟩ := log2_bounds hden
  have hpos : (0 : ℚ) < den := by exact_mod_cast Nat.pos_of_ne_zero hden
  rw [le_div_iff₀ hpos, div_lt_iff₀ hpos]
  constructor
  · calc (2 : ℚ) ^ ((num.log2 : ℤ) - den.log2 - 1) * den
        ≤ 2 ^ ((num.log2 : ℤ) - den.log2 - 1) * 2 ^ ((den.log2 : ℤ) + 1) :=
          mul_le_mul_of_nonneg_left hdenhigh.le (zpow_pos two_pos _).le
      _ = 2 ^ (num.log2 : ℤ) := by
          rw [← zpow_add₀ two_ne_zero]
          congr 1
          ring
      _ ≤ num := hnumlow
  · calc (num : ℚ) < 2 ^ ((num.log2 : ℤ) + 1) := hnumhigh
      _ = 2 ^ ((num.log2 : ℤ) - den.log2 + 1) * 2 ^ (den.log2 : ℤ) := by
          rw [← zpow_add₀ two_ne_zero]
          congr 1
          ring
      _ ≤ 2 ^ ((num.log2 : ℤ) - den.log2 + 1) * den :=
          mul_le_mul_of_nonneg_left hdenlow (zpow_pos two_pos _).le

lemma exponentFor_spec {num den : ℕ} (hnum : num ≠ 0) (hden : den ≠ 0) :
    -1074 ≤ Binary64.exponentFor num den ∧
      (num : ℚ) / den < 2 ^ (Binary64.exponentFor num den + 53) ∧
      (-1074 < Binary64.exponentFor num den →
        2 ^ (Binary64.exponentFor num den + 52) ≤ (num : ℚ) / den) := by
  obtain ⟨log, hlog, hfrom, hto⟩ : ∃ log : ℤ,
      Binary64.exponentFor num den = max (log - 52) (-1074) ∧
        2 ^ log ≤ (num : ℚ) / den ∧ (num : ℚ) / den < 2 ^ (log + 1) := by
    obtain ⟨hlow, hhigh⟩ := quotient_bounds hnum hden
    have hcompare := lt_iff_quotient_lt num hden ((num.log2 : ℤ) - den.log2)
    unfold Binary64.exponentFor
    dsimp only
    split
    · rename_i hlt
      refine ⟨_, rfl, hlow, ?_⟩
      rw [sub_add_cancel]
      exact hcompare.mp hlt
    · rename_i hge
      exact ⟨_, rfl, not_lt.mp (mt hcompare.mpr hge), hhigh⟩
  rw [hlog]
  have hle : log + 1 ≤ max (log - 52) (-1074) + 53 := by omega
  refine ⟨le_max_right _ _, lt_of_lt_of_le hto (zpow_le_zpow_right₀ one_le_two hle), fun h => ?_⟩
  rwa [show max (log - 52) (-1074) + 52 = log by omega]

/-! ## Rounding -/

/-- Below half of the least double, zero is nearest. -/
lemma nearest_zero (negative : Bool) (h : |q| < 2 ^ (-1075 : ℤ)) :
    Nearest q (Binary64.zero negative) := by
  obtain ⟨hfinite, -, hvalue⟩ := value_ofCode negative (e := 0) (f := 0) (by decide) (by decide)
  have hcode : Binary64.ofCode negative (0 * 2 ^ 52 + 0) = Binary64.zero negative := rfl
  rw [hcode] at hfinite hvalue
  rw [if_pos rfl, Nat.cast_zero, zero_mul, signed_zero] at hvalue
  have hfar : ∀ y : Binary64, y.value ≠ 0 → |q| < |q - y.value| := by
    intro y hy
    have hscale := scale_pos y
    have hsignificand : (1 : ℚ) ≤ y.significand := by
      rw [← abs_pos, abs_value] at hy
      exact_mod_cast pos_of_mul_pos_left hy (zpow_pos two_pos _).le
    have hleast : (2 : ℚ) ^ (-1075 : ℤ) + 2 ^ (-1075 : ℤ) ≤ |y.value| := by
      calc (2 : ℚ) ^ (-1075 : ℤ) + 2 ^ (-1075 : ℤ) = 2 ^ ((-1075 : ℤ) + 1) := by
            rw [zpow_add_one₀ two_ne_zero, mul_two]
        _ ≤ 2 ^ ((y.scale : ℤ) - 1075) := zpow_le_zpow_right₀ one_le_two (by omega)
        _ ≤ y.significand * 2 ^ ((y.scale : ℤ) - 1075) :=
            le_mul_of_one_le_left (zpow_pos two_pos _).le hsignificand
        _ = |y.value| := (abs_value y).symm
    have htriangle := abs_sub_abs_le_abs_sub y.value q
    rw [abs_sub_comm] at htriangle
    linarith
  refine ⟨hfinite, fun y _ => ?_, fun y _ hne htie => ?_⟩
  · rw [hvalue, sub_zero]
    by_cases hy : y.value = 0
    · rw [hy, sub_zero]
    · exact (hfar y hy).le
  · rw [hvalue] at hne htie
    rw [sub_zero] at htie
    exact absurd htie (hfar y hne).ne'

/-- A double is made of the units that a quotient was rounded to, as long as they fit. -/
lemma exists_rounded (negative : Bool) {num den : ℕ} (hnum : num ≠ 0) (hden : den ≠ 0) :
    ∃ e r, Rounded ((num : ℚ) / den) e r ∧ Binary64.nearest negative num den =
      Binary64.ofCode negative (min ((e + 1074).toNat * 2 ^ 52 + r) (2047 * 2 ^ 52)) := by
  obtain ⟨hleast, hhigh, hlow⟩ := exponentFor_spec hnum hden
  have heq : Binary64.nearest negative num den = Binary64.ofCode negative
      (min ((Binary64.exponentFor num den + 1074).toNat * 2 ^ 52 +
        Binary64.roundDiv (Binary64.rescale num den (Binary64.exponentFor num den)).1
          (Binary64.rescale num den (Binary64.exponentFor num den)).2) (2047 * 2 ^ 52)) := by
    unfold Binary64.nearest
    rw [if_neg hnum]
    rfl
  generalize Binary64.exponentFor num den = e at hleast hhigh hlow heq
  have hround := roundsTo_roundDiv (Binary64.rescale num den e).1
    (show 0 < (Binary64.rescale num den e).2 from
      Nat.mul_pos (Nat.pos_of_ne_zero hden) (Nat.two_pow_pos _))
  rw [rescale_eq] at hround
  have hunit : (0 : ℚ) < 2 ^ e := zpow_pos two_pos e
  refine ⟨e, _, ⟨hleast, hlow, hround, fun he => ?_, ?_⟩, heq⟩
  · have hle : ((2 ^ 52 : ℤ) : ℚ) ≤ (num : ℚ) / den / 2 ^ e := by
      rw [le_div_iff₀ hunit]
      have hfrom := hlow he
      rw [zpow_add₀ two_ne_zero, mul_comm] at hfrom
      exact_mod_cast hfrom
    exact_mod_cast hround.le_of_le hle
  · have hlt : (num : ℚ) / den / 2 ^ e < (2 ^ 53 : ℤ) := by
      rw [div_lt_iff₀ hunit]
      rw [zpow_add₀ two_ne_zero, mul_comm] at hhigh
      exact_mod_cast hhigh
    exact_mod_cast hround.le_of_lt hlt

/-- The double nearest to a quotient is so, or the quotient is so large that it is infinite. -/
lemma nearest_or_large (negative : Bool) (num : ℕ) {den : ℕ} (hden : den ≠ 0) :
    Nearest (signed negative ((num : ℚ) / den)) (Binary64.nearest negative num den) ∨
      (Binary64.nearest negative num den).isFinite = false ∧ 2 ^ 64 ≤ (num : ℚ) / den := by
  by_cases hnum : num = 0
  · subst hnum
    left
    rw [Nat.cast_zero, zero_div, signed_zero]
    exact nearest_zero negative (by rw [abs_zero]; exact zpow_pos two_pos _)
  obtain ⟨e, r, hrounded, heq⟩ := exists_rounded negative hnum hden
  have hexponent := hrounded.exponent
  have hcarried := hrounded.carried
  rw [heq]
  rcases Nat.lt_or_ge ((e + 1074).toNat * 2 ^ 52 + r) (2047 * 2 ^ 52) with hlt | hge
  · left
    obtain ⟨hfinite, hvalue, hparity⟩ := rounded_ofCode negative hcarried
      (fun he => hrounded.normal (by omega)) hlt
    rw [show (((e + 1074).toNat : ℕ) : ℤ) - 1074 = e by omega] at hvalue
    rw [Nat.min_eq_left hlt.le]
    exact hrounded.nearest hfinite hvalue hparity
  · right
    rw [Nat.min_eq_right hge]
    refine ⟨by cases negative <;> decide +kernel, ?_⟩
    calc (2 : ℚ) ^ 64 = 2 ^ (64 : ℤ) := by norm_cast
      _ ≤ 2 ^ (e + 52) := zpow_le_zpow_right₀ one_le_two (by omega)
      _ ≤ (num : ℚ) / den := hrounded.large (by omega)

/-! ## Decimal numbers -/

/-- The number of digits of a number that is not zero. -/
lemma digits_bounds {n : ℕ} (hn : n ≠ 0) :
    (10 : ℚ) ^ (((Nat.toDigits 10 n).length : ℤ) - 1) ≤ n ∧
      (n : ℚ) < 10 ^ ((Nat.toDigits 10 n).length : ℤ) := by
  have hlength := fun k => @Nat.length_toDigits_le_iff 10 n k (by decide)
  obtain ⟨k, hk⟩ := Nat.exists_eq_succ_of_ne_zero (Nat.length_toDigits_pos (b := 10) (n := n)).ne'
  rw [hk] at hlength ⊢
  have hlow : 10 ^ k ≤ n := by
    rcases Nat.eq_zero_or_pos k with rfl | hpos
    · exact Nat.pos_of_ne_zero hn
    · exact not_lt.mp (mt (hlength k hpos).mpr (Nat.not_succ_le_self k))
  have hhigh : n < 10 ^ (k + 1) := (hlength (k + 1) (Nat.succ_pos k)).mp le_rfl
  rw [Nat.cast_succ, add_sub_cancel_right]
  exact ⟨by exact_mod_cast hlow, by exact_mod_cast hhigh⟩

/-- Ten is more than three doublings. -/
lemma two_zpow_le_ten_zpow {a b : ℤ} (hb : 0 ≤ b) (h : a ≤ 3 * b) : (2 : ℚ) ^ a ≤ 10 ^ b := by
  calc (2 : ℚ) ^ a ≤ 2 ^ (3 * b) := zpow_le_zpow_right₀ one_le_two h
    _ = 8 ^ b := by
        rw [zpow_mul]
        norm_num
    _ ≤ 10 ^ b := zpow_le_zpow_left₀ hb (by norm_num) (by norm_num)

/-- The double read from a decimal number is nearest, or the number is so large that it is
infinite. -/
lemma ofDecimal_nearest_or_large (negative : Bool) (digits : ℕ) (exponent : ℤ) :
    Nearest (signed negative (digits * 10 ^ exponent))
        (Binary64.ofDecimal negative digits exponent) ∨
      (Binary64.ofDecimal negative digits exponent).isFinite = false ∧
        2 ^ 64 ≤ (digits : ℚ) * 10 ^ exponent := by
  unfold Binary64.ofDecimal
  dsimp only
  by_cases hzero : digits = 0
  · subst hzero
    left
    rw [if_pos (Or.inl rfl), Nat.cast_zero, zero_mul, signed_zero]
    exact nearest_zero negative (by rw [abs_zero]; exact zpow_pos two_pos _)
  obtain ⟨hlow, hhigh⟩ := digits_bounds hzero
  generalize ((Nat.toDigits 10 digits).length : ℤ) = length at hlow hhigh
  have hten : (0 : ℚ) < 10 ^ exponent := zpow_pos (by norm_num) _
  split
  · rename_i hsmall
    left
    refine nearest_zero negative ?_
    rw [abs_signed, abs_of_nonneg (by positivity)]
    calc (digits : ℚ) * 10 ^ exponent < 10 ^ length * 10 ^ exponent :=
          mul_lt_mul_of_pos_right hhigh hten
      _ = (10 ^ (-(length + exponent)))⁻¹ := by
          rw [← zpow_add₀ (by norm_num), zpow_neg, inv_inv]
      _ ≤ (2 ^ (1075 : ℤ))⁻¹ :=
          inv_anti₀ (zpow_pos two_pos _) (two_zpow_le_ten_zpow (by omega) (by omega))
      _ = 2 ^ (-1075 : ℤ) := (zpow_neg _ _).symm
  · split
    · right
      refine ⟨by cases negative <;> decide +kernel, ?_⟩
      calc (2 : ℚ) ^ 64 = 2 ^ (64 : ℤ) := by norm_cast
        _ ≤ 10 ^ (length + exponent - 1) := two_zpow_le_ten_zpow (by omega) (by omega)
        _ = 10 ^ (length - 1) * 10 ^ exponent := by
            rw [← zpow_add₀ (by norm_num)]
            congr 1
            ring
        _ ≤ digits * 10 ^ exponent := mul_le_mul_of_nonneg_right hlow hten.le
    · have hquotient : (digits : ℚ) * 10 ^ exponent =
          ((digits * 10 ^ exponent.toNat : ℕ) : ℚ) / (10 ^ (-exponent).toNat : ℕ) := by
        rw [zpow_eq_div 10 exponent]
        push_cast
        rw [mul_div_assoc]
      rw [hquotient]
      exact nearest_or_large negative _ (pow_ne_zero _ (by decide))

end IssueBridge.Proofs
