import IssueBridge.Jira.CustomValue
import Mathlib.Tactic.ByContra
import Mathlib.Tactic.Lemma
import Mathlib.Tactic.Ring

/-!
# Whole numbers as doubles

A double holds a whole number exactly if the number has 53 significant bits at most, as all numbers
of magnitude up to `2 ^ 53` have. So a numeric field stands for such a number after it was written,
and for another one or for none after any other number was. Writing the whole number that a double
holds gives the double back.
-/

namespace IssueBridge.Proofs

variable {x : Binary64} {e f n : Nat} {m : Int}

/-! ## Fields -/

lemma toNat_bits_ofCode (negative : Bool) (code : Nat) (h : code < 2 ^ 63) :
    (Binary64.ofCode negative code).bits.toNat = (if negative then 2 ^ 63 else 0) + code := by
  unfold Binary64.ofCode
  rw [UInt64.toNat_ofNat']
  cases negative <;> simp <;> omega

lemma fields_ofCode (negative : Bool) (e f : Nat) (he : e < 2 ^ 11) (hf : f < 2 ^ 52) :
    (Binary64.ofCode negative (e * 2 ^ 52 + f)).exponentField = e ∧
      (Binary64.ofCode negative (e * 2 ^ 52 + f)).fractionField = f ∧
      (Binary64.ofCode negative (e * 2 ^ 52 + f)).negative = negative := by
  have hbits := toNat_bits_ofCode negative (e * 2 ^ 52 + f) (by omega)
  unfold Binary64.exponentField Binary64.fractionField Binary64.negative
  rw [hbits]
  simp only [Nat.pow_eq]
  cases negative
  · simp only [Bool.false_eq_true, ite_false, decide_eq_false_iff_not]
    omega
  · simp only [ite_true, decide_eq_true_eq]
    omega

/-- A pattern is made of its sign and its two fields. -/
lemma ofCode_fields (x : Binary64) :
    Binary64.ofCode x.negative (x.exponentField * 2 ^ 52 + x.fractionField) = x := by
  have hbound := UInt64.toNat_lt x.bits
  have hcode : x.exponentField * 2 ^ 52 + x.fractionField < 2 ^ 63 := by
    unfold Binary64.exponentField Binary64.fractionField
    simp only [Nat.pow_eq]
    omega
  have hbits : (Binary64.ofCode x.negative
      (x.exponentField * 2 ^ 52 + x.fractionField)).bits = x.bits := by
    rw [← UInt64.toNat_inj, toNat_bits_ofCode _ _ hcode]
    unfold Binary64.exponentField Binary64.fractionField Binary64.negative
    simp only [Nat.pow_eq, decide_eq_true_eq]
    split <;> omega
  cases x
  exact congrArg Binary64.mk hbits

lemma ratio_normal (h : 0 < x.exponentField) :
    x.ratio = ((2 ^ 52 + x.fractionField) * 2 ^ (x.exponentField - 1075),
      2 ^ (1075 - x.exponentField)) := by
  unfold Binary64.ratio Binary64.significand Binary64.scale
  rw [if_neg (by omega), Nat.max_eq_left h]
  rfl

/-- A number below the normal ones is whole only if it is zero. -/
lemma toInt?_subnormal (h : x.exponentField = 0) (hm : x.toInt? = some m) : m = 0 := by
  have hf : x.fractionField < 2 ^ 52 := Nat.mod_lt _ (by decide)
  have hscale : x.scale = 1 := by
    unfold Binary64.scale
    rw [h]
    rfl
  have hlt : x.fractionField < 2 ^ (1075 - x.scale) :=
    Nat.lt_of_lt_of_le hf (Nat.pow_le_pow_right Nat.two_pos (by omega))
  have hratio : x.ratio = (x.fractionField, 2 ^ (1075 - x.scale)) := by
    unfold Binary64.ratio Binary64.significand
    rw [if_pos h, show x.scale - 1075 = 0 by omega]
    exact Prod.ext (Nat.mul_one _) rfl
  unfold Binary64.toInt? at hm
  rw [hratio] at hm
  dsimp only at hm
  rw [Nat.div_eq_of_lt hlt] at hm
  split at hm
  · simpa using hm.symm
  · cases hm

/-! ## Whole values -/

/-- The normal doubles of some fields have a whole magnitude. Their exponent scales the significand
either up or down, so one of the two powers is one. -/
structure Whole (e f n : Nat) : Prop where
  normal : 0 < e
  finite : e < 2047
  fraction : f < 2 ^ 52
  value : (2 ^ 52 + f) * 2 ^ (e - 1075) = n * 2 ^ (1075 - e)

lemma ne_zero_of_whole (h : Whole e f n) : n ≠ 0 := by
  rintro rfl
  have hvalue := h.value
  rw [Nat.zero_mul] at hvalue
  exact Nat.mul_ne_zero (by omega) (Nat.two_pow_pos _).ne' hvalue

lemma log2_of_whole (h : Whole e f n) : n.log2 + 1023 = e := by
  have hne := ne_zero_of_whole h
  obtain ⟨-, -, hf, hvalue⟩ := h
  rcases Nat.le_total 1075 e with he | he
  · rw [show 1075 - e = 0 by omega, pow_zero, mul_one] at hvalue
    have hlog : n.log2 = 52 + (e - 1075) := by
      refine (Nat.log2_eq_iff hne).mpr ⟨?_, ?_⟩
      · rw [pow_add, ← hvalue]
        exact Nat.mul_le_mul_right _ (Nat.le_add_right _ _)
      · rw [show 52 + (e - 1075) + 1 = 53 + (e - 1075) by omega, pow_add, ← hvalue]
        exact Nat.mul_lt_mul_of_pos_right (by omega) (Nat.two_pow_pos _)
    omega
  · rw [show e - 1075 = 0 by omega, pow_zero, mul_one] at hvalue
    have hshift : 1075 - e ≤ 52 := by
      by_contra hc
      have hlarge := Nat.pow_le_pow_right (n := 2) (by omega) (show 53 ≤ 1075 - e by omega)
      have hmul := Nat.mul_le_mul (Nat.one_le_iff_ne_zero.mpr hne) hlarge
      omega
    have hlow : 2 ^ (52 - (1075 - e)) * 2 ^ (1075 - e) = 2 ^ 52 := by
      rw [← pow_add, Nat.sub_add_cancel hshift]
    have hhigh : 2 ^ (52 - (1075 - e) + 1) * 2 ^ (1075 - e) = 2 ^ 53 := by
      rw [pow_succ, mul_right_comm, hlow, ← pow_succ]
    have hlog : n.log2 = 52 - (1075 - e) := by
      refine (Nat.log2_eq_iff hne).mpr ⟨?_, ?_⟩
      · refine Nat.le_of_mul_le_mul_right ?_ (Nat.two_pow_pos (1075 - e))
        rw [hlow, ← hvalue]
        exact Nat.le_add_right _ _
      · refine Nat.lt_of_mul_lt_mul_right (a := 2 ^ (1075 - e)) ?_
        rw [hhigh, ← hvalue]
        omega
    omega

lemma toInt?_ofCode (negative : Bool) (h : Whole e f n) :
    (Binary64.ofCode negative (e * 2 ^ 52 + f)).toInt? =
      some (if negative then -(n : Int) else n) := by
  obtain ⟨hnormal, hfinite, hf, hvalue⟩ := h
  obtain ⟨hexp, hfrac, hsign⟩ := fields_ofCode negative e f (by omega) hf
  have hratio := ratio_normal (x := Binary64.ofCode negative (e * 2 ^ 52 + f)) (by omega)
  rw [hexp, hfrac, hvalue] at hratio
  have hwhole : (Binary64.ofCode negative (e * 2 ^ 52 + f)).isFinite = true := by
    unfold Binary64.isFinite
    rw [hexp, bne_iff_ne]
    exact hfinite.ne
  unfold Binary64.toInt?
  rw [hratio, hsign]
  simp only [hwhole, Nat.mul_mod_left, and_self, ite_true]
  rw [Nat.mul_div_cancel _ (Nat.two_pow_pos _)]

/-- A whole value other than zero is that of a normal double. -/
lemma whole_of_toInt? (h : x.toInt? = some m) (hm : m ≠ 0) :
    Whole x.exponentField x.fractionField m.natAbs ∧ x.negative = decide (m < 0) := by
  have hfield : x.exponentField < 2 ^ 11 := Nat.mod_lt _ (by decide)
  have hnormal : 0 < x.exponentField :=
    Nat.pos_of_ne_zero fun hzero => hm (toInt?_subnormal hzero h)
  unfold Binary64.toInt? at h
  rw [ratio_normal hnormal] at h
  dsimp only at h
  split at h
  · rename_i hwhole
    obtain ⟨hfinite, hmod⟩ := hwhole
    unfold Binary64.isFinite at hfinite
    rw [bne_iff_ne] at hfinite
    have hvalue := Nat.div_mul_cancel (Nat.dvd_of_mod_eq_zero hmod)
    generalize (2 ^ 52 + x.fractionField) * 2 ^ (x.exponentField - 1075) /
      2 ^ (1075 - x.exponentField) = q at h hvalue
    rw [Option.some.injEq] at h
    cases hsign : x.negative with
    | false =>
      rw [hsign, if_neg Bool.false_ne_true] at h
      subst h
      exact ⟨⟨hnormal, by omega, Nat.mod_lt _ (by decide), hvalue.symm⟩, by simp⟩
    | true =>
      rw [hsign, if_pos rfl] at h
      subst h
      refine ⟨⟨hnormal, by omega, Nat.mod_lt _ (by decide), ?_⟩, ?_⟩
      · rw [Int.natAbs_neg, Int.natAbs_natCast]
        exact hvalue.symm
      · rw [eq_comm, decide_eq_true_eq]
        omega
  · cases h

/-! ## Rounding -/

lemma exponentFor_one (n : Nat) (hn : n ≠ 0) :
    Binary64.exponentFor n 1 = max ((n.log2 : Int) - 52) (-1074) := by
  have hlog : ¬n < 2 ^ n.log2 := Nat.not_lt.mpr (Nat.log2_self_le hn)
  have hzero : Nat.log2 1 = 0 := by decide
  unfold Binary64.exponentFor Binary64.rescale
  simp only [Nat.pow_eq]
  rw [hzero]
  simp only [Nat.cast_zero, sub_zero, Int.toNat_natCast, one_mul]
  have hneg : (-(n.log2 : Int)).toNat = 0 := by omega
  rw [hneg, pow_zero, mul_one, if_neg hlog]

/-- The double nearest to a number, by the exponent of the number. -/
lemma nearest_eq (negative : Bool) (hn : n ≠ 0) (e : Nat) (he : n.log2 + 1023 = e) :
    Binary64.nearest negative n 1 = Binary64.ofCode negative
      (min ((e - 1) * 2 ^ 52 + Binary64.roundDiv (n * 2 ^ (1075 - e)) (2 ^ (e - 1075)))
        Binary64.infinityCode) := by
  have hexp : Binary64.exponentFor n 1 = (e : Int) - 1075 := by
    rw [exponentFor_one n hn]
    omega
  have hrescale : Binary64.rescale n 1 ((e : Int) - 1075) =
      (n * 2 ^ (1075 - e), 2 ^ (e - 1075)) := by
    unfold Binary64.rescale
    rw [show (-((e : Int) - 1075)).toNat = 1075 - e by omega,
      show ((e : Int) - 1075).toNat = e - 1075 by omega, Nat.one_mul]
    rfl
  unfold Binary64.nearest
  rw [if_neg hn, hexp]
  dsimp only
  rw [hrescale, show ((e : Int) - 1075 + 1074).toNat = e - 1 by omega]
  rfl

lemma roundDiv_mul (s d : Nat) (hd : 0 < d) : Binary64.roundDiv (s * d) d = s := by
  unfold Binary64.roundDiv
  simp only [Nat.mul_mod_left, Nat.mul_div_cancel _ hd, mul_zero, hd, true_or, if_true]

lemma roundDiv_cases (num den : Nat) :
    Binary64.roundDiv num den = num / den ∨ Binary64.roundDiv num den = num / den + 1 := by
  unfold Binary64.roundDiv
  dsimp only
  split
  · exact Or.inl rfl
  · exact Or.inr rfl

lemma nearest_whole (negative : Bool) (h : Whole e f n) :
    Binary64.nearest negative n 1 = Binary64.ofCode negative (e * 2 ^ 52 + f) := by
  rw [nearest_eq negative (ne_zero_of_whole h) e (log2_of_whole h), ← h.value,
    roundDiv_mul _ _ (Nat.two_pow_pos _)]
  congr 1
  have hnormal := h.normal
  have hfinite := h.finite
  have hf := h.fraction
  unfold Binary64.infinityCode
  rw [Nat.pow_eq]
  omega

/-- Writing the whole number that a double holds gives the double back; only a negative zero comes
back without its sign. -/
theorem ofInt_toInt? (h : x.toInt? = some m) (hm : m ≠ 0) : Binary64.ofInt m = x := by
  obtain ⟨hwhole, hsign⟩ := whole_of_toInt? h hm
  unfold Binary64.ofInt
  rw [nearest_whole _ hwhole, ← hsign]
  exact ofCode_fields x

/-- A number with 53 significant bits at most. -/
def Representable (m : Int) : Prop :=
  ∃ s k : Nat, s < 2 ^ 53 ∧ m.natAbs = s * 2 ^ k

lemma representable_of_natAbs_le (h : m.natAbs ≤ 2 ^ 53) : Representable m := by
  rcases Nat.lt_or_ge m.natAbs (2 ^ 53) with hlt | hge
  · exact ⟨m.natAbs, 0, hlt, (Nat.mul_one _).symm⟩
  · exact ⟨1, 53, by decide, by omega⟩

/-- What a double holds is representable. -/
lemma representable_of_toInt? (h : x.toInt? = some m) : Representable m := by
  by_cases hm : m = 0
  · exact ⟨0, 0, by decide, by rw [hm]; rfl⟩
  · obtain ⟨⟨-, -, hf, hvalue⟩, -⟩ := whole_of_toInt? h hm
    rcases Nat.le_total 1075 x.exponentField with he | he
    · rw [show 1075 - x.exponentField = 0 by omega, pow_zero, mul_one] at hvalue
      exact ⟨_, _, by omega, hvalue.symm⟩
    · rw [show x.exponentField - 1075 = 0 by omega, pow_zero, mul_one] at hvalue
      have hle := Nat.le_mul_of_pos_right m.natAbs (Nat.two_pow_pos (1075 - x.exponentField))
      exact ⟨m.natAbs, 0, by omega, (Nat.mul_one _).symm⟩

/-- The fields of a double that holds a representable number. -/
lemma exists_whole (hn : n ≠ 0) (hlt : n < 2 ^ 64)
    (hrep : ∃ s k : Nat, s < 2 ^ 53 ∧ n = s * 2 ^ k) : ∃ e f, Whole e f n := by
  obtain ⟨s, k, hs, hvalue⟩ := hrep
  have hlow := Nat.log2_self_le hn
  have hhigh : n < 2 ^ (n.log2 + 1) := Nat.lt_log2_self
  have hlog : n.log2 < 64 := (Nat.log2_lt hn).mpr hlt
  rcases Nat.le_total n.log2 52 with hle | hge
  · have hunit : 2 ^ n.log2 * 2 ^ (52 - n.log2) = 2 ^ 52 := by
      rw [← pow_add, Nat.add_sub_cancel' hle]
    have hfrom : 2 ^ 52 ≤ n * 2 ^ (52 - n.log2) := by
      rw [← hunit]
      exact Nat.mul_le_mul_right _ hlow
    have hto : n * 2 ^ (52 - n.log2) < 2 ^ 53 := by
      have hmul := Nat.mul_lt_mul_of_pos_right hhigh (Nat.two_pow_pos (52 - n.log2))
      rwa [pow_succ, mul_right_comm, hunit] at hmul
    refine ⟨n.log2 + 1023, n * 2 ^ (52 - n.log2) - 2 ^ 52, by omega, by omega, by omega, ?_⟩
    rw [show n.log2 + 1023 - 1075 = 0 by omega, show 1075 - (n.log2 + 1023) = 52 - n.log2 by omega,
      pow_zero, mul_one]
    omega
  · -- The trailing zeros of the number reach down to the last bit of the significand.
    have hzeros : n.log2 - 52 ≤ k := by
      by_contra hc
      have hpow := Nat.pow_le_pow_right (n := 2) (by omega) (show 53 + k ≤ n.log2 by omega)
      rw [pow_add] at hpow
      have hmul := Nat.mul_lt_mul_of_pos_right hs (Nat.two_pow_pos k)
      omega
    obtain ⟨q, hq⟩ : 2 ^ (n.log2 - 52) ∣ n := by
      have hdvd := Dvd.dvd.mul_left (Nat.pow_dvd_pow 2 hzeros) s
      rwa [← hvalue] at hdvd
    have hunit : 2 ^ 52 * 2 ^ (n.log2 - 52) = 2 ^ n.log2 := by
      rw [← pow_add, Nat.add_sub_cancel' hge]
    have hfrom : 2 ^ 52 ≤ q := by
      refine Nat.le_of_mul_le_mul_right ?_ (Nat.two_pow_pos (n.log2 - 52))
      rw [hunit, mul_comm q, ← hq]
      exact hlow
    have hto : q < 2 ^ 53 := by
      refine Nat.lt_of_mul_lt_mul_right (a := 2 ^ (n.log2 - 52)) ?_
      rw [mul_comm q, ← hq, pow_succ 2 52, mul_right_comm, hunit, ← pow_succ]
      exact hhigh
    refine ⟨n.log2 + 1023, q - 2 ^ 52, by omega, by omega, by omega, ?_⟩
    rw [show n.log2 + 1023 - 1075 = n.log2 - 52 by omega,
      show 1075 - (n.log2 + 1023) = 0 by omega, pow_zero, mul_one, Nat.add_sub_cancel' hfrom,
      mul_comm]
    exact hq.symm

/-- A double holds a number of up to 64 bits exactly if the number is representable. -/
theorem toInt?_ofInt_iff (h : m.natAbs < 2 ^ 64) :
    (Binary64.ofInt m).toInt? = some m ↔ Representable m := by
  refine ⟨representable_of_toInt?, fun hrep => ?_⟩
  by_cases hm : m = 0
  · subst hm
    decide +kernel
  · obtain ⟨e, f, hwhole⟩ := exists_whole (Int.natAbs_ne_zero.mpr hm) h hrep
    unfold Binary64.ofInt
    rw [nearest_whole _ hwhole, toInt?_ofCode _ hwhole]
    by_cases hneg : m < 0
    · simp only [hneg, decide_true, ite_true]
      congr 1
      omega
    · simp only [hneg, decide_false, Bool.false_eq_true, ite_false]
      congr 1
      omega

/-- A number that is too long is rounded to a whole one. -/
lemma nearest_rounded (negative : Bool) (hlarge : 2 ^ 53 ≤ n) (hlt : n < 2 ^ 64) :
    ∃ e f n', Whole e f n' ∧
      Binary64.nearest negative n 1 = Binary64.ofCode negative (e * 2 ^ 52 + f) := by
  have hn : n ≠ 0 := by omega
  have hlow := Nat.log2_self_le hn
  have hhigh : n < 2 ^ (n.log2 + 1) := Nat.lt_log2_self
  have hshort : n.log2 < 64 := (Nat.log2_lt hn).mpr hlt
  have hlong : 53 ≤ n.log2 := (Nat.le_log2 hn).mpr hlarge
  obtain ⟨q, hq⟩ : ∃ q, n.log2 = 52 + q := ⟨n.log2 - 52, by omega⟩
  rw [hq, pow_add] at hlow
  rw [hq, show 52 + q + 1 = 53 + q by omega, pow_add] at hhigh
  have hfrom : 2 ^ 52 ≤ n / 2 ^ q := (Nat.le_div_iff_mul_le (Nat.two_pow_pos q)).mpr hlow
  have hto : n / 2 ^ q < 2 ^ 53 := (Nat.div_lt_iff_lt_mul (Nat.two_pow_pos q)).mpr hhigh
  have hnearest := nearest_eq negative hn (q + 1075) (by omega)
  rw [show 1075 - (q + 1075) = 0 by omega, pow_zero, mul_one, Nat.add_sub_cancel] at hnearest
  have hround := roundDiv_cases n (2 ^ q)
  generalize Binary64.roundDiv n (2 ^ q) = s at hnearest hround
  have hcode : min ((q + 1075 - 1) * 2 ^ 52 + s) Binary64.infinityCode =
      (q + 1074) * 2 ^ 52 + s := by
    unfold Binary64.infinityCode
    rw [Nat.pow_eq]
    omega
  rw [hnearest, hcode]
  -- Rounding up may carry into the exponent.
  by_cases hcarry : s = 2 ^ 53
  · refine ⟨q + 1076, 0, 2 ^ 52 * 2 ^ (q + 1), ⟨by omega, by omega, by omega, ?_⟩, ?_⟩
    · rw [show q + 1076 - 1075 = q + 1 by omega, show 1075 - (q + 1076) = 0 by omega, pow_zero,
        mul_one, Nat.add_zero]
    · rw [show (q + 1074) * 2 ^ 52 + s = (q + 1076) * 2 ^ 52 + 0 by omega]
  · refine ⟨q + 1075, s - 2 ^ 52, s * 2 ^ q, ⟨by omega, by omega, by omega, ?_⟩, ?_⟩
    · rw [Nat.add_sub_cancel, show 1075 - (q + 1075) = 0 by omega, pow_zero, mul_one,
        Nat.add_sub_cancel' (by omega)]
    · rw [show (q + 1074) * 2 ^ 52 + s = (q + 1075) * 2 ^ 52 + (s - 2 ^ 52) by omega]

/-- The double nearest to a number of up to 64 bits is whole, and only zero is rounded to zero. -/
lemma exists_toInt?_ofInt (h : m.natAbs < 2 ^ 64) :
    ∃ m', (Binary64.ofInt m).toInt? = some m' ∧ (m' = 0 → m = 0) := by
  rcases Nat.lt_or_ge m.natAbs (2 ^ 53) with hsmall | hlarge
  · exact ⟨m, (toInt?_ofInt_iff h).mpr (representable_of_natAbs_le hsmall.le), id⟩
  · obtain ⟨e, f, n, hwhole, hnearest⟩ := nearest_rounded (decide (m < 0)) hlarge h
    have hvalue := toInt?_ofCode (decide (m < 0)) hwhole
    rw [← hnearest] at hvalue
    refine ⟨_, hvalue, fun hzero => ?_⟩
    have hne := ne_zero_of_whole hwhole
    split at hzero <;> omega

/-- A whole number of at most 53 bits is a double, and so is `2 ^ 53`. -/
theorem toInt?_ofInt_of_natAbs_le (n : Int) (h : n.natAbs ≤ 2 ^ 53) :
    (Binary64.ofInt n).toInt? = some n :=
  (toInt?_ofInt_iff (by omega)).mpr (representable_of_natAbs_le h)

lemma natAbs_toInt_lt (n : Int64) : n.toInt.natAbs < 2 ^ 64 := by
  have hlow := n.minValue_le_toInt
  have hhigh := n.toInt_le
  rw [Int64.toInt_minValue] at hlow
  rw [Int64.toInt_maxValue] at hhigh
  omega

/-- The integers of 64 bits are read from the doubles that hold them. -/
lemma wholeOf?_eq_some_iff {n : Int64} :
    Jira.CustomValue.wholeOf? x = some n ↔ x.toInt? = some n.toInt := by
  unfold Jira.CustomValue.wholeOf?
  cases x.toInt? with
  | none => simp
  | some m =>
    dsimp only
    rw [Option.some.injEq]
    split
    · rename_i hrange
      rw [Int64.toInt_minValue, Int64.toInt_maxValue] at hrange
      have hm : (Int64.ofInt m).toInt = m := Int64.toInt_ofInt_of_le (by omega) (by omega)
      rw [Option.some.injEq, ← Int64.toInt_inj, hm]
    · rename_i hrange
      refine ⟨fun h => (by cases h), ?_⟩
      rintro rfl
      exact absurd ⟨n.minValue_le_toInt, n.toInt_le⟩ hrange

/-- A numeric field stands for the integer that was written to it. -/
theorem int64?_ofInt64 (n : Int64) (h : n.toInt.natAbs ≤ 2 ^ 53) :
    (Jira.CustomValue.ofInt64 n).int64? = some n :=
  wholeOf?_eq_some_iff.mpr (toInt?_ofInt_of_natAbs_le n.toInt h)

end IssueBridge.Proofs
