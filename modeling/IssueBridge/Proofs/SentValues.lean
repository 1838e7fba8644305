import IssueBridge.Proofs.DoubleValues
import IssueBridge.Proofs.SentFields

/-!
# Values as they are sent

A value is read back as it was sent: a whole double as an integer or as itself, any other finite
one as itself. Only the sign of a zero is lost. What is not a finite number is sent as nothing, and
stands for no integer either way.
-/

namespace IssueBridge

/-- Two doubles are equal as numbers: neither is NaN, and they are the same or stand for the same
number. -/
def Binary64.Same (x y : Binary64) : Prop :=
  x.isNaN = false ∧ (x = y ∨ x.isFinite = true ∧ y.isFinite = true ∧ x.value = y.value)

namespace Jira.CustomValue

/-- Two values are equal, numbers as numbers. -/
inductive Same : CustomValue → CustomValue → Prop
  | missing : Same .missing .missing
  | text (s : String) : Same (.text s) (.text s)
  | num {x y : Binary64} (h : x.Same y) : Same (.num x) (.num y)
  | list (items : List String) : Same (.list items) (.list items)

/-- A value that holds no infinity and no NaN. -/
def IsFinite (v : CustomValue) : Prop :=
  ∀ x, v = .num x → x.isFinite = true

end Jira.CustomValue

namespace Proofs

open Jira (CustomValue)

variable {x : Binary64} {v : CustomValue}

lemma isNaN_of_isFinite (h : x.isFinite = true) : x.isNaN = false := by
  unfold Binary64.isFinite at h
  unfold Binary64.isNaN
  rw [bne_iff_ne] at h
  rw [beq_false_of_ne h, Bool.false_and]

lemma same_refl (h : v.IsFinite) : v.Same v := by
  cases v with
  | missing => exact .missing
  | text s => exact .text s
  | num x => exact .num ⟨isNaN_of_isFinite (h x rfl), Or.inl rfl⟩
  | list items => exact .list items

lemma eq_zero_of_toInt? (h : x.toInt? = some 0) : x = .zero x.negative := by
  obtain ⟨-, hvalue⟩ := toInt?_eq_some_iff.mp h
  have hpow : (2 : ℚ) ^ ((x.scale : ℤ) - 1075) ≠ 0 := zpow_ne_zero _ two_ne_zero
  have hsignificand : x.significand = 0 := by
    unfold Binary64.value at hvalue
    rw [signed_eq_iff, Int.cast_zero, signed_zero, mul_eq_zero_iff_right hpow] at hvalue
    exact_mod_cast hvalue
  unfold Binary64.significand at hsignificand
  split at hsignificand
  · rename_i hexponent
    have hfields := ofCode_fields x
    rw [hexponent, hsignificand] at hfields
    exact hfields.symm
  · rw [Nat.pow_eq] at hsignificand
    omega

/-- A finite number is read back as it was sent, but for the sign of a zero. -/
lemma ofJson_toJson_num (h : x.isFinite = true) :
    CustomValue.ofJson (CustomValue.num x).toJson =
      .num (if x = .zero true then .zero false else x) := by
  change CustomValue.ofJson (CustomValue.numToJson x) = _
  unfold CustomValue.numToJson
  cases hwhole : x.toInt? with
  | none =>
    have hx : x ≠ .zero true := by
      rintro rfl
      revert hwhole
      decide +kernel
    dsimp only
    rw [if_pos h, if_neg hx]
    rfl
  | some n =>
    dsimp only
    by_cases hn : n = 0
    · subst hn
      have hzero := eq_zero_of_toInt? hwhole
      cases hsign : x.negative with
      | false =>
        rw [hsign] at hzero
        rw [hzero]
        decide +kernel
      | true =>
        rw [hsign] at hzero
        rw [hzero, if_pos rfl]
        decide +kernel
    · have hx : x ≠ .zero true := by
        rintro rfl
        have hzero : (Binary64.zero true).toInt? = some 0 := by decide +kernel
        rw [hzero] at hwhole
        exact hn (Option.some.inj hwhole).symm
      rw [if_neg hx]
      split
      · exact congrArg CustomValue.num (ofInt_toInt? hwhole hn)
      · rfl

/-- A value that is not finite is sent as nothing. -/
lemma toJson_num_eq_null (h : x.isFinite = false) : (CustomValue.num x).toJson = .null := by
  have hwhole : x.toInt? = none := by
    rw [Option.eq_none_iff_forall_ne_some]
    intro n hn
    rw [(toInt?_eq_some_iff.mp hn).1] at h
    cases h
  change CustomValue.numToJson x = _
  unfold CustomValue.numToJson
  rw [hwhole]
  simp only [h, Bool.false_eq_true, if_false]

lemma ofJson_toJson (h : v.IsFinite) :
    CustomValue.ofJson v.toJson = v ∨
      v = .num (.zero true) ∧ CustomValue.ofJson v.toJson = .num (.zero false) := by
  cases v with
  | missing => exact Or.inl rfl
  | text s => exact Or.inl rfl
  | list items => exact Or.inl (faithful_list items).1
  | num x =>
    rw [ofJson_toJson_num (h x rfl)]
    split
    · rename_i hx
      exact Or.inr ⟨by rw [hx], rfl⟩
    · exact Or.inl rfl

lemma same_zero : (CustomValue.num (.zero false)).Same (.num (.zero true)) := by
  have hvalue : ∀ sign, (Binary64.zero sign).isFinite = true ∧ (Binary64.zero sign).value = 0 := by
    intro sign
    have hwhole : (Binary64.zero sign).toInt? = some 0 := by
      cases sign <;> decide +kernel
    exact_mod_cast toInt?_eq_some_iff.mp hwhole
  refine .num ⟨rfl, Or.inr ⟨(hvalue false).1, (hvalue true).1, ?_⟩⟩
  rw [(hvalue false).2, (hvalue true).2]

lemma int64?_ofJson_toJson (v : CustomValue) :
    (CustomValue.ofJson v.toJson).int64? = v.int64? := by
  by_cases hfinite : v.IsFinite
  · rcases ofJson_toJson hfinite with hsame | ⟨rfl, hzero⟩
    · rw [hsame]
    · rw [hzero]
      decide +kernel
  · unfold CustomValue.IsFinite at hfinite
    simp only [Classical.not_forall, Bool.not_eq_true] at hfinite
    obtain ⟨x, rfl, hx⟩ := hfinite
    rw [toJson_num_eq_null hx]
    change none = CustomValue.wholeOf? x
    cases hwhole : CustomValue.wholeOf? x with
    | none => rfl
    | some n =>
      rw [(toInt?_eq_some_iff.mp (wholeOf?_eq_some_iff.mp hwhole)).1] at hx
      cases hx

/-- A value without infinities and NaN is equal to itself after it was sent, and is the same but
for the sign of a zero. Every value stands for the same integer as before. A finite number stands
for the one that it is, if that fits in 64 bits. -/
theorem values_survive (v : CustomValue) :
    (v.IsFinite → (CustomValue.ofJson v.toJson).Same v ∧
      (v ≠ .num (.zero true) → CustomValue.ofJson v.toJson = v)) ∧
    (CustomValue.ofJson v.toJson).int64? = v.int64? ∧
    ∀ (x : Binary64) (n : ℤ), x.isFinite = true →
      ((CustomValue.num x).int64?.map Int64.toInt = some n ↔
        x.value = n ∧ -2 ^ 63 ≤ n ∧ n < 2 ^ 63) := by
  refine ⟨fun hfinite => ?_, int64?_ofJson_toJson v, fun x n hx => wholeOf?_map_eq_some_iff hx⟩
  rcases ofJson_toJson hfinite with hsame | ⟨rfl, hzero⟩
  · rw [hsame]
    exact ⟨same_refl hfinite, fun _ => rfl⟩
  · rw [hzero]
    exact ⟨same_zero, fun hne => absurd rfl hne⟩

/-- The double of `2 ^ 63`, the first one that is not sent as an integer. -/
def twoPow63 : Binary64 :=
  ⟨0x43E0000000000000⟩

theorem values_survive_large :
    CustomValue.IsFinite (.num twoPow63) ∧ twoPow63.toInt? = some (2 ^ 63) ∧
      CustomValue.ofJson (CustomValue.num twoPow63).toJson = .num twoPow63 ∧
      ((CustomValue.num twoPow63).int64?.map Int64.toInt = some (2 ^ 63) ↔
        twoPow63.value = (2 ^ 63 : ℤ) ∧ -2 ^ 63 ≤ (2 ^ 63 : ℤ) ∧ (2 ^ 63 : ℤ) < 2 ^ 63) := by
  have hfinite : CustomValue.IsFinite (.num twoPow63) := by
    rintro x hx
    cases hx
    rfl
  obtain ⟨hsent, -, hnumbers⟩ := values_survive (.num twoPow63)
  exact ⟨hfinite, by decide +kernel, (hsent hfinite).2 (by decide +kernel), hnumbers _ _ rfl⟩

end Proofs

end IssueBridge
