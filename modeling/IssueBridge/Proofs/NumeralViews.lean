import IssueBridge.Proofs.InstantRoundTrip
import IssueBridge.Proofs.NearestDoubles
import IssueBridge.Proofs.HeaderRoundTrip
import Mathlib.Data.List.TakeWhile

/-!
# Integers in numeric texts

A text in decimal stands for its number if that is written without a point and fits in 64 bits, or
if a double holds it. Any other one stands for the integer that the nearest double holds, so a
number with many places, or one just below the least of 64 bits, may stand for another than its own.
-/

namespace IssueBridge

/-- A decimal numeral: digits, with a sign in front or none, and a point before, among or after
them or none. -/
structure WrittenNumber where
  /-- Whether the sign is a minus, if there is one. -/
  sign : Option Bool
  whole : List Char
  /-- What follows the point, if there is one. -/
  fraction : Option (List Char)
  digits : (whole ++ fraction.getD []).all Char.isDigit = true
  nonempty : whole ++ fraction.getD [] ≠ []

namespace WrittenNumber

def mark (w : WrittenNumber) : List Char :=
  match w.sign with
  | none => []
  | some true => ['-']
  | some false => ['+']

def point (w : WrittenNumber) : List Char :=
  match w.fraction with
  | none => []
  | some places => '.' :: places

def body (w : WrittenNumber) : List Char :=
  w.whole ++ w.point

def text (w : WrittenNumber) : List Char :=
  w.mark ++ w.body

def places (w : WrittenNumber) : List Char :=
  w.fraction.getD []

def negative (w : WrittenNumber) : Bool :=
  w.sign == some true

/-- A field that holds the numeral between other characters. -/
def between (w : WrittenNumber) (before after : List Char) : Jira.CustomValue :=
  .text (String.ofList (before ++ (w.text ++ after)))

/-- The number that is written. -/
def value (w : WrittenNumber) : ℚ :=
  signed w.negative (Nat.ofDigitChars 10 w.whole 0 +
    Nat.ofDigitChars 10 w.places 0 / 10 ^ w.places.length)

/-- The numeral is an integer of 64 bits without a point. -/
def IsShort (w : WrittenNumber) : Prop :=
  w.fraction = none ∧ -2 ^ 63 ≤ w.value ∧ w.value < 2 ^ 63

end WrittenNumber

namespace Proofs

open Jira (CustomValue)

variable {w : WrittenNumber} {before after s : List Char} {q : ℚ} {x : Binary64} {i : ℤ}

/-! ## Reading the text -/

lemma trim_surrounded (hbefore : ∀ c ∈ before, Text.isBlank c = true)
    (hafter : ∀ c ∈ after, Text.isBlank c = true) (hs : ∀ c ∈ s, Text.isBlank c = false)
    (hne : s ≠ []) : Text.trim (before ++ (s ++ after)) = s := by
  have hkeep : ∀ t : List Char, t ≠ [] → (∀ c ∈ t, Text.isBlank c = false) → ∀ rest,
      (t ++ rest).dropWhile Text.isBlank = t ++ rest := by
    intro t ht hplain rest
    obtain ⟨c, t, rfl⟩ := List.exists_cons_of_ne_nil ht
    have hc := hplain c List.mem_cons_self
    rw [List.cons_append, List.dropWhile_cons_of_neg (by rw [hc]; decide)]
  unfold Text.trim Text.trimLeft
  rw [List.dropWhile_append_of_pos hbefore, hkeep s hne hs, List.reverse_append,
    List.dropWhile_append_of_pos fun c hc => hafter c (List.mem_reverse.mp hc)]
  have hback := hkeep s.reverse (mt List.reverse_eq_nil_iff.mp hne)
    (fun c hc => hs c (List.mem_reverse.mp hc)) []
  rw [List.append_nil] at hback
  rw [hback, List.reverse_reverse]

lemma isDigit_of_mem_whole {c : Char} (hc : c ∈ w.whole) : c.isDigit = true :=
  List.all_eq_true.mp w.digits c (List.mem_append_left _ hc)

lemma isDigit_of_mem_places {c : Char} (hc : c ∈ w.places) : c.isDigit = true :=
  List.all_eq_true.mp w.digits c (List.mem_append_right _ hc)

lemma point_of_none (h : w.fraction = none) : w.point = [] ∧ w.places = [] := by
  unfold WrittenNumber.point WrittenNumber.places
  rw [h]
  exact ⟨rfl, rfl⟩

lemma point_of_some {places : List Char} (h : w.fraction = some places) :
    w.point = '.' :: w.places := by
  unfold WrittenNumber.point WrittenNumber.places
  rw [h]
  rfl

lemma mem_body {c : Char} (hc : c ∈ w.body) : c.isDigit = true ∨ c = '.' := by
  rcases List.mem_append.mp hc with hc | hc
  · exact Or.inl (isDigit_of_mem_whole hc)
  · cases hfraction : w.fraction with
    | none =>
      rw [(point_of_none hfraction).1] at hc
      cases hc
    | some places =>
      rw [point_of_some hfraction] at hc
      rcases List.mem_cons.mp hc with rfl | hc
      · exact Or.inr rfl
      · exact Or.inl (isDigit_of_mem_places hc)

lemma body_ne_nil (w : WrittenNumber) : w.body ≠ [] := by
  unfold WrittenNumber.body
  cases hfraction : w.fraction with
  | none =>
    have hne := w.nonempty
    rw [hfraction] at hne
    rw [(point_of_none hfraction).1]
    exact hne
  | some places =>
    rw [point_of_some hfraction]
    exact List.append_ne_nil_of_right_ne_nil _ (List.cons_ne_nil _ _)

lemma not_isBlank_text {c : Char} (hc : c ∈ w.text) : Text.isBlank c = false := by
  rcases List.mem_append.mp hc with hc | hc
  · unfold WrittenNumber.mark at hc
    split at hc
    · cases hc
    · rw [List.mem_singleton.mp hc]
      decide
    · rw [List.mem_singleton.mp hc]
      decide
  · rcases mem_body hc with hdigit | rfl
    · exact isBlank_of_isDigit hdigit
    · decide

lemma splitSign_cons {c : Char} (hminus : c ≠ '-') (hplus : c ≠ '+') :
    Numeral.splitSign (c :: s) = (false, c :: s) := by
  unfold Numeral.splitSign
  split
  · rename_i heq
    exact absurd (List.cons.inj heq).1 hminus
  · rename_i heq
    exact absurd (List.cons.inj heq).1 hplus
  · rfl

lemma splitSign_text (w : WrittenNumber) : Numeral.splitSign w.text = (w.negative, w.body) := by
  unfold WrittenNumber.text WrittenNumber.mark WrittenNumber.negative
  cases w.sign with
  | some minus => cases minus <;> rfl
  | none =>
    obtain ⟨c, rest, hbody⟩ := List.exists_cons_of_ne_nil (body_ne_nil w)
    have hc : c.isDigit = true ∨ c = '.' := mem_body (by rw [hbody]; exact List.mem_cons_self)
    rw [List.nil_append, hbody]
    refine splitSign_cons ?_ ?_
    · rintro rfl
      exact absurd hc (by decide)
    · rintro rfl
      exact absurd hc (by decide)

/-- A numeral is read digit by digit as a double. -/
lemma parts?_body (w : WrittenNumber) :
    Numeral.parts? w.body = some ⟨w.whole ++ w.places, w.places.length, 0⟩ := by
  have hwhole : ∀ c ∈ w.whole, c.isDigit = true := fun c hc => isDigit_of_mem_whole hc
  have hplaces : ∀ c ∈ w.places, c.isDigit = true := fun c hc => isDigit_of_mem_places hc
  have hne : ¬(w.whole = [] ∧ w.places = []) := fun h => w.nonempty (List.append_eq_nil_iff.mpr h)
  unfold Numeral.parts? WrittenNumber.body
  cases hfraction : w.fraction with
  | none =>
    obtain ⟨hpoint, hempty⟩ := point_of_none hfraction
    rw [hempty] at hne
    rw [hpoint, hempty, List.append_nil w.whole, List.takeWhile_eq_self_iff.mpr hwhole,
      List.dropWhile_eq_nil_iff.mpr hwhole]
    dsimp only
    rw [if_neg hne, List.append_nil]
    rfl
  | some places =>
    rw [point_of_some hfraction, takeWhile_append_stop hwhole (by decide),
      dropWhile_append_stop hwhole (by decide)]
    change (if w.whole = [] ∧ w.places.takeWhile Char.isDigit = [] then none else do
      let exponent ← Numeral.exponent? (w.places.dropWhile Char.isDigit)
      some (⟨w.whole ++ w.places.takeWhile Char.isDigit,
        (w.places.takeWhile Char.isDigit).length, exponent⟩ : Numeral.Parts)) = _
    rw [List.takeWhile_eq_self_iff.mpr hplaces, List.dropWhile_eq_nil_iff.mpr hplaces, if_neg hne]
    rfl

/-- Both readers take the sign off in the same way. -/
lemma toInt?_eq_splitSign (s : List Char) :
    Decimal.toInt? s = (Decimal.toNat? (Numeral.splitSign s).2).map fun n : ℕ =>
      if (Numeral.splitSign s).1 then -(n : ℤ) else n := by
  cases s with
  | nil => rfl
  | cons c rest =>
    by_cases hminus : c = '-'
    · subst hminus
      change Option.map _ _ = Option.map _ (Decimal.toNat? rest)
      cases Decimal.toNat? rest <;> rfl
    by_cases hplus : c = '+'
    · subst hplus
      rfl
    rw [splitSign_cons hminus hplus]
    unfold Decimal.toInt?
    split
    · rename_i heq
      exact absurd (List.cons.inj heq).1 hminus
    · rename_i heq
      exact absurd (List.cons.inj heq).1 hplus
    · rfl

/-- A numeral without a point is an integer. -/
lemma toInt?_text (w : WrittenNumber) :
    Decimal.toInt? w.text = if w.fraction = none then
      some (if w.negative then -(Nat.ofDigitChars 10 w.whole 0 : ℤ)
        else Nat.ofDigitChars 10 w.whole 0) else none := by
  rw [toInt?_eq_splitSign, splitSign_text]
  dsimp only
  unfold Decimal.toNat?
  cases hfraction : w.fraction with
  | none =>
    have hbody : w.body = w.whole := by
      unfold WrittenNumber.body
      rw [(point_of_none hfraction).1, List.append_nil]
    have hall : w.whole.all Char.isDigit = true :=
      List.all_eq_true.mpr fun c hc => isDigit_of_mem_whole hc
    have hne := body_ne_nil w
    rw [hbody] at hne ⊢
    rw [if_pos ⟨hne, hall⟩, if_pos rfl]
    rfl
  | some places =>
    have hall : ¬w.body.all Char.isDigit = true := by
      intro h
      have hpoint : '.' ∈ w.body := by
        unfold WrittenNumber.body
        rw [point_of_some hfraction]
        exact List.mem_append_right _ List.mem_cons_self
      exact absurd (List.all_eq_true.mp h '.' hpoint) (by decide)
    rw [if_neg fun h => hall h.2, if_neg (by simp)]
    rfl

/-! ## The number and its doubles -/

/-- All digits are those of the whole part, moved to the left by the places, and of the fraction. -/
lemma value_eq_digits (w : WrittenNumber) :
    w.value = signed w.negative
      ((Nat.ofDigitChars 10 (w.whole ++ w.places) 0 : ℕ) * 10 ^ (-(w.places.length : ℤ))) := by
  have hten : (10 : ℚ) ^ w.places.length ≠ 0 := pow_ne_zero _ (by norm_num)
  have hdigits : Nat.ofDigitChars 10 (w.whole ++ w.places) 0 =
      10 ^ w.places.length * Nat.ofDigitChars 10 w.whole 0 + Nat.ofDigitChars 10 w.places 0 := by
    rw [Nat.ofDigitChars_append]
    exact Nat.ofDigitChars_eq_ofDigitChars_zero
  unfold WrittenNumber.value
  rw [hdigits, zpow_neg, zpow_natCast, ← div_eq_mul_inv]
  push_cast
  rw [add_div, mul_div_cancel_left₀ _ hten]

lemma value_of_none (h : w.fraction = none) :
    w.value = (if w.negative then -(Nat.ofDigitChars 10 w.whole 0 : ℤ)
      else Nat.ofDigitChars 10 w.whole 0 : ℤ) := by
  unfold WrittenNumber.value
  rw [(point_of_none h).2]
  cases w.negative <;> simp [signed]

/-- Outside of 64 bits, and not just below them, the nearest double is outside as well. -/
lemma not_nearest_of_outside (h : 2 ^ 63 ≤ q ∨ q < -2 ^ 63 - 1024) (hx : Nearest q x)
    (hvalue : x.value = i) : ¬(-2 ^ 63 ≤ i ∧ i < 2 ^ 63) := by
  rintro ⟨hlow, hhigh⟩
  have hlow' : (-2 ^ 63 : ℚ) ≤ i := by exact_mod_cast hlow
  have hhigh' : (i : ℚ) < 2 ^ 63 := by exact_mod_cast hhigh
  rcases h with h | h
  · -- The double of `2 ^ 63` is nearer.
    obtain ⟨hfinite, -, hnext⟩ := value_ofCode false (e := 1086) (f := 0) (by decide) (by decide)
    have hleast := hx.least _ hfinite
    have hz : signed false (((2 ^ 52 + 0 : ℕ) : ℚ) * 2 ^ (((max 1086 1 : ℕ) : ℤ) - 1075)) =
        2 ^ 63 := by norm_num [signed]
    rw [if_neg (by decide), hz] at hnext
    rw [hvalue, hnext, abs_of_nonneg (sub_nonneg.mpr h)] at hleast
    linarith [le_abs_self (q - i)]
  · -- The double below `-2 ^ 63` is nearer.
    obtain ⟨hfinite, -, hnext⟩ := value_ofCode true (e := 1086) (f := 1) (by decide) (by decide)
    have hleast := hx.least _ hfinite
    have hz : signed true (((2 ^ 52 + 1 : ℕ) : ℚ) * 2 ^ (((max 1086 1 : ℕ) : ℤ) - 1075)) =
        -2 ^ 63 - 2048 := by norm_num [signed]
    rw [if_neg (by decide), hz] at hnext
    rw [hvalue, hnext] at hleast
    have hfar := neg_le_abs (q - i)
    rcases abs_cases (q - (-2 ^ 63 - 2048)) with ⟨hcase, -⟩ | ⟨hcase, -⟩ <;>
      rw [hcase] at hleast <;> linarith

/-- The integer that a double stands for is that of any nearest double. -/
lemma wholeOf?_nearest {negative : Bool} {m : ℚ}
    (hx : Nearest (signed negative m) x ∨ x.isFinite = false ∧ 2 ^ 64 ≤ m) :
    (CustomValue.wholeOf? x).map Int64.toInt = some i ↔
      (∃ y, Nearest (signed negative m) y ∧ y.value = i) ∧ -2 ^ 63 ≤ i ∧ i < 2 ^ 63 := by
  rcases hx with hx | ⟨hinfinite, hm⟩
  · rw [wholeOf?_map_eq_some_iff hx.finite]
    constructor
    · rintro ⟨hvalue, hrange⟩
      exact ⟨⟨x, hx, hvalue⟩, hrange⟩
    · rintro ⟨⟨y, hy, hvalue⟩, hrange⟩
      exact ⟨(value_unique hx hy).trans hvalue, hrange⟩
  · constructor
    · intro h
      obtain ⟨n, hn, -⟩ := Option.map_eq_some_iff.mp h
      rw [(toInt?_eq_some_iff.mp (wholeOf?_eq_some_iff.mp hn)).1] at hinfinite
      cases hinfinite
    · rintro ⟨⟨y, hy, hvalue⟩, hrange⟩
      refine absurd hrange (not_nearest_of_outside ?_ hy hvalue)
      cases negative with
      | false => exact Or.inl (le_trans (by norm_num) hm)
      | true =>
        refine Or.inr (lt_of_le_of_lt (neg_le_neg hm) ?_)
        norm_num

/-- The integer that a numeral between blanks stands for. -/
lemma int64?_surrounded (hbefore : before.all Text.isBlank = true)
    (hafter : after.all Text.isBlank = true) :
    (w.between before after).int64? =
      match Decimal.toInt64? w.text with
      | some n => some n
      | none => CustomValue.wholeOf? (.ofDecimal w.negative
          (Nat.ofDigitChars 10 (w.whole ++ w.places) 0) (-(w.places.length : ℤ))) := by
  have htrim : Text.trim (before ++ (w.text ++ after)) = w.text :=
    trim_surrounded (List.all_eq_true.mp hbefore) (List.all_eq_true.mp hafter)
      (fun c hc => not_isBlank_text hc) (List.append_ne_nil_of_right_ne_nil _ (body_ne_nil w))
  have hdouble : Numeral.toBinary64? w.text = some (.ofDecimal w.negative
      (Nat.ofDigitChars 10 (w.whole ++ w.places) 0) (-(w.places.length : ℤ))) := by
    unfold Numeral.toBinary64?
    rw [splitSign_text]
    dsimp only
    rw [parts?_body]
    dsimp only
    rw [zero_sub]
  unfold WrittenNumber.between CustomValue.int64?
  dsimp only
  rw [String.toList_ofList, htrim, hdouble]
  rfl

/-- An integer of 64 bits without a point is read as it is written, any other numeral is not. -/
lemma toInt64?_text (w : WrittenNumber) :
    (w.IsShort → ∃ n : Int64, Decimal.toInt64? w.text = some n ∧ w.value = n.toInt) ∧
      (¬w.IsShort → Decimal.toInt64? w.text = none) := by
  unfold Decimal.toInt64? WrittenNumber.IsShort
  rw [toInt?_text]
  by_cases hfraction : w.fraction = none
  · rw [if_pos hfraction, value_of_none hfraction]
    generalize (if w.negative then -(Nat.ofDigitChars 10 w.whole 0 : ℤ)
      else Nat.ofDigitChars 10 w.whole 0) = n
    dsimp only
    have hrange : (-2 ^ 63 ≤ (n : ℚ) ∧ (n : ℚ) < 2 ^ 63) ↔
        Int64.minValue.toInt ≤ n ∧ n ≤ Int64.maxValue.toInt := by
      have hcast : (-2 ^ 63 ≤ (n : ℚ) ∧ (n : ℚ) < 2 ^ 63) ↔ -2 ^ 63 ≤ n ∧ n < 2 ^ 63 := by
        exact_mod_cast Iff.rfl
      rw [hcast, Int64.toInt_minValue, Int64.toInt_maxValue]
      omega
    rw [hrange]
    refine ⟨fun h => ⟨Int64.ofInt n, if_pos h.2, ?_⟩, fun h => if_neg fun hn => h ⟨hfraction, hn⟩⟩
    obtain ⟨-, hlow, hhigh⟩ := h
    rw [Int64.toInt_minValue] at hlow
    rw [Int64.toInt_maxValue] at hhigh
    rw [Int64.toInt_ofInt_of_le (by omega) (by omega)]
  · rw [if_neg hfraction]
    exact ⟨fun h => absurd h.1 hfraction, fun _ => rfl⟩

lemma int64?_between (hbefore : before.all Text.isBlank = true)
    (hafter : after.all Text.isBlank = true) :
    (w.between before after).int64?.map Int64.toInt = some i ↔
      (w.IsShort ∧ w.value = i ∨ ¬w.IsShort ∧ ∃ x, Nearest w.value x ∧ x.value = i) ∧
        -2 ^ 63 ≤ i ∧ i < 2 ^ 63 := by
  rw [int64?_surrounded hbefore hafter]
  obtain ⟨hshort, hlong⟩ := toInt64?_text w
  by_cases h : w.IsShort
  · obtain ⟨n, hn, hvalue⟩ := hshort h
    rw [hn, hvalue]
    dsimp only
    rw [Option.map_some, Option.some.injEq]
    constructor
    · rintro rfl
      exact ⟨Or.inl ⟨h, rfl⟩, n.le_toInt, n.toInt_lt⟩
    · rintro ⟨⟨-, heq⟩ | ⟨hnot, -⟩, -⟩
      · exact_mod_cast heq
      · exact absurd h hnot
  · rw [hlong h, value_eq_digits]
    dsimp only
    rw [wholeOf?_nearest (ofDecimal_nearest_or_large _ _ _)]
    simp only [h, not_false_eq_true, false_and, true_and, false_or]

/-- An integer of 64 bits that is written without a point is read exactly; any other numeral stands
for the integer that the nearest double holds, if that fits in 64 bits. So a numeral stands for its
own number if that is such an integer or if a double holds it, and for none if it is outside of 64
bits and not just below them. -/
theorem numeral_view (hbefore : before.all Text.isBlank = true)
    (hafter : after.all Text.isBlank = true) (w : WrittenNumber) :
    (∀ i : ℤ, (w.between before after).int64?.map Int64.toInt = some i ↔
      (w.IsShort ∧ w.value = i ∨ ¬w.IsShort ∧ ∃ x, Nearest w.value x ∧ x.value = i) ∧
        -2 ^ 63 ≤ i ∧ i < 2 ^ 63) ∧
    ((w.IsShort ∨ ∃ x : Binary64, x.isFinite = true ∧ x.value = w.value) →
      ∀ i : ℤ, (w.between before after).int64?.map Int64.toInt = some i ↔
        w.value = i ∧ -2 ^ 63 ≤ i ∧ i < 2 ^ 63) ∧
    (2 ^ 63 ≤ w.value ∨ w.value < -2 ^ 63 - 1024 → (w.between before after).int64? = none) := by
  have hview := fun i => int64?_between (w := w) (i := i) hbefore hafter
  refine ⟨hview, fun hexact i => ?_, fun houtside => ?_⟩
  · rw [hview]
    refine and_congr_left fun _ => ?_
    constructor
    · rintro (⟨-, heq⟩ | ⟨hnot, x, hx, hvalue⟩)
      · exact heq
      · obtain ⟨y, hy, heq⟩ := hexact.resolve_left hnot
        rw [← heq] at hx ⊢
        rw [← value_unique hx (nearest_of_exact hy), hvalue]
    · intro heq
      by_cases h : w.IsShort
      · exact Or.inl ⟨h, heq⟩
      · obtain ⟨y, hy, hvalue⟩ := hexact.resolve_left h
        refine Or.inr ⟨h, y, ?_, hvalue.trans heq⟩
        rw [← hvalue]
        exact nearest_of_exact hy
  · cases hread : (w.between before after).int64? with
    | none => rfl
    | some n =>
      have hn := (hview n.toInt).mp (by rw [hread]; rfl)
      rcases hn with ⟨⟨⟨-, hlow, hhigh⟩, -⟩ | ⟨-, x, hx, hvalue⟩, hrange⟩
      · rcases houtside with h | h <;> linarith
      · exact absurd hrange (not_nearest_of_outside houtside hx hvalue)

def paddedNumber : WrittenNumber :=
  ⟨some false, "0042".toList, some "00".toList, by decide, by decide⟩

theorem numeral_view_padded :
    " ".toList.all Text.isBlank = true ∧ "\n".toList.all Text.isBlank = true ∧
      paddedNumber.value = 42 ∧
      (paddedNumber.between " ".toList "\n".toList).int64?.map Int64.toInt = some 42 := by
  have hvalue : paddedNumber.value = (42 : ℤ) := by
    have hwhole : Nat.ofDigitChars 10 paddedNumber.whole 0 = 42 := by decide
    have hplaces : Nat.ofDigitChars 10 paddedNumber.places 0 = 0 := by decide
    unfold WrittenNumber.value
    rw [hwhole, hplaces]
    norm_num [signed, WrittenNumber.negative, paddedNumber]
  obtain ⟨hfinite, hdouble⟩ := toInt?_eq_some_iff.mp
    (show (Binary64.ofInt 42).toInt? = some 42 by decide +kernel)
  refine ⟨by decide, by decide, by exact_mod_cast hvalue, ?_⟩
  exact ((numeral_view (by decide) (by decide) paddedNumber).2.1
    (Or.inr ⟨_, hfinite, hdouble.trans hvalue.symm⟩) 42).mpr ⟨hvalue, by decide, by decide⟩

/-- The integer below those of 64 bits. -/
def belowLeast : WrittenNumber :=
  ⟨some true, "9223372036854775809".toList, none, by decide, by decide⟩

def almostOne : WrittenNumber :=
  ⟨none, "0".toList, some "99999999999999999999".toList, by decide, by decide⟩

/-- The least integer of 64 bits is read from the one below it, and one from a fraction. -/
theorem numeral_view_rounded :
    belowLeast.value = -2 ^ 63 - 1 ∧ (belowLeast.between [] []).int64? = some Int64.minValue ∧
      almostOne.value = 1 - 1 / 10 ^ 20 ∧ (almostOne.between [] []).int64? = some 1 := by
  refine ⟨?_, by decide +kernel, ?_, by decide +kernel⟩
  · have hwhole : Nat.ofDigitChars 10 belowLeast.whole 0 = 9223372036854775809 := by decide
    rw [value_of_none rfl, hwhole]
    norm_num [WrittenNumber.negative, belowLeast]
  · have hwhole : Nat.ofDigitChars 10 almostOne.whole 0 = 0 := by decide
    have hplaces : Nat.ofDigitChars 10 almostOne.places 0 = 99999999999999999999 := by decide
    have hlength : almostOne.places.length = 20 := by decide
    unfold WrittenNumber.value
    rw [hwhole, hplaces, hlength]
    norm_num [signed, WrittenNumber.negative, almostOne]

end Proofs

end IssueBridge
