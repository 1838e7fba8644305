import IssueBridge.Time.Calendar
import Mathlib.Algebra.Ring.Nat
import Mathlib.Tactic.Lemma
import Mathlib.Tactic.SplitIfs

/-!
# Days and dates

Every day has a date that exists, and the date counts back to the day.
-/

namespace IssueBridge.Proofs

open Date

lemma monthLength_succ (year : Int) (k : Nat) :
    monthLength year (k + 1) = (monthLengths year).getD k 0 := by
  unfold monthLength
  rw [if_neg (by omega), Nat.add_sub_cancel]

lemma length_monthLengths (year : Int) : (monthLengths year).length = 12 := rfl

lemma sum_monthLengths (year : Int) :
    (monthLengths year).sum = if isLeap year then 366 else 365 := by
  unfold monthLengths
  cases isLeap year <;> rfl

/-- A year begins where the year before it ends. -/
lemma daysBefore_succ (year : Int) :
    daysBefore (year + 1) = daysBefore year + (monthLengths year).sum := by
  have hleap : isLeap year = true ↔ year % 4 = 0 ∧ (year % 100 ≠ 0 ∨ year % 400 = 0) := by
    unfold isLeap
    simp
  rw [sum_monthLengths]
  simp only [daysBefore]
  by_cases h : isLeap year = true
  · have hdiv := hleap.mp h
    rw [if_pos h]
    omega
  · have hdiv := mt hleap.mpr h
    rw [if_neg h]
    omega

lemma daysBefore_guess (days : Int) :
    daysBefore (days * 400 / 146097 + 1) ≤ days ∧
      days < daysBefore (days * 400 / 146097 + 1 + 1 + 1) := by
  simp only [daysBefore]
  constructor <;> omega

lemma yearOf_spec (days : Int) :
    daysBefore (yearOf days) ≤ days ∧ days < daysBefore (yearOf days + 1) := by
  obtain ⟨hle, hlt⟩ := daysBefore_guess days
  unfold yearOf
  simp only
  rw [if_neg (by omega)]
  split_ifs with hnext
  · exact ⟨hnext, hlt⟩
  · exact ⟨hle, by omega⟩

/-- Where a day of the year falls among months of given lengths. -/
lemma splitDay_spec (lengths : List Nat) (month day : Nat) (h : day < lengths.sum) :
    ∃ k d, splitDay month lengths day = (month + k, d + 1) ∧ k < lengths.length ∧
      d < lengths.getD k 0 ∧ (lengths.take k).sum + d = day := by
  induction lengths generalizing month day with
  | nil => simp at h
  | cons length rest ih =>
    unfold splitDay
    by_cases hday : day < length
    · rw [if_pos hday]
      exact ⟨0, day, rfl, by simp, by simpa using hday, by simp⟩
    · rw [List.sum_cons] at h
      obtain ⟨k, d, hsplit, hk, hd, hsum⟩ := ih (month + 1) (day - length) (by omega)
      rw [if_neg hday, hsplit]
      refine ⟨k + 1, d, ?_, ?_, ?_, ?_⟩
      · rw [Nat.add_assoc, Nat.add_comm 1 k]
      · rw [List.length_cons]
        omega
      · simpa using hd
      · rw [List.take_succ_cons, List.sum_cons]
        omega

/-- The parts of the date of a day. -/
lemma ofDays_spec (days : Int) :
    ∃ k d, ofDays days = ⟨yearOf days, k + 1, d + 1⟩ ∧ k < 12 ∧
      d < (monthLengths (yearOf days)).getD k 0 ∧
      daysBefore (yearOf days) + ((monthLengths (yearOf days)).take k).sum + d = days := by
  obtain ⟨hle, hlt⟩ := yearOf_spec days
  rw [daysBefore_succ] at hlt
  obtain ⟨k, d, hsplit, hk, hd, hsum⟩ :=
    splitDay_spec (monthLengths (yearOf days)) 1 (days - daysBefore (yearOf days)).toNat (by omega)
  refine ⟨k, d, ?_, hk, hd, by omega⟩
  unfold ofDays
  simp only [hsplit]
  rw [Nat.add_comm 1 k]

theorem toDays_ofDays (days : Int) : (ofDays days).toDays = days := by
  obtain ⟨k, d, heq, -, -, hdays⟩ := ofDays_spec days
  rw [heq]
  unfold toDays
  simp only [Nat.add_sub_cancel, ← List.sum_eq_foldl_nat]
  exact hdays

theorem exists_ofDays (days : Int) : (ofDays days).exists? = true := by
  obtain ⟨k, d, heq, -, hd, -⟩ := ofDays_spec days
  rw [heq]
  unfold exists?
  simp only [monthLength_succ, Bool.and_eq_true, decide_eq_true_eq]
  omega

/-- A month has two digits at most, and a day has too. -/
lemma ofDays_lt (days : Int) : (ofDays days).month < 100 ∧ (ofDays days).day < 100 := by
  obtain ⟨k, d, heq, hk, hd, -⟩ := ofDays_spec days
  have hall : ∀ length ∈ monthLengths (yearOf days), length ≤ 31 := by
    unfold monthLengths
    cases isLeap (yearOf days) <;> decide
  have hlength : (monthLengths (yearOf days)).getD k 0 ≤ 31 := by
    rw [← length_monthLengths (yearOf days)] at hk
    rw [List.getD_eq_getElem?_getD, List.getElem?_eq_getElem hk, Option.getD_some]
    exact hall _ (List.getElem_mem hk)
  rw [heq]
  simp only
  omega

end IssueBridge.Proofs
