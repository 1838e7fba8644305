import IssueBridge.Proofs.CalendarRoundTrip
import IssueBridge.Time.Reader
import IssueBridge.Time.Writer
import Mathlib.Algebra.Ring.Nat

/-!
# Instants read back

A timestamp is written in as many digits as its instant needs, so the instant reads back from it,
leap seconds and years of more than four digits included.
-/

namespace IssueBridge.Proofs

open Instant

/-- Only the last second of a minute is followed by a leap second. -/
lemma leap_of_fits {seconds : Int} {nanos : Nat} (h : Fits seconds nanos) :
    nanos / nanosPerSecond = 0 ∨
      nanos / nanosPerSecond = 1 ∧ (seconds % secondsPerDay).toNat % 60 = 59 := by
  unfold Fits nanosPerSecond at h
  unfold nanosPerSecond secondsPerDay
  omega

lemma clock_parts {clock leap : Nat} (h : leap = 0 ∨ leap = 1 ∧ clock % 60 = 59) :
    clock / 3600 * 3600 + clock / 60 % 60 * 60 + min (clock % 60 + leap) 59 = clock := by
  rcases h with rfl | ⟨rfl, h⟩ <;> omega

lemma nanos_parts {clock nanos : Nat}
    (h : nanos / nanosPerSecond = 0 ∨ nanos / nanosPerSecond = 1 ∧ clock % 60 = 59) :
    nanos % nanosPerSecond +
      (if clock % 60 + nanos / nanosPerSecond = 60 then nanosPerSecond else 0) = nanos := by
  unfold nanosPerSecond at *
  split_ifs <;> omega

lemma exists_toCivil (t : Instant) : t.toCivil.exists? = true := by
  have hdate := exists_ofDays (t.seconds / secondsPerDay + epochDay)
  have hleap := leap_of_fits t.fits
  unfold Civil.exists? toCivil
  simp only [hdate, Bool.and_eq_true, decide_eq_true_eq, true_and]
  unfold secondsPerDay nanosPerSecond at *
  omega

/-- An instant has the date and the time of day that it is taken apart into. -/
lemma ofCivil?_toCivil (t : Instant) : ofCivil? t.toCivil 0 = some t := by
  have hdate := toDays_ofDays (t.seconds / secondsPerDay + epochDay)
  have hleap := leap_of_fits t.fits
  have hreading : (t.seconds / secondsPerDay + epochDay - epochDay) * secondsPerDay +
      ((t.seconds % secondsPerDay).toNat : Int) = t.seconds := by
    unfold secondsPerDay
    omega
  unfold ofCivil?
  simp only [exists_toCivil]
  unfold toCivil
  simp only [hdate, clock_parts hleap, hreading, nanos_parts hleap, Int.sub_zero]
  rw [if_pos ⟨trivial, by decide, t.representable⟩]
  unfold ofParts?
  rw [dif_pos ⟨t.representable, t.fits⟩]

variable {digits rest : List Char}

lemma isBlank_of_isDigit {c : Char} (h : c.isDigit = true) : Text.isBlank c = false := by
  simp only [Char.isDigit, Bool.and_eq_true, decide_eq_true_eq, UInt32.le_iff_toNat_le] at h
  unfold Text.isBlank Char.toNat
  simp only [Bool.or_eq_false_iff, Bool.and_eq_false_iff, decide_eq_false_iff_not,
    beq_eq_false_iff_ne]
  have h₁ : 48 ≤ c.val.toNat := h.1
  have h₂ : c.val.toNat ≤ 57 := h.2
  omega

lemma trimLeft_cons {c : Char} (h : Text.isBlank c = false) :
    Text.trimLeft (c :: rest) = c :: rest :=
  List.dropWhile_cons_of_neg (by rw [h]; decide)

/-- A number ends where its digits end. -/
lemma number_append {least most : Nat} {c : Char} (hdigits : ∀ d ∈ digits, d.isDigit = true)
    (hc : c.isDigit = false) (hleast : least ≤ digits.length) (hmost : digits.length ≤ most) :
    Reader.number least most (digits ++ c :: rest) =
      some (Nat.ofDigitChars 10 digits 0, c :: rest) := by
  have htail : ((c :: rest).take (most - digits.length)).takeWhile Char.isDigit = [] := by
    cases most - digits.length with
    | zero => rfl
    | succ k => rw [List.take_succ_cons, List.takeWhile_cons_of_neg (by rw [hc]; decide)]
  have htake : ((digits ++ c :: rest).take most).takeWhile Char.isDigit = digits := by
    rw [List.take_append, List.take_of_length_le hmost, List.takeWhile_append_of_pos hdigits,
      htail, List.append_nil]
  unfold Reader.number
  simp only [htake]
  rw [if_neg (by omega), List.drop_left]

lemma isDigit_padded {width n : Nat} : ∀ d ∈ Decimal.padded width n, d.isDigit = true := by
  intro d hd
  unfold Decimal.padded Decimal.ofNat at hd
  rcases List.mem_append.mp hd with hzero | hdigit
  · rw [List.eq_of_mem_replicate hzero]
    decide
  · exact Nat.isDigit_of_mem_toDigits (by decide) (by decide) hdigit

lemma ofDigitChars_padded (width n : Nat) :
    Nat.ofDigitChars 10 (Decimal.padded width n) 0 = n := by
  unfold Decimal.padded Decimal.ofNat
  simp only
  rw [Nat.ofDigitChars_append, Nat.ofDigitChars_replicate_zero, Nat.mul_zero,
    Nat.ofDigitChars_ten_toDigits]

lemma one_le_length_padded (width n : Nat) : 1 ≤ (Decimal.padded width n).length := by
  unfold Decimal.padded Decimal.ofNat
  simp only
  rw [List.length_append]
  have := Nat.length_toDigits_pos (b := 10) (n := n)
  omega

lemma length_padded (width n : Nat) (hwidth : 0 < width) (hn : n < 10 ^ width) :
    (Decimal.padded width n).length = width := by
  unfold Decimal.padded Decimal.ofNat
  simp only
  rw [List.length_append, List.length_replicate]
  have := (Nat.length_toDigits_le_iff (by decide) hwidth).mpr hn
  omega

lemma number_padded (least most width n : Nat) {c : Char} (hc : c.isDigit = false)
    (hleast : least ≤ (Decimal.padded width n).length)
    (hmost : (Decimal.padded width n).length ≤ most) :
    Reader.number least most (Decimal.padded width n ++ c :: rest) = some (n, c :: rest) := by
  rw [number_append isDigit_padded hc hleast hmost, ofDigitChars_padded]

/-- A padded number begins with a digit. -/
lemma padded_eq_cons (width n : Nat) :
    ∃ d tail, Decimal.padded width n = d :: tail ∧ d.isDigit = true := by
  have hlength := one_le_length_padded width n
  cases h : Decimal.padded width n with
  | nil => simp [h] at hlength
  | cons d tail => exact ⟨d, tail, rfl, isDigit_padded d (by rw [h]; exact List.mem_cons_self)⟩

lemma trimLeft_padded (width n : Nat) :
    Text.trimLeft (Decimal.padded width n ++ rest) = Decimal.padded width n ++ rest := by
  obtain ⟨d, tail, heq, hd⟩ := padded_eq_cons width n
  rw [heq, List.cons_append, trimLeft_cons (isBlank_of_isDigit hd)]

lemma spaced_padded {n : Nat} {c : Char} (hc : c.isDigit = false) (hn : n < 100) :
    Reader.spaced 2 (Decimal.padded 2 n ++ c :: rest) = some (n, c :: rest) := by
  have hlength := length_padded 2 n (by decide) hn
  unfold Reader.spaced
  rw [trimLeft_padded, number_padded 1 2 2 n hc (by omega) (by omega)]

lemma year_padded (n : Nat) (hn : n < 10000) :
    Reader.year (Decimal.padded 4 n ++ '-' :: rest) = some ((n : Int), '-' :: rest) := by
  have hlength := length_padded 4 n (by decide) hn
  have hread : Reader.number 1 4 (Decimal.padded 4 n ++ '-' :: rest) = some (n, '-' :: rest) :=
    number_padded 1 4 4 n (by decide) (by omega) (by omega)
  have htrim : Text.trimLeft (Decimal.padded 4 n ++ '-' :: rest) =
      Decimal.padded 4 n ++ '-' :: rest := trimLeft_padded 4 n
  obtain ⟨d, tail, heq, hd⟩ := padded_eq_cons 4 n
  rw [heq, List.cons_append] at hread htrim ⊢
  unfold Reader.year
  rw [htrim]
  split
  · rename_i hminus
    rw [List.cons.injEq] at hminus
    rw [hminus.1] at hd
    exact absurd hd (by decide)
  · rename_i hplus
    rw [List.cons.injEq] at hplus
    rw [hplus.1] at hd
    exact absurd hd (by decide)
  · rw [hread, Option.map_some]

lemma number_year (n : Nat) :
    Reader.number 1 (Decimal.padded 4 n ++ '-' :: rest).length (Decimal.padded 4 n ++ '-' :: rest) =
      some (n, '-' :: rest) := by
  have hlength := one_le_length_padded 4 n
  apply number_padded _ _ _ _ (by decide) hlength
  rw [List.length_append]
  omega

lemma year_yearText (y : Int) :
    Reader.year (yearText y ++ '-' :: rest) = some (y, '-' :: rest) := by
  unfold yearText
  split_ifs with hshort hneg
  · rw [year_padded _ (by omega), Int.toNat_of_nonneg hshort.1]
  · unfold Reader.year
    rw [List.cons_append, trimLeft_cons (by decide)]
    simp only [number_year, Option.map_some]
    rw [Int.ofNat_natAbs_of_nonpos (by omega), Int.neg_neg]
  · unfold Reader.year
    rw [List.cons_append, trimLeft_cons (by decide)]
    simp only [number_year, Option.map_some]
    rw [Int.toNat_of_nonneg (by omega)]

lemma char_trimLeft {c : Char} (h : Text.isBlank c = false) :
    Reader.char c (Text.trimLeft (c :: rest)) = some rest := by
  rw [trimLeft_cons h]
  exact if_pos rfl

lemma date_dateText (d : Date) {c : Char} (hmonth : d.month < 100) (hday : d.day < 100)
    (hc : c.isDigit = false) :
    Reader.date Text.trimLeft (dateText d ++ c :: rest) = some (d, c :: rest) := by
  unfold Reader.date dateText
  simp only [List.append_assoc, List.cons_append, year_yearText, char_trimLeft (c := '-') rfl,
    spaced_padded (c := '-') rfl hmonth, spaced_padded hc hday, Option.bind_eq_bind,
    Option.bind_some]

lemma clock_clockText (t : Civil) {c : Char} (hhour : t.hour < 100) (hminute : t.minute < 100)
    (hsecond : t.second < 100) (hc : c.isDigit = false) :
    Reader.clock Text.trimLeft (clockText t ++ c :: rest) =
      some ((t.hour, t.minute, t.second), c :: rest) := by
  unfold Reader.clock clockText
  simp only [List.append_assoc, List.cons_append, char_trimLeft (c := ':') rfl,
    spaced_padded (c := ':') rfl hhour, spaced_padded (c := ':') rfl hminute,
    spaced_padded hc hsecond, Option.bind_eq_bind, Option.bind_some]

/-- A fraction of `width` digits reads as the nanoseconds that it counts. -/
lemma nanos_padded (width scale n : Nat) {c : Char} (hpos : 0 < width) (hwidth : width ≤ 9)
    (hscale : 10 ^ (9 - width) = scale) (hn : n < 10 ^ width) (hc : c.isDigit = false) :
    Reader.nanos ('.' :: Decimal.padded width n ++ c :: rest) = some (n * scale, c :: rest) := by
  have hlength := length_padded width n hpos hn
  unfold Reader.nanos
  simp only [List.cons_append]
  rw [number_padded 1 9 width n hc (by omega) (by omega)]
  simp only [Option.bind_eq_bind, Option.bind_some, List.length_append, hlength,
    Nat.add_sub_cancel, Nat.pow_eq, hscale]
  rw [List.dropWhile_cons_of_neg (by rw [hc]; decide)]

lemma nanos_fractionText (n : Nat) (hn : n < nanosPerSecond) {c : Char} (hdot : c ≠ '.')
    (hc : c.isDigit = false) :
    Reader.nanos (fractionText n ++ c :: rest) = some (n, c :: rest) := by
  unfold nanosPerSecond at hn
  unfold fractionText
  split_ifs with hzero hmilli hmicro
  · rw [hzero]
    unfold Reader.nanos
    rw [List.nil_append]
    split
    · rename_i heq
      rw [List.cons.injEq] at heq
      exact absurd heq.1 hdot
    · rfl
  · rw [nanos_padded 3 1000000 (n / 1000000) (by decide) (by decide) (by decide) (by omega) hc]
    rw [Nat.div_mul_cancel (Nat.dvd_of_mod_eq_zero hmilli)]
  · rw [nanos_padded 6 1000 (n / 1000) (by decide) (by decide) (by decide) (by omega) hc]
    rw [Nat.div_mul_cancel (Nat.dvd_of_mod_eq_zero hmicro)]
  · rw [nanos_padded 9 1 n (by decide) (by decide) (by decide) (by omega) hc, Nat.mul_one]

lemma fractionText_stops (n : Nat) :
    ∃ c tail, fractionText n ++ ['Z'] = c :: tail ∧ c.isDigit = false := by
  unfold fractionText
  split_ifs
  · exact ⟨'Z', [], rfl, rfl⟩
  · exact ⟨'.', _, rfl, rfl⟩
  · exact ⟨'.', _, rfl, rfl⟩
  · exact ⟨'.', _, rfl, rfl⟩

/-- An instant reads back from its timestamp. -/
theorem ofTimestamp?_rfc3339 (t : Instant) : ofTimestamp? t.rfc3339 = some t := by
  have hdate := ofDays_lt (t.seconds / secondsPerDay + epochDay)
  have hexists := exists_toCivil t
  unfold Civil.exists? at hexists
  simp only [Bool.and_eq_true, decide_eq_true_eq] at hexists
  obtain ⟨⟨⟨⟨-, hhour⟩, hminute⟩, hsecond⟩, hnanos⟩ := hexists
  obtain ⟨c, tail, hstop, hc⟩ := fractionText_stops t.toCivil.nanos
  have hclock : Reader.clock Text.trimLeft (clockText t.toCivil ++ c :: tail) =
      some ((t.toCivil.hour, t.toCivil.minute, t.toCivil.second), c :: tail) :=
    clock_clockText t.toCivil (by omega) (by omega) (by omega) hc
  rw [← hstop] at hclock
  have hzone : Reader.zone (Text.trimLeft ['Z']) = some (0, []) := by decide
  have hend : Text.trimLeft [] = [] := rfl
  unfold ofTimestamp? rfc3339 rfc3339Chars
  rw [String.toList_ofList]
  unfold Reader.relaxed?
  simp only [List.append_assoc, List.cons_append]
  rw [date_dateText t.toCivil.date hdate.1 hdate.2 rfl]
  simp only [Option.bind_eq_bind, Option.bind_some, Reader.dateEnd, true_or, if_true, hclock,
    nanos_fractionText t.toCivil.nanos hnanos (c := 'Z') (by decide) rfl, hzone]
  rw [if_pos hend]
  exact ofCivil?_toCivil t

end IssueBridge.Proofs
