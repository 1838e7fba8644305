import IssueBridge.Text.Percent
import Mathlib.Tactic.Lemma

/-!
# Percent encoding there and back

A text that was encoded decodes to itself, whichever characters are kept, as long as the percent
sign is not one of them.
-/

namespace IssueBridge.Percent

variable {keep : Char → Bool} {rest : List Char}

lemma digit?_hexDigit : ∀ n < 16, digit? (hexDigit n) = some n := by
  decide

lemma isAlphanum_hexDigit : ∀ n < 16, (hexDigit n).isAlphanum = true := by
  decide

lemma bytes_byte (b : UInt8) (rest : List Char) : bytes (byte b ++ rest) = b :: bytes rest := by
  have hlt : b.toNat < 256 := b.toNat_lt
  have hvalue : UInt8.ofNat (16 * (b.toNat / 16) + b.toNat % 16) = b := by
    rw [Nat.div_add_mod]
    exact UInt8.ofNat_toNat
  change bytes ('%' :: hexDigit (b.toNat / 16) :: hexDigit (b.toNat % 16) :: rest) = _
  rw [bytes, digit?_hexDigit _ (by omega), digit?_hexDigit _ (by omega)]
  dsimp only
  rw [hvalue]

lemma bytes_flatMap_byte (bs : List UInt8) (rest : List Char) :
    bytes (bs.flatMap byte ++ rest) = bs ++ bytes rest := by
  induction bs with
  | nil => rfl
  | cons b bs ih => rw [List.flatMap_cons, List.append_assoc, bytes_byte, ih, List.cons_append]

lemma bytes_cons {c : Char} (h : c ≠ '%') (rest : List Char) :
    bytes (c :: rest) = String.utf8EncodeChar c ++ bytes rest := by
  rw [bytes]
  rintro a b rest' rfl
  exact absurd rfl h

lemma bytes_encodeExcept (hkeep : keep '%' = false) (s : List Char) :
    bytes (encodeExcept keep s) = s.flatMap String.utf8EncodeChar := by
  induction s with
  | nil => rfl
  | cons c s ih =>
    unfold encodeExcept at ih ⊢
    rw [List.flatMap_cons, List.flatMap_cons]
    -- A kept character is no percent sign, so that it is not read as the start of an escape.
    by_cases hc : keep c = true
    · have hne : c ≠ '%' := by
        rintro rfl
        rw [hkeep] at hc
        cases hc
      rw [if_pos hc, List.singleton_append, bytes_cons hne, ih]
    · rw [if_neg hc, escape, bytes_flatMap_byte, ih]

lemma fromUTF8?_utf8Encode (s : List Char) :
    String.fromUTF8? s.utf8Encode = some (String.ofList s) := by
  have hvalid : s.utf8Encode.IsValidUTF8 := (String.ofList s).isValidUTF8
  unfold String.fromUTF8?
  rw [dif_pos hvalid]
  rfl

/-- An encoded text decodes to itself. -/
theorem decode?_encodeExcept (hkeep : keep '%' = false) (s : List Char) :
    decode? (encodeExcept keep s) = some s := by
  have hbytes : ByteArray.mk (bytes (encodeExcept keep s)).toArray = s.utf8Encode := by
    rw [bytes_encodeExcept hkeep]
    apply ByteArray.ext
    exact List.data_toByteArray.symm
  unfold decode?
  rw [hbytes, fromUTF8?_utf8Encode, Option.map_some, String.toList_ofList]

/-- An encoded text has unreserved characters and percent signs only. -/
lemma isUnreserved_of_mem_encode {s : List Char} {c : Char}
    (h : c ∈ encodeExcept isUnreserved s) : isUnreserved c = true ∨ c = '%' := by
  obtain ⟨d, -, hc⟩ := List.mem_flatMap.mp h
  by_cases hd : isUnreserved d = true
  · rw [if_pos hd, List.mem_singleton] at hc
    exact Or.inl (hc ▸ hd)
  · rw [if_neg hd] at hc
    obtain ⟨b, -, hb⟩ := List.mem_flatMap.mp hc
    have hlt : b.toNat < 256 := b.toNat_lt
    have hdigit : ∀ n < 16, isUnreserved (hexDigit n) = true := fun n hn => by
      simp [isUnreserved, isAlphanum_hexDigit n hn]
    unfold byte at hb
    rcases List.mem_cons.mp hb with rfl | hb
    · exact Or.inr rfl
    · rcases List.mem_cons.mp hb with rfl | hb
      · exact Or.inl (hdigit _ (by omega))
      · rw [List.mem_singleton.mp hb]
        exact Or.inl (hdigit _ (by omega))

/-- A text whose characters are all kept is its own encoding. -/
lemma encodeExcept_of_keep {s : List Char} (h : ∀ c ∈ s, keep c = true) :
    encodeExcept keep s = s := by
  induction s with
  | nil => rfl
  | cons c s ih =>
    have hrest := ih fun d hd => h d (List.mem_cons_of_mem _ hd)
    unfold encodeExcept at hrest ⊢
    rw [List.flatMap_cons, if_pos (h c List.mem_cons_self), hrest, List.singleton_append]

end IssueBridge.Percent
