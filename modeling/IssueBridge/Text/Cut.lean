/-!
# Cutting and splitting texts

Limits on the length of a text, one-line previews, and splitting at the first occurrence of a
separator.
-/

namespace IssueBridge.Text

/-- The first `limit` characters. -/
def cut (limit : Nat) (s : String) : String :=
  String.ofList (s.toList.take limit)

/-- Line ends, of one character or two, become the two characters of a backslash and an n. -/
def escapeLineEnds : List Char → List Char
  | '\r' :: '\n' :: rest => '\\' :: 'n' :: escapeLineEnds rest
  | '\n' :: rest => '\\' :: 'n' :: escapeLineEnds rest
  | c :: rest => c :: escapeLineEnds rest
  | [] => []

/-- A one-line preview of at most `length` characters; three dots mark a cut. -/
def oneLine (length : Nat) (s : String) : String :=
  if s.isEmpty then "empty"
  else
    let line := escapeLineEnds s.toList
    if line.length ≤ length then String.ofList line
    else String.ofList (line.take length) ++ "..."

/-- What stands before and what stands after the first occurrence of `separator`. -/
def splitFirst? (separator : List Char) : List Char → Option (List Char × List Char)
  | [] => if separator.isEmpty then some ([], []) else none
  | c :: rest =>
    match separator.isPrefixOf? (c :: rest) with
    | some after => some ([], after)
    | none => (splitFirst? separator rest).map fun (before, after) => (c :: before, after)

/-- The pieces between the occurrences of a character. -/
def pieces (separator : Char) : List Char → List (List Char)
  | [] => [[]]
  | c :: rest =>
    if c = separator then [] :: pieces separator rest
    else
      match pieces separator rest with
      | [] => [[c]]
      | piece :: others => (c :: piece) :: others

/-- The text with every occurrence of one character replaced by another. -/
def replace (old new : Char) (s : String) : String :=
  String.ofList (s.toList.map fun c => if c = old then new else c)

/-- The text without slashes at its end. -/
def trimSlashes (s : String) : String :=
  String.ofList (s.toList.reverse.dropWhile (· == '/')).reverse

theorem append_of_isPrefixOf? {s text rest : List Char} (h : s.isPrefixOf? text = some rest) :
    text = s ++ rest := by
  induction s generalizing text with
  | nil =>
    cases text with
    | nil => exact Option.some.inj h
    | cons c text => exact Option.some.inj h
  | cons c s ih =>
    cases text with
    | nil => cases h
    | cons d text =>
      change (if (c == d) = true then s.isPrefixOf? text else none) = some rest at h
      by_cases hcd : (c == d) = true
      · rw [if_pos hcd] at h
        rw [ih h, eq_of_beq hcd, List.cons_append]
      · rw [if_neg hcd] at h
        cases h

theorem eq_append_of_splitFirst? {separator s before after : List Char}
    (h : splitFirst? separator s = some (before, after)) : s = before ++ separator ++ after := by
  induction s generalizing before with
  | nil =>
    unfold splitFirst? at h
    split at h <;> simp_all
  | cons c rest ih =>
    unfold splitFirst? at h
    split at h
    · rename_i tail heq
      simp only [Option.some.injEq, Prod.mk.injEq] at h
      rw [append_of_isPrefixOf? heq, ← h.1, ← h.2, List.nil_append]
    · obtain ⟨⟨b, a⟩, hs, he⟩ := Option.map_eq_some_iff.1 h
      simp only [Prod.mk.injEq] at he
      obtain ⟨rfl, rfl⟩ := he
      simp [ih hs]

theorem pieces_eq_splitOn (separator : Char) (s : List Char) :
    pieces separator s = s.splitOn separator := by
  induction s with
  | nil => rfl
  | cons c rest ih =>
    have hne := List.splitOn_ne_nil separator rest
    rw [List.splitOn_cons_eq_if_modifyHead, pieces, ih]
    by_cases h : c = separator
    · rw [if_pos h, if_pos (beq_iff_eq.mpr h)]
    · rw [if_neg h, if_neg fun heq => h (eq_of_beq heq)]
      cases hrest : rest.splitOn separator with
      | nil => exact absurd hrest hne
      | cons piece others => rfl

theorem pieces_append_cons (separator : Char) (s t : List Char) :
    pieces separator (s ++ separator :: t) = pieces separator s ++ pieces separator t := by
  induction s with
  | nil => exact if_pos rfl
  | cons c s ih =>
    rw [List.cons_append, pieces, pieces, ih]
    by_cases h : c = separator
    · rw [if_pos h, if_pos h, List.cons_append]
    · rw [if_neg h, if_neg h]
      cases hpieces : pieces separator s with
      | nil =>
        rw [pieces_eq_splitOn] at hpieces
        exact absurd hpieces (List.splitOn_ne_nil separator s)
      | cons piece others => rfl

theorem pieces_of_not_mem {separator : Char} {s : List Char} (h : separator ∉ s) :
    pieces separator s = [s] := by
  rw [pieces_eq_splitOn, List.splitOn_eq_singleton h]

theorem not_mem_of_mem_pieces {separator : Char} {s piece : List Char}
    (h : piece ∈ pieces separator s) : separator ∉ piece := by
  induction s generalizing piece with
  | nil =>
    rw [List.mem_singleton.mp h]
    exact List.not_mem_nil
  | cons c s ih =>
    rw [pieces] at h
    by_cases hc : c = separator
    · rw [if_pos hc] at h
      rcases List.mem_cons.mp h with rfl | h
      · exact List.not_mem_nil
      · exact ih h
    · rw [if_neg hc] at h
      cases hpieces : pieces separator s with
      | nil =>
        rw [hpieces] at h
        rw [List.mem_singleton.mp h]
        simpa using Ne.symm hc
      | cons first others =>
        rw [hpieces] at h ih
        rcases List.mem_cons.mp h with rfl | h
        · simpa [Ne.symm hc] using ih List.mem_cons_self
        · exact ih (List.mem_cons_of_mem _ h)

end IssueBridge.Text
