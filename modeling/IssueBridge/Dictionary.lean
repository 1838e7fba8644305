/-!
# Dictionaries

Values under distinct keys, listed in the order of the keys.
-/

namespace IssueBridge

/-- Entries in ascending order of their keys. -/
abbrev Dictionary (α : Type) := List (String × α)

namespace Dictionary

variable {α : Type}

def get? (d : Dictionary α) (key : String) : Option α :=
  List.lookup key d

/-- Puts a value under a key, in place of the one that may be there. -/
def insert (key : String) (value : α) : Dictionary α → Dictionary α
  | [] => [(key, value)]
  | (k, v) :: rest =>
    if key = k then (key, value) :: rest
    else if key < k then (key, value) :: (k, v) :: rest
    else (k, v) :: insert key value rest

/-- Inserts entries one after another, so that the last one of a key stays. -/
def insertAll (d : Dictionary α) (entries : List (String × α)) : Dictionary α :=
  entries.foldl (fun acc (key, value) => insert key value acc) d

def ofList (entries : List (String × α)) : Dictionary α :=
  insertAll [] entries

theorem get?_insert_self (d : Dictionary α) (key : String) (value : α) :
    (insert key value d).get? key = some value := by
  induction d with
  | nil => simp [insert, get?]
  | cons entry rest ih =>
    obtain ⟨k, v⟩ := entry
    unfold insert
    split
    · simp [get?]
    · split
      · simp [get?]
      · have hne : (key == k) = false := by simpa using ‹¬key = k›
        simpa [get?, List.lookup_cons, hne] using ih

theorem get?_insert_of_ne (d : Dictionary α) {key other : String} (value : α) (h : other ≠ key) :
    (insert key value d).get? other = d.get? other := by
  have hne : (other == key) = false := by simpa using h
  induction d with
  | nil => simp [insert, get?, List.lookup_cons, hne]
  | cons entry rest ih =>
    obtain ⟨k, v⟩ := entry
    unfold insert
    split
    · subst key
      simp [get?, List.lookup_cons, hne]
    · split
      · simp [get?, List.lookup_cons, hne]
      · simp only [get?, List.lookup_cons] at ih ⊢
        split <;> simp_all

end Dictionary

end IssueBridge
