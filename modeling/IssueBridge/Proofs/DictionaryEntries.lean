import IssueBridge.Dictionary
import Mathlib.Tactic.ByContra
import Mathlib.Tactic.Lemma
import Mathlib.Tactic.SplitIfs

/-!
# Entries of dictionaries

What is found under a key after entries were put into a dictionary: the last one of them with that
key, or what was there before. A dictionary is determined by what is found under each key.
-/

namespace IssueBridge.Proofs

variable {α β : Type}

/-- The keys ascend. -/
def Ascending (d : Dictionary α) : Prop :=
  d.Pairwise fun a b => a.1 < b.1

theorem get?_insertAll (d : Dictionary α) (entries : List (String × α)) (k : String) :
    (d.insertAll entries).get? k = (List.lookup k entries.reverse).or (d.get? k) := by
  induction entries generalizing d with
  | nil => simp [Dictionary.insertAll]
  | cons entry entries ih =>
    obtain ⟨l, a⟩ := entry
    have hstep : d.insertAll ((l, a) :: entries) = (d.insert l a).insertAll entries := rfl
    rw [hstep, ih, List.reverse_cons, List.lookup_append, Option.or_assoc]
    congr 1
    by_cases h : k = l
    · subst h
      rw [Dictionary.get?_insert_self]
      simp
    · rw [Dictionary.get?_insert_of_ne d a h]
      have hne : (k == l) = false := by simpa using h
      rw [List.lookup_cons, hne, List.lookup_nil, Option.none_or]

lemma mem_insert {d : Dictionary α} {k : String} {a : α} {entry : String × α}
    (h : entry ∈ d.insert k a) : entry = (k, a) ∨ entry ∈ d := by
  induction d with
  | nil => exact Or.inl (List.mem_singleton.mp h)
  | cons head d ih =>
    obtain ⟨l, b⟩ := head
    unfold Dictionary.insert at h
    split_ifs at h
    · rcases List.mem_cons.mp h with h | h
      · exact Or.inl h
      · exact Or.inr (List.mem_cons_of_mem _ h)
    · rcases List.mem_cons.mp h with h | h
      · exact Or.inl h
      · exact Or.inr h
    · rcases List.mem_cons.mp h with h | h
      · exact Or.inr (h ▸ List.mem_cons_self)
      · rcases ih h with h | h
        · exact Or.inl h
        · exact Or.inr (List.mem_cons_of_mem _ h)

lemma ascending_insert {d : Dictionary α} (h : Ascending d) (k : String) (a : α) :
    Ascending (d.insert k a) := by
  induction d with
  | nil => exact List.pairwise_singleton _ _
  | cons head d ih =>
    obtain ⟨l, b⟩ := head
    obtain ⟨hhead, htail⟩ := List.pairwise_cons.mp h
    unfold Dictionary.insert
    by_cases heq : k = l
    · rw [if_pos heq]
      subst heq
      exact List.pairwise_cons.mpr ⟨hhead, htail⟩
    · rw [if_neg heq]
      by_cases hlt : k < l
      · rw [if_pos hlt]
        refine List.pairwise_cons.mpr ⟨fun entry hentry => ?_, h⟩
        rcases List.mem_cons.mp hentry with rfl | hentry
        · exact hlt
        · exact String.lt_trans hlt (hhead entry hentry)
      · rw [if_neg hlt]
        refine List.pairwise_cons.mpr ⟨fun entry hentry => ?_, ih htail⟩
        rcases mem_insert hentry with rfl | hentry
        · by_contra hnot
          exact heq (String.le_antisymm hnot (String.not_lt.mp hlt))
        · exact hhead entry hentry

lemma ascending_insertAll {d : Dictionary α} (h : Ascending d) (entries : List (String × α)) :
    Ascending (d.insertAll entries) := by
  induction entries generalizing d with
  | nil => exact h
  | cons entry entries ih => exact ih (ascending_insert h entry.1 entry.2)

/-- The first of ascending keys is not among the others. -/
lemma get?_tail {d : Dictionary α} {k : String} {a : α} (h : Ascending ((k, a) :: d)) :
    d.get? k = none := by
  unfold Dictionary.get?
  rw [List.lookup_eq_none_iff]
  intro entry hentry
  simpa using String.ne_of_lt ((List.pairwise_cons.mp h).1 entry hentry)

lemma lookup_reverse {d : Dictionary α} (h : Ascending d) (k : String) :
    List.lookup k d.reverse = d.get? k := by
  induction d with
  | nil => rfl
  | cons head d ih =>
    obtain ⟨l, a⟩ := head
    unfold Dictionary.get?
    rw [List.reverse_cons, List.lookup_append, ih (List.pairwise_cons.mp h).2, List.lookup_cons]
    by_cases hkl : k = l
    · subst hkl
      rw [get?_tail h]
      simp
    · have hne : (k == l) = false := by simpa using hkl
      rw [hne, List.lookup_cons, hne, List.lookup_nil, Option.or_none]
      rfl

lemma get?_ofList (entries : List (String × α)) (k : String) :
    (Dictionary.ofList entries).get? k = List.lookup k entries.reverse := by
  unfold Dictionary.ofList
  rw [get?_insertAll]
  simp [Dictionary.get?]

/-- Putting in a dictionary that was made of entries is putting in the entries. -/
theorem get?_insertAll_ofList (d : Dictionary α) (entries : List (String × α)) (k : String) :
    (d.insertAll (Dictionary.ofList entries)).get? k =
      (List.lookup k entries.reverse).or (d.get? k) := by
  have hreverse : List.lookup k (Dictionary.ofList entries).reverse =
      (Dictionary.ofList entries).get? k :=
    lookup_reverse (ascending_insertAll List.Pairwise.nil entries) k
  rw [get?_insertAll, hreverse, get?_ofList]

lemma get?_cons (k l : String) (a : α) (d : Dictionary α) :
    Dictionary.get? ((l, a) :: d) k = if k = l then some a else d.get? k := by
  unfold Dictionary.get?
  rw [List.lookup_cons]
  by_cases h : k = l
  · simp [h]
  · have hne : (k == l) = false := by simpa using h
    rw [hne, if_neg h]

/-- No key of ascending entries is below the first one. -/
lemma get?_of_lt {d : Dictionary α} {k l : String} {a : α} (h : Ascending ((l, a) :: d))
    (hlt : k < l) : Dictionary.get? ((l, a) :: d) k = none := by
  have hbelow : Ascending ((k, a) :: (l, a) :: d) := by
    refine List.pairwise_cons.mpr ⟨fun entry hentry => ?_, h⟩
    rcases List.mem_cons.mp hentry with rfl | hentry
    · exact hlt
    · exact String.lt_trans hlt ((List.pairwise_cons.mp h).1 entry hentry)
  exact get?_tail hbelow

/-- Ascending entries are determined by what is found under each key. -/
theorem eq_of_get? {d d' : Dictionary α} (h : Ascending d) (h' : Ascending d')
    (hget : ∀ k, d.get? k = d'.get? k) : d = d' := by
  induction d generalizing d' with
  | nil =>
    cases d' with
    | nil => rfl
    | cons head d' =>
      have hhead := hget head.1
      rw [get?_cons, if_pos rfl] at hhead
      cases hhead
  | cons head d ih =>
    obtain ⟨k, a⟩ := head
    cases d' with
    | nil =>
      have hhead := hget k
      rw [get?_cons, if_pos rfl] at hhead
      cases hhead
    | cons head' d' =>
      obtain ⟨k', a'⟩ := head'
      -- Each of the two first keys is found in the other dictionary, so neither is below the other.
      have hkey : k = k' := by
        refine String.le_antisymm ?_ ?_
        · refine String.not_lt.mp fun hlt => ?_
          have hfound := hget k'
          rw [get?_of_lt h hlt, get?_cons, if_pos rfl] at hfound
          cases hfound
        · refine String.not_lt.mp fun hlt => ?_
          have hfound := hget k
          rw [get?_of_lt h' hlt, get?_cons, if_pos rfl] at hfound
          cases hfound
      subst hkey
      have hvalue := hget k
      rw [get?_cons, get?_cons, if_pos rfl, if_pos rfl, Option.some.injEq] at hvalue
      subst hvalue
      congr 1
      refine ih (List.pairwise_cons.mp h).2 (List.pairwise_cons.mp h').2 fun l => ?_
      by_cases hl : l = k
      · subst hl
        rw [get?_tail h, get?_tail h']
      · have hrest := hget l
        rwa [get?_cons, get?_cons, if_neg hl, if_neg hl] at hrest

lemma ofList_of_ascending {d : Dictionary α} (h : Ascending d) : Dictionary.ofList d = d :=
  eq_of_get? (ascending_insertAll List.Pairwise.nil d) h fun k => by
    rw [get?_ofList, lookup_reverse h]

lemma ascending_ofList (entries : List (String × α)) : Ascending (Dictionary.ofList entries) :=
  ascending_insertAll List.Pairwise.nil entries

/-! ## Distinct keys -/

lemma insert_perm {d : Dictionary α} {k : String} (h : k ∉ d.map Prod.fst) (a : α) :
    (d.insert k a).Perm ((k, a) :: d) := by
  induction d with
  | nil => exact .refl _
  | cons head d ih =>
    obtain ⟨l, b⟩ := head
    obtain ⟨hne, hrest⟩ := not_or.mp (mt List.mem_cons.mpr h)
    unfold Dictionary.insert
    rw [if_neg hne]
    split
    · exact .refl _
    · exact ((ih hrest).cons (l, b)).trans (.swap (k, a) (l, b) d)

lemma insertAll_perm {d : Dictionary α} {entries : List (String × α)}
    (h : ((d ++ entries).map Prod.fst).Nodup) : (d.insertAll entries).Perm (d ++ entries) := by
  induction entries generalizing d with
  | nil =>
    rw [List.append_nil]
    exact .refl d
  | cons entry entries ih =>
    obtain ⟨k, a⟩ := entry
    have hperm : (d.insert k a ++ entries).Perm (d ++ (k, a) :: entries) := by
      have hnew : k ∉ d.map Prod.fst := by
        rw [List.map_append] at h
        exact fun hk => (List.nodup_append.mp h).2.2 k hk k List.mem_cons_self rfl
      exact ((insert_perm hnew a).append_right entries).trans List.perm_middle.symm
    exact (ih ((hperm.map Prod.fst).nodup_iff.mpr h)).trans hperm

/-- Entries with distinct keys all stay. -/
lemma ofList_perm {entries : List (String × α)} (h : (entries.map Prod.fst).Nodup) :
    (Dictionary.ofList entries).Perm entries :=
  insertAll_perm (d := []) h

/-! ## Parts of dictionaries -/

lemma get?_filter_key (p : String → Bool) (d : Dictionary α) (k : String) :
    Dictionary.get? (d.filter fun entry => p entry.1) k = if p k then d.get? k else none := by
  induction d with
  | nil => simp [Dictionary.get?]
  | cons head d ih =>
    obtain ⟨l, a⟩ := head
    rw [List.filter_cons, get?_cons]
    by_cases hl : p l = true
    · rw [if_pos hl, get?_cons, ih]
      by_cases hk : k = l
      · rw [if_pos hk, if_pos hk, hk, if_pos hl]
      · rw [if_neg hk, if_neg hk]
    · rw [if_neg hl, ih]
      by_cases hk : k = l
      · rw [hk, if_neg hl, if_neg hl]
      · rw [if_neg hk]

lemma get?_map_value (f : α → β) (d : Dictionary α) (k : String) :
    Dictionary.get? (d.map fun entry => (entry.1, f entry.2)) k = (d.get? k).map f := by
  induction d with
  | nil => rfl
  | cons head d ih =>
    obtain ⟨l, a⟩ := head
    rw [List.map_cons, get?_cons, get?_cons, ih]
    split <;> rfl

lemma get?_filter_value {d : Dictionary α} (h : Ascending d) (p : α → Bool) (k : String) :
    Dictionary.get? (d.filter fun entry => p entry.2) k = (d.get? k).filter p := by
  induction d with
  | nil => rfl
  | cons head d ih =>
    obtain ⟨l, a⟩ := head
    have hrest := ih (List.pairwise_cons.mp h).2
    rw [List.filter_cons, get?_cons]
    by_cases hk : k = l
    · subst hk
      rw [get?_tail h] at hrest
      by_cases ha : p a = true
      · rw [if_pos ha, get?_cons, if_pos rfl, if_pos rfl, Option.filter_some, if_pos ha]
      · rw [if_neg ha, hrest, if_pos rfl, Option.filter_some, if_neg ha]
        rfl
    · rw [if_neg hk, ← hrest]
      split
      · rw [get?_cons, if_neg hk]
      · rfl

/-- The entries of a dictionary with a given key: the one that is found, or none. -/
lemma filter_key {d : Dictionary α} (h : Ascending d) (k : String) :
    d.filter (fun entry => entry.1 == k) = ((d.get? k).map fun a => (k, a)).toList := by
  induction d with
  | nil => rfl
  | cons head d ih =>
    obtain ⟨l, a⟩ := head
    have hrest := ih (List.pairwise_cons.mp h).2
    rw [List.filter_cons, get?_cons, hrest]
    by_cases hk : k = l
    · subst hk
      simp [get?_tail h]
    · have hne : (l == k) = false := beq_eq_false_iff_ne.mpr fun heq => hk heq.symm
      rw [hne, if_neg hk]
      rfl

lemma ascending_filter {d : Dictionary α} (h : Ascending d) (p : String × α → Bool) :
    Ascending (d.filter p) :=
  List.Pairwise.filter p h

lemma ascending_map {d : Dictionary α} (h : Ascending d) (f : α → β) :
    Ascending (d.map fun entry => (entry.1, f entry.2)) :=
  List.pairwise_map.mpr h

end IssueBridge.Proofs
