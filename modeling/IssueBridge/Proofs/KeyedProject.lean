import IssueBridge.Pass.Memory
import Mathlib.Data.List.Nodup
import Mathlib.Tactic.Lemma

/-!
# Projects with unique keys

An issue of a project is known by its key and a comment by its identifier on its issue, so a write
changes one of them and leaves all others in place.
-/

namespace IssueBridge.Proofs

/-- No two issues share a key, and no two comments of one issue an identifier. -/
structure Orderly (project : List Jira.Issue) : Prop where
  keys : (project.map Jira.Issue.key).Nodup
  comments : ∀ j ∈ project, (j.comments.map Jira.Comment.id).Nodup

/-- The project with an issue in place of the one that has its key. -/
def replaced (j : Jira.Issue) (project : List Jira.Issue) : List Jira.Issue :=
  project.map fun i => if i.key = j.key then j else i

/-- The comments with another text in the one that has an identifier. -/
def rewritten (id body : String) (comments : List Jira.Comment) : List Jira.Comment :=
  comments.map fun t => if t.id = id then { t with body } else t

lemma eq_of_key_eq {project : List Jira.Issue} (hkeys : (project.map Jira.Issue.key).Nodup)
    {i j : Jira.Issue} (hi : i ∈ project) (hj : j ∈ project) (h : i.key = j.key) : i = j :=
  List.inj_on_of_nodup_map hkeys hi hj h

lemma find?_key {project : List Jira.Issue} (hkeys : (project.map Jira.Issue.key).Nodup)
    {j : Jira.Issue} (hj : j ∈ project) : project.find? (fun i => i.key == j.key) = some j := by
  cases hfind : project.find? (fun i => i.key == j.key) with
  | none =>
    have hnone := List.find?_eq_none.mp hfind j hj
    simp at hnone
  | some i =>
    have hkey : i.key = j.key := by simpa using List.find?_some hfind
    rw [eq_of_key_eq hkeys (List.mem_of_find?_eq_some hfind) hj hkey]

/-- Changing the first item that is wanted changes every item that is, if there is only one. -/
lemma changeFirst_eq_map {α κ : Type} [DecidableEq κ] (key : α → κ) (k : κ) (f : α → α)
    {items changed : List α} (hkeys : (items.map key).Nodup)
    (h : Memory.changeFirst (fun a => key a == k) f items = some changed) :
    changed = items.map fun a => if key a = k then f a else a := by
  induction items generalizing changed with
  | nil => cases h
  | cons a rest ih =>
    rw [List.map_cons, List.nodup_cons] at hkeys
    unfold Memory.changeFirst at h
    by_cases hk : key a = k
    · rw [if_pos (by simpa using hk)] at h
      obtain rfl := Option.some.inj h
      have hrest : ∀ b ∈ rest, (if key b = k then f b else b) = b := by
        intro b hb
        refine if_neg fun hbk => hkeys.1 ?_
        rw [hk, ← hbk]
        exact List.mem_map_of_mem hb
      rw [List.map_cons, if_pos hk, List.map_congr_left hrest, List.map_id']
    · rw [if_neg (by simpa using hk)] at h
      obtain ⟨rest', hrest, rfl⟩ := Option.map_eq_some_iff.mp h
      rw [List.map_cons, if_neg hk, ih hkeys.2 hrest]

/-- Only an item that is wanted can be changed. -/
lemma exists_of_changeFirst {α : Type} {p : α → Bool} {f : α → α}
    {items changed : List α} (h : Memory.changeFirst p f items = some changed) :
    ∃ a ∈ items, p a = true := by
  induction items generalizing changed with
  | nil => cases h
  | cons a rest ih =>
    unfold Memory.changeFirst at h
    by_cases hw : p a = true
    · exact ⟨a, List.mem_cons_self, hw⟩
    · rw [if_neg hw] at h
      obtain ⟨rest', hrest, -⟩ := Option.map_eq_some_iff.mp h
      obtain ⟨b, hb, hwb⟩ := ih hrest
      exact ⟨b, List.mem_cons_of_mem a hb, hwb⟩

lemma changeFirst_isSome {α : Type} {p : α → Bool} {f : α → α} {items : List α}
    {a : α} (ha : a ∈ items) (hw : p a = true) :
    ∃ changed, Memory.changeFirst p f items = some changed := by
  induction items with
  | nil => cases ha
  | cons b rest ih =>
    unfold Memory.changeFirst
    by_cases hb : p b = true
    · exact ⟨_, if_pos hb⟩
    · rcases List.mem_cons.mp ha with rfl | hrest
      · exact absurd hw hb
      · obtain ⟨changed, hchanged⟩ := ih hrest
        refine ⟨b :: changed, ?_⟩
        rw [if_neg hb, hchanged, Option.map_some]

lemma map_key_replaced (j : Jira.Issue) (project : List Jira.Issue) :
    (replaced j project).map Jira.Issue.key = project.map Jira.Issue.key := by
  unfold replaced
  rw [List.map_map]
  refine List.map_congr_left fun i _ => ?_
  by_cases h : i.key = j.key
  · simp [h]
  · simp [h]

lemma map_id_rewritten (id body : String) (comments : List Jira.Comment) :
    (rewritten id body comments).map Jira.Comment.id = comments.map Jira.Comment.id := by
  unfold rewritten
  rw [List.map_map]
  refine List.map_congr_left fun t _ => ?_
  by_cases h : t.id = id
  · simp [h]
  · simp [h]

lemma mem_replaced_self {i j : Jira.Issue} {project : List Jira.Issue} (hi : i ∈ project)
    (hkey : i.key = j.key) : j ∈ replaced j project :=
  List.mem_map.mpr ⟨i, hi, if_pos hkey⟩

lemma mem_replaced_of_ne {i j : Jira.Issue} {project : List Jira.Issue} (hi : i ∈ project)
    (hkey : i.key ≠ j.key) : i ∈ replaced j project :=
  List.mem_map.mpr ⟨i, hi, if_neg hkey⟩

lemma replaced_replaced {i j : Jira.Issue} (project : List Jira.Issue) (hkey : i.key = j.key) :
    replaced j (replaced i project) = replaced j project := by
  unfold replaced
  rw [List.map_map]
  refine List.map_congr_left fun k _ => ?_
  rw [Function.comp_apply]
  by_cases h : k.key = i.key
  · rw [if_pos h, if_pos hkey, if_pos (h.trans hkey)]
  · rw [if_neg h]

lemma replaced_self {j : Jira.Issue} {project : List Jira.Issue}
    (hkeys : (project.map Jira.Issue.key).Nodup) (hj : j ∈ project) :
    replaced j project = project := by
  unfold replaced
  have hsame : ∀ i ∈ project, (if i.key = j.key then j else i) = i := by
    intro i hi
    by_cases h : i.key = j.key
    · rw [if_pos h, eq_of_key_eq hkeys hi hj h]
    · rw [if_neg h]
  rw [List.map_congr_left hsame, List.map_id']

lemma orderly_replaced {j : Jira.Issue} {project : List Jira.Issue} (h : Orderly project)
    (hj : (j.comments.map Jira.Comment.id).Nodup) : Orderly (replaced j project) := by
  refine ⟨?_, ?_⟩
  · rw [map_key_replaced]
    exact h.keys
  · intro k hk
    obtain ⟨l, hl, rfl⟩ := List.mem_map.mp hk
    by_cases hlj : l.key = j.key
    · rw [if_pos hlj]
      exact hj
    · rw [if_neg hlj]
      exact h.comments l hl

lemma orderly_append {j : Jira.Issue} {project : List Jira.Issue} (h : Orderly project)
    (hkey : j.key ∉ project.map Jira.Issue.key) (hj : (j.comments.map Jira.Comment.id).Nodup) :
    Orderly (project ++ [j]) := by
  refine ⟨?_, ?_⟩
  · rw [List.map_append, List.map_singleton]
    exact List.nodup_append.mpr
      ⟨h.keys, List.nodup_singleton _, fun a ha b hb hab => hkey (by simp_all)⟩
  · intro k hk
    rcases List.mem_append.mp hk with hk | hk
    · exact h.comments k hk
    · obtain rfl := List.mem_singleton.mp hk
      exact hj

end IssueBridge.Proofs
