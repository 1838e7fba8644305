import IssueBridge.Proofs.JiraListing
import Mathlib.Data.List.Forall2

/-!
# Issue plans as matchings

A plan has one task for each GitHub issue, by the first Jira issue that stands for it. Jira issues
that stand for none of the GitHub issues leave the plan as it is wherever they are listed, so it
does not matter whether a listing is of the whole project or of the mirrors only.
-/

namespace IssueBridge.Proofs

open IssuePlan
open Jira (FieldNumbers mirrorsOf)

variable {ids : FieldNumbers} {source : List GitHub.Issue} {target target' : List Jira.Issue}
  {g h : GitHub.Issue} {j : Jira.Issue} {a : IssueTask} {plan : List IssueTask}

/-- What a GitHub issue asks for beside some Jira issues. -/
inductive Suits (ids : FieldNumbers) (target : List Jira.Issue) (g : GitHub.Issue) :
    IssueTask → Prop
  | update {before after : List Jira.Issue} {j : Jira.Issue}
      (hsplit : target = before ++ j :: after)
      (hbefore : ∀ i ∈ before, githubId? ids i ≠ some g.id) (hj : githubId? ids j = some g.id) :
    Suits ids target g (.update g j)
  | create (hnone : ∀ j ∈ target, githubId? ids j ≠ some g.id) : Suits ids target g (.create g)

/-- A Jira issue stands for none of some GitHub issues. -/
def Unrelated (ids : FieldNumbers) (source : List GitHub.Issue) (j : Jira.Issue) : Prop :=
  githubId? ids j = none ∨ ∃ n, githubId? ids j = some n ∧ n ∉ source.map GitHub.Issue.id

/-- Two listings of Jira issues differ by unrelated ones, which either of them may have anywhere. -/
inductive Padded (ids : FieldNumbers) (source : List GitHub.Issue) :
    List Jira.Issue → List Jira.Issue → Prop
  | nil : Padded ids source [] []
  | keep (j : Jira.Issue) {target target' : List Jira.Issue} :
    Padded ids source target target' → Padded ids source (j :: target) (j :: target')
  | remove {j : Jira.Issue} {target target' : List Jira.Issue} :
    Unrelated ids source j → Padded ids source target target' →
      Padded ids source (j :: target) target'
  | insert {j : Jira.Issue} {target target' : List Jira.Issue} :
    Unrelated ids source j → Padded ids source target target' →
      Padded ids source target (j :: target')

/-- The two parts of a plan, described by the GitHub issues and within the plan. -/
structure Parted (ids : FieldNumbers) (source : List GitHub.Issue) (target : List Jira.Issue)
    (plan : List IssueTask) : Prop where
  creations : creations plan =
    source.filter fun g => target.all fun j => githubId? ids j != some g.id
  updates : (updates plan).map Prod.fst =
    source.filter fun g => target.any fun j => githubId? ids j == some g.id
  paired : ∀ g j, (g, j) ∈ IssuePlan.updates plan → Suits ids target g (.update g j)
  created_sublist : ((IssuePlan.creations plan).map IssueTask.create).Sublist plan
  updated_sublist : ((IssuePlan.updates plan).map fun (g, j) => IssueTask.update g j).Sublist plan
  length : (IssuePlan.creations plan).length + (IssuePlan.updates plan).length = source.length

/-! ## One task -/

lemma counterpart_eq_some_iff :
    counterpart ids target g = some j ↔ githubId? ids j = some g.id ∧
      ∃ before after, target = before ++ j :: after ∧
        ∀ i ∈ before, githubId? ids i ≠ some g.id := by
  unfold counterpart
  rw [List.find?_eq_some_iff_append]
  simp

lemma counterpart_eq_none_iff :
    counterpart ids target g = none ↔ ∀ j ∈ target, githubId? ids j ≠ some g.id := by
  unfold counterpart
  rw [List.find?_eq_none]
  simp

lemma taskOf_eq_iff : taskOf ids target g = a ↔ Suits ids target g a := by
  unfold taskOf
  constructor
  · rintro rfl
    cases hfind : counterpart ids target g with
    | some j =>
      obtain ⟨hj, before, after, hsplit, hbefore⟩ := counterpart_eq_some_iff.mp hfind
      exact .update hsplit hbefore hj
    | none => exact .create (counterpart_eq_none_iff.mp hfind)
  · rintro (⟨hsplit, hbefore, hj⟩ | hnone)
    · rw [counterpart_eq_some_iff.mpr ⟨hj, _, _, hsplit, hbefore⟩]
    · rw [counterpart_eq_none_iff.mpr hnone]

lemma id_of_suits (hsuits : Suits ids target g (.update h j)) :
    h = g ∧ githubId? ids j = some g.id := by
  cases hsuits with
  | update _ _ hj => exact ⟨rfl, hj⟩

/-! ## All tasks -/

lemma tasks_eq_iff :
    tasks source target ids = plan ↔ List.Forall₂ (Suits ids target) source plan := by
  unfold tasks
  rw [← List.forall₂_eq_eq_eq, List.forall₂_map_left_iff]
  simp only [taskOf_eq_iff]

/-- A Jira issue that goes with two GitHub issues holds both numbers. -/
lemma id_eq_of_shared (hg : .update g j ∈ tasks source target ids)
    (hh : .update h j ∈ tasks source target ids) : g.id = h.id := by
  obtain ⟨g', -, hg⟩ := List.mem_map.mp hg
  obtain ⟨h', -, hh⟩ := List.mem_map.mp hh
  obtain ⟨rfl, hj⟩ := id_of_suits (taskOf_eq_iff.mp hg)
  obtain ⟨rfl, hj'⟩ := id_of_suits (taskOf_eq_iff.mp hh)
  exact Option.some.inj (hj.symm.trans hj')

lemma parted_cons_create (hnone : ∀ j ∈ target, githubId? ids j ≠ some g.id)
    (hrest : Parted ids source target plan) :
    Parted ids (g :: source) target (.create g :: plan) := by
  have hall : (target.all fun j => githubId? ids j != some g.id) = true := by simpa using hnone
  have hany : (target.any fun j => githubId? ids j == some g.id) = false := by simpa using hnone
  obtain ⟨hcreations, hupdates, hpaired, hcreated, hupdated, hlength⟩ := hrest
  refine ⟨?_, ?_, hpaired, hcreated.cons_cons _, hupdated.cons _, ?_⟩
  · rw [List.filter_cons, if_pos hall, ← hcreations]
    rfl
  · rw [List.filter_cons, if_neg (Bool.eq_false_iff.mp hany), ← hupdates]
    rfl
  · rw [List.length_cons, ← hlength]
    exact Nat.add_right_comm _ 1 _

lemma parted_cons_update (hsuits : Suits ids target g (.update g j)) (hmem : j ∈ target)
    (hrest : Parted ids source target plan) :
    Parted ids (g :: source) target (.update g j :: plan) := by
  have hj := (id_of_suits hsuits).2
  have hany : (target.any fun j => githubId? ids j == some g.id) = true :=
    List.any_eq_true.mpr ⟨j, hmem, by simpa using hj⟩
  have hall : (target.all fun j => githubId? ids j != some g.id) = false :=
    List.all_eq_false.mpr ⟨j, hmem, by simpa using hj⟩
  obtain ⟨hcreations, hupdates, hpaired, hcreated, hupdated, hlength⟩ := hrest
  refine ⟨?_, ?_, fun g' j' hpair => ?_, hcreated.cons _, hupdated.cons_cons _, ?_⟩
  · rw [List.filter_cons, if_neg (Bool.eq_false_iff.mp hall), ← hcreations]
    rfl
  · rw [List.filter_cons, if_pos hany, ← hupdates]
    rfl
  · rcases List.mem_cons.mp hpair with heq | hpair
    · obtain ⟨rfl, rfl⟩ := Prod.mk.inj heq
      exact hsuits
    · exact hpaired g' j' hpair
  · rw [List.length_cons, ← hlength]
    rfl

lemma parted_of_suits (hplan : List.Forall₂ (Suits ids target) source plan) :
    Parted ids source target plan := by
  induction hplan with
  | nil => exact ⟨rfl, rfl, by simp [IssuePlan.updates], .slnil, .slnil, rfl⟩
  | @cons g a source plan hsuits _ hrest =>
    cases hsuits with
    | update hsplit hbefore hj =>
      refine parted_cons_update (.update hsplit hbefore hj) ?_ hrest
      rw [hsplit]
      exact List.mem_append_right _ List.mem_cons_self
    | create hnone => exact parted_cons_create hnone hrest

/-! ## Unrelated issues -/

lemma ne_of_unrelated (hj : Unrelated ids source j) (hg : g ∈ source) :
    githubId? ids j ≠ some g.id := by
  rcases hj with hnone | ⟨n, hn, hsource⟩
  · rw [hnone]
    simp
  · rw [hn]
    intro heq
    rw [Option.some.inj heq] at hsource
    exact hsource (List.mem_map_of_mem hg)

lemma counterpart_cons_of_ne (hne : githubId? ids j ≠ some g.id) (target : List Jira.Issue) :
    counterpart ids (j :: target) g = counterpart ids target g := by
  unfold counterpart
  exact List.find?_cons_of_neg (by simpa using hne)

lemma counterpart_padded (hpad : Padded ids source target target') (hg : g ∈ source) :
    counterpart ids target' g = counterpart ids target g := by
  induction hpad with
  | nil => rfl
  | keep j _ ih =>
    unfold counterpart at ih ⊢
    rw [List.find?_cons, List.find?_cons, ih]
  | remove hj _ ih => rw [ih, counterpart_cons_of_ne (ne_of_unrelated hj hg)]
  | insert hj _ ih => rw [counterpart_cons_of_ne (ne_of_unrelated hj hg), ih]

lemma tasks_padded (hpad : Padded ids source target target') :
    tasks source target' ids = tasks source target ids := by
  unfold tasks
  refine List.map_congr_left fun g hg => ?_
  unfold taskOf
  rw [counterpart_padded hpad hg]

/-- The mirrors of some GitHub issues are a listing without the unrelated Jira issues. -/
lemma padded_mirrorsOf (ids : FieldNumbers) (source : List GitHub.Issue)
    (target : List Jira.Issue) :
    Padded ids source target (mirrorsOf ids (source.map GitHub.Issue.id) target) := by
  unfold mirrorsOf
  induction target with
  | nil => exact .nil
  | cons j target ih =>
    rw [List.filter_cons]
    split
    · exact .keep j ih
    · rename_i hother
      refine .remove ?_ ih
      cases hid : githubId? ids j with
      | none => exact Or.inl hid
      | some n => exact Or.inr ⟨n, hid, by simpa [hid] using hother⟩

/-- A plan is the one that has for each GitHub issue, in their order, an update of the first Jira
issue that stands for it, or its creation if there is none. Its two parts are found in the same
order, no Jira issue is in two updates for different numbers, and unrelated Jira issues do not
matter: the client may drop them from what it found. -/
theorem plans_match (source : List GitHub.Issue) (target : List Jira.Issue) (ids : FieldNumbers) :
    (∀ plan, tasks source target ids = plan ↔
      List.Forall₂ (Suits ids target) source plan) ∧
    (∀ g h j, .update g j ∈ tasks source target ids → .update h j ∈ tasks source target ids →
      g.id = h.id) ∧
    Parted ids source target (tasks source target ids) ∧
    (∀ target', Padded ids source target target' →
      tasks source target' ids = tasks source target ids) ∧
    tasks source (mirrorsOf ids (source.map GitHub.Issue.id) target) ids =
      tasks source target ids ∧
    ∀ {σ : Type} (c : Jira.Client σ), c.ids = ids →
      tasks source (c.kept (source.map GitHub.Issue.id) target) ids =
        tasks source target ids := by
  have hmirrors := tasks_padded (padded_mirrorsOf ids source target)
  refine ⟨fun plan => tasks_eq_iff, fun g h j => id_eq_of_shared,
    parted_of_suits (tasks_eq_iff.mp rfl), fun target' => tasks_padded, hmirrors, ?_⟩
  rintro σ c rfl
  unfold Jira.Client.kept
  split
  · rfl
  · rw [Jira.Client.standsFor_eq]
    exact hmirrors

end IssueBridge.Proofs
