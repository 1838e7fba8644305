import IssueBridge.Proofs.Resumption
import IssueBridge.Proofs.UniqueMirrors
import Mathlib.Data.List.Perm.Basic

/-!
# Completed projects

A pass without failures completes a project: every listed GitHub issue has a Jira issue on which all
work is done. A project that earlier passes brought on in part is completed to the same as the one
they began with.
-/

namespace IssueBridge.Proofs

open IssuePlan (githubId? creations)

variable {s : Setting} {m m₀ : Memory} {g : GitHub.Issue} {i j : Jira.Issue} {w v : World Memory}
  {ids : Jira.FieldNumbers} {issueType : String} {n : Int64} {tasks : List IssueTask}
  {project project' new new' : List Jira.Issue} {failed born born' : List GitHub.Issue}
  {t t' : Jira.Issue → Jira.Issue} {R : GitHub.Issue → Jira.Issue → Jira.Issue → Prop}

/-! ## What passes make of a project -/

/-- Every issue of a project that stands for a listed GitHub issue is followed by one that is
related to it, all others are kept, and new issues are related to the blank issues of their GitHub
issues. -/
structure Followed (ids : Jira.FieldNumbers) (issueType : String) (m : Memory)
    (R : GitHub.Issue → Jira.Issue → Jira.Issue → Prop) (project : List Jira.Issue)
    (t : Jira.Issue → Jira.Issue) (born : List GitHub.Issue) (new : List Jira.Issue) : Prop where
  mirrors : ∀ i ∈ project, ∀ g ∈ m.issues, githubId? ids i = some g.id → R g i (t i)
  others : ∀ i ∈ project, (∀ g ∈ m.issues, githubId? ids i ≠ some g.id) → t i = i
  nodup : born.Nodup
  among : ∀ g ∈ born, g ∈ m.issues ∧ ∀ i ∈ project, githubId? ids i ≠ some g.id
  created : List.Forall₂ (fun g j => ∃ now key, R g (newIssue g ids issueType now key) j) born new

/-- All work on a project is done. -/
def Completed (ids : Jira.FieldNumbers) (issueType : String) (m : Memory)
    (project project' : List Jira.Issue) : Prop :=
  ∃ t born new, project' = project.map t ++ new ∧
    Followed ids issueType m (Finished ids issueType m) project t born new ∧
    ∀ g ∈ m.issues, (∀ i ∈ project, githubId? ids i ≠ some g.id) → g ∈ born

/-- Two issues of a project do not stand for one GitHub issue. -/
lemma eq_of_mirrorCount_le_one (hone : mirrorCount ids n project ≤ 1) (hi : i ∈ project)
    (hj : j ∈ project) (hin : githubId? ids i = some n) (hjn : githubId? ids j = some n) :
    i = j := by
  unfold mirrorCount at hone
  rw [List.countP_eq_length_filter] at hone
  have hi' : i ∈ project.filter fun k => githubId? ids k == some n :=
    List.mem_filter.mpr ⟨hi, by simpa using hin⟩
  have hj' : j ∈ project.filter fun k => githubId? ids k == some n :=
    List.mem_filter.mpr ⟨hj, by simpa using hjn⟩
  cases hlist : project.filter fun k => githubId? ids k == some n with
  | nil =>
    rw [hlist] at hi'
    cases hi'
  | cons a rest =>
    rw [hlist] at hone hi' hj'
    have hrest : rest = [] := by
      rw [List.length_cons] at hone
      exact List.eq_nil_of_length_eq_zero (by omega)
    rw [hrest] at hi' hj'
    rw [List.mem_singleton.mp hi', List.mem_singleton.mp hj']

/-- The only issue that stands for a GitHub issue is the one that its task is for. -/
lemma task_of_mirror (hone : mirrorCount s.ids g.id m.project ≤ 1) (hg : g ∈ m.issues)
    (hi : i ∈ m.project) (hid : githubId? s.ids i = some g.id) : .update g i ∈ s.tasks m := by
  rcases exists_task s hg with hcreate | ⟨j, hupdate⟩
  · exact absurd hid ((mem_tasks_create hcreate).2 i hi)
  · obtain ⟨-, hj, hjd⟩ := mem_tasks_update hupdate
    rw [eq_of_mirrorCount_le_one hone hi hj hid hjd]
    exact hupdate

lemma followed_of_brought (hnumbered : Numbered m)
    (hone : ∀ g ∈ m.issues, mirrorCount s.ids g.id m.project ≤ 1)
    (h : Brought s m (s.tasks m) failed m.project t born new)
    (hR : ∀ g i j, Worked s m failed g i j → R g i j) :
    Followed s.ids s.issueType m R m.project t born new where
  mirrors := by
    intro i hi g hg hid
    exact hR g i (t i) ((h.treated i hi).1 g (task_of_mirror (hone g hg) hg hi hid))
  others := by
    intro i hi hnone
    refine (h.treated i hi).2 fun g hg => ?_
    obtain ⟨hg', -, hid⟩ := mem_tasks_update hg
    exact hnone g hg' hid
  nodup := (hnumbered.issues.of_map _).sublist (h.among.trans (creations_sublist s m))
  among := fun _ hg => task_of_born h hg
  created := by
    refine List.Forall₂.imp (fun g j hgj => ?_) h.created
    obtain ⟨key, hworked⟩ := hgj
    exact ⟨s.now g, key, hR g _ j hworked⟩

/-- A pass in which no issue fails completes a project. -/
lemma completed_of_brought (hnumbered : Numbered m)
    (hone : ∀ g ∈ m.issues, mirrorCount s.ids g.id m.project ≤ 1)
    (h : Brought s m (s.tasks m) [] m.project t born new) :
    Completed s.ids s.issueType m m.project (m.project.map t ++ new) := by
  refine ⟨t, born, new, rfl, ?_, fun g hg hnone => ?_⟩
  · refine followed_of_brought hnumbered hone h fun g i j hworked => hworked.2 ?_
    exact List.not_mem_nil
  · rcases exists_task s hg with hcreate | ⟨j, hupdate⟩
    · exact h.complete g (mem_creations.mpr hcreate) List.not_mem_nil
    · obtain ⟨-, hj, hid⟩ := mem_tasks_update hupdate
      exact absurd hid (hnone j hj)

lemma githubId?_new (hids : Function.Injective ids.number) (hnumbered : Numbered m)
    (hR : ∀ g i j, R g i j → Advanced ids issueType m g i j)
    (h : Followed ids issueType m R project t born new) (hj : j ∈ new) :
    ∃ g ∈ born, githubId? ids j = some g.id := by
  obtain ⟨g, hg, now, key, hgj⟩ := exists_left_of_forall₂ h.created hj
  refine ⟨g, hg, ?_⟩
  rw [githubId?_advanced hids (hR g _ j hgj)]
  exact githubId?_newIssue hids (hnumbered.small g (h.among g hg).1) _ _ key

lemma githubId?_followed (hids : Function.Injective ids.number)
    (hR : ∀ g i j, R g i j → Advanced ids issueType m g i j)
    (h : Followed ids issueType m R project t born new) (hi : i ∈ project) :
    githubId? ids (t i) = githubId? ids i := by
  by_cases hmirror : ∃ g ∈ m.issues, githubId? ids i = some g.id
  · obtain ⟨g, hg, hid⟩ := hmirror
    exact githubId?_advanced hids (hR g i (t i) (h.mirrors i hi g hg hid))
  · rw [h.others i hi fun g hg hid => hmirror ⟨g, hg, hid⟩]

lemma eq_of_issue_id_eq (hnumbered : Numbered m) {g g' : GitHub.Issue} (hg : g ∈ m.issues)
    (hg' : g' ∈ m.issues) (hid : g.id = g'.id) : g = g' :=
  List.inj_on_of_nodup_map hnumbered.issues hg hg' hid

/-- A project that was brought on in part and then completed is completed. -/
theorem completed_resumed (hids : Function.Injective ids.number) (hsnapshot : Snapshot m)
    (horderly : Orderly project)
    (h : Followed ids issueType m (Advanced ids issueType m) project t born new)
    (h' : Completed ids issueType m (project.map t ++ new) project') :
    Completed ids issueType m project project' := by
  obtain ⟨t', born', new', hproject', hfollowed, hall⟩ := h'
  have hid : ∀ i ∈ project, githubId? ids (t i) = githubId? ids i :=
    fun i hi => githubId?_followed hids (fun _ _ _ hR => hR) h hi
  have hold : ∀ i ∈ project, t i ∈ project.map t ++ new :=
    fun i hi => List.mem_append_left _ (List.mem_map_of_mem hi)
  refine ⟨fun i => t' (t i), born ++ born', new.map t' ++ new', ?_, ⟨?_, ?_, ?_, ?_, ?_⟩, ?_⟩
  · rw [hproject', List.map_append, List.map_map, List.append_assoc]
    rfl
  · intro i hi g hg hig
    refine finished_resumed hids (readable_of_snapshot hsnapshot hg) (horderly.comments i hi)
      (h.mirrors i hi g hg hig) (hfollowed.mirrors (t i) (hold i hi) g hg ?_)
    rw [hid i hi]
    exact hig
  · intro i hi hnone
    have hkept := hfollowed.others (t i) (hold i hi) fun g hg => by
      rw [hid i hi]
      exact hnone g hg
    rw [hkept]
    exact h.others i hi hnone
  · refine List.nodup_append.mpr ⟨h.nodup, hfollowed.nodup, fun g hg g' hg' heq => ?_⟩
    subst heq
    obtain ⟨j, hj, now, key, hgj⟩ := exists_right_of_forall₂ h.created hg
    refine (hfollowed.among g hg').2 j (List.mem_append_right _ hj) ?_
    rw [githubId?_advanced hids hgj]
    exact githubId?_newIssue hids (hsnapshot.small g (h.among g hg).1) _ _ key
  · intro g hg
    rcases List.mem_append.mp hg with hg | hg
    · exact h.among g hg
    · obtain ⟨hg', hnone⟩ := hfollowed.among g hg
      refine ⟨hg', fun i hi => ?_⟩
      rw [← hid i hi]
      exact hnone (t i) (hold i hi)
  · have hnew : List.Forall₂ (fun g j => ∃ now key,
        Finished ids issueType m g (newIssue g ids issueType now key) j) born (new.map t') := by
      rw [List.forall₂_map_right_iff]
      refine forall₂_imp_of_mem (fun g hg j hj hgj => ?_) h.created
      obtain ⟨now, key, hadvanced⟩ := hgj
      have hissue := (h.among g hg).1
      have hjg : githubId? ids j = some g.id := by
        rw [githubId?_advanced hids hadvanced]
        exact githubId?_newIssue hids (hsnapshot.small g hissue) _ _ key
      refine ⟨now, key, finished_resumed hids (readable_of_snapshot hsnapshot hissue)
        List.nodup_nil hadvanced ?_⟩
      exact hfollowed.mirrors j (List.mem_append_right _ hj) g hissue hjg
    exact List.rel_append hnew hfollowed.created
  · intro g hg hnone
    by_cases hborn : g ∈ born
    · exact List.mem_append_left _ hborn
    · refine List.mem_append_right _ (hall g hg fun k hk hkg => ?_)
      rcases List.mem_append.mp hk with hk | hk
      · obtain ⟨i, hi, rfl⟩ := List.mem_map.mp hk
        rw [hid i hi] at hkg
        exact hnone i hi hkg
      · obtain ⟨g', hg', hkg'⟩ := githubId?_new hids hsnapshot.toNumbered (fun _ _ _ hR => hR) h hk
        rw [hkg] at hkg'
        have heq := eq_of_issue_id_eq hsnapshot.toNumbered hg (h.among g' hg').1
          (Option.some.inj hkg')
        exact hborn (heq ▸ hg')

/-- Two projects that hold the same, in whatever order and under whatever names. -/
def SameProject (ids : Jira.FieldNumbers) (project project' : List Jira.Issue) : Prop :=
  ∃ reordered, reordered.Perm project' ∧ List.Forall₂ (Alike ids) project reordered

/-- A project can be completed in one way only. -/
theorem completed_same (hids : Function.Injective ids.number)
    {after after' : List Jira.Issue} (h : Completed ids issueType m project after)
    (h' : Completed ids issueType m project after') : SameProject ids after after' := by
  obtain ⟨t, born, new, rfl, hfollowed, hall⟩ := h
  obtain ⟨t', born', new', rfl, hfollowed', hall'⟩ := h'
  have hold : List.Forall₂ (Alike ids) (project.map t) (project.map t') := by
    rw [List.forall₂_map_left_iff, List.forall₂_map_right_iff, List.forall₂_same]
    intro i hi
    by_cases hmirror : ∃ g ∈ m.issues, githubId? ids i = some g.id
    · obtain ⟨g, hg, hid⟩ := hmirror
      exact finished_alike hids (alike_refl ids i) rfl (hfollowed.mirrors i hi g hg hid)
        (hfollowed'.mirrors i hi g hg hid)
    · rw [hfollowed.others i hi fun g hg hid => hmirror ⟨g, hg, hid⟩,
        hfollowed'.others i hi fun g hg hid => hmirror ⟨g, hg, hid⟩]
      exact alike_refl ids i
  have hperm : born.Perm born' := by
    rw [List.perm_ext_iff_of_nodup hfollowed.nodup hfollowed'.nodup]
    intro g
    constructor
    · intro hg
      exact hall' g (hfollowed.among g hg).1 (hfollowed.among g hg).2
    · intro hg
      exact hall g (hfollowed'.among g hg).1 (hfollowed'.among g hg).2
  obtain ⟨reordered, hreordered, hnew⟩ := List.perm_comp_forall₂ hperm hfollowed'.created
  refine ⟨project.map t' ++ reordered, hnew.append_left _, List.rel_append hold ?_⟩
  refine forall₂_join (fun g j j' hj hj' => ?_) hfollowed.created hreordered
  obtain ⟨now, key, hfinished⟩ := hj
  obtain ⟨now', key', hfinished'⟩ := hj'
  have hcomments : (newIssue g ids issueType now key).comments =
      (newIssue g ids issueType now' key').comments := by simp
  exact finished_alike hids (newIssue_alike g ids issueType now now' key key') hcomments hfinished
    hfinished'

/-- In a completed project every GitHub issue is mirrored. -/
lemma mirrored_of_completed (hids : Function.Injective ids.number) (hsnapshot : Snapshot m)
    (horderly : Orderly project) (h : Completed ids issueType m project project')
    (hg : g ∈ m.issues) : ∃ j ∈ project', Mirrored ids m g j := by
  obtain ⟨t, born, new, rfl, hfollowed, hall⟩ := h
  by_cases hmirror : ∃ i ∈ project, githubId? ids i = some g.id
  · obtain ⟨i, hi, hid⟩ := hmirror
    refine ⟨t i, List.mem_append_left _ (List.mem_map_of_mem hi), ?_⟩
    exact mirrored_of_finished hids (hsnapshot.comments g hg) (hsnapshot.legible g hg)
      (horderly.comments i hi) hid (hfollowed.mirrors i hi g hg hid)
  · have hborn := hall g hg fun i hi hid => hmirror ⟨i, hi, hid⟩
    obtain ⟨j, hj, now, key, hfinished⟩ := exists_right_of_forall₂ hfollowed.created hborn
    refine ⟨j, List.mem_append_right _ hj, ?_⟩
    exact mirrored_of_finished (j := newIssue g ids issueType now key) hids
      (hsnapshot.comments g hg) (hsnapshot.legible g hg) List.nodup_nil
      (githubId?_newIssue hids (hsnapshot.small g hg) _ _ key) hfinished

end IssueBridge.Proofs
