import IssueBridge.Proofs.FoundAuthors

/-!
# What single tasks come to

Where only lookups fail, what work on one issue comes to is known before, and so is what it makes of
the project apart from the names that new issues and comments get.
-/

namespace IssueBridge.Proofs

open CommentPlan

variable {s : Setting} {m : Memory} {g : GitHub.Issue} {i j j' : Jira.Issue} {w v : World Memory}
  {a : IssueTask} {project project' : List Jira.Issue} {o : IssueOutcome}

/-- The issue of a task with its attributes as they are to be. -/
def upToDate (s : Setting) (g : GitHub.Issue) (j : Jira.Issue) : Jira.Issue :=
  if isOutdated g j s.ids then j.overwrite (renewedDraft g j s.ids s.issueType (s.now g)) else j

/-- An issue has the comments that work for a GitHub issue leaves. -/
def WithComments (s : Setting) (m : Memory) (g : GitHub.Issue) (i i' : Jira.Issue) : Prop :=
  ∃ held, Posted m.users (commentsWritten s m g i.comments) i.comments held ∧
    i' = { i with comments := held }

/-- What a task makes of a project. -/
def Performed (s : Setting) (m : Memory) (project project' : List Jira.Issue) : IssueTask → Prop
  | .update g j => ∃ j', WithComments s m g (upToDate s g j) j' ∧ project' = replaced j' project
  | .create g => ∃ key j', key ∉ project.map Jira.Issue.key ∧
      WithComments s m g (newIssue g s.ids s.issueType (s.now g) key) j' ∧
      project' = project ++ [j']

/-- The outcome of a task without the words of its failure. -/
def wordlessOutcome (o : IssueOutcome) : IssueOutcome :=
  { o with comments := wordless o.comments, failure := o.failure.map fun _ => default }

/-- The outcome of work whose attributes were written. -/
def outcomeAfter (change : IssueChange) (comments : CommentOutcome) : IssueOutcome :=
  { change := some change, comments, failure := comments.failure }

/-- What a task comes to. -/
def taskOutcome (s : Setting) (m : Memory) : IssueTask → IssueOutcome
  | .update g j =>
    outcomeAfter (if isOutdated g j s.ids then .updated else .unchanged)
      (commentsOutcome s m g j.comments)
  | .create g => outcomeAfter .created (commentsOutcome s m g [])

/-- The issue of a task is in the project. -/
def Ahead (a : IssueTask) (project : List Jira.Issue) : Prop :=
  ∀ g j, a = .update g j → j ∈ project

lemma key_upToDate (s : Setting) (g : GitHub.Issue) (j : Jira.Issue) :
    (upToDate s g j).key = j.key := by
  unfold upToDate
  split <;> rfl

lemma id_upToDate (s : Setting) (g : GitHub.Issue) (j : Jira.Issue) :
    (upToDate s g j).id = j.id := by
  unfold upToDate
  split <;> rfl

lemma comments_upToDate (s : Setting) (g : GitHub.Issue) (j : Jira.Issue) :
    (upToDate s g j).comments = j.comments := by
  unfold upToDate
  split <;> rfl

lemma key_withComments (h : WithComments s m g i j) : j.key = i.key := by
  obtain ⟨held, -, rfl⟩ := h
  rfl

lemma id_withComments (h : WithComments s m g i j) : j.id = i.id := by
  obtain ⟨held, -, rfl⟩ := h
  rfl

lemma nodup_withComments (h : WithComments s m g i j)
    (hi : (i.comments.map Jira.Comment.id).Nodup) : (j.comments.map Jira.Comment.id).Nodup := by
  obtain ⟨held, hposted, rfl⟩ := h
  exact nodup_posted hposted hi

lemma orderly_performed (horderly : Orderly project) (hahead : Ahead a project)
    (h : Performed s m project project' a) : Orderly project' := by
  cases a with
  | update g j =>
    obtain ⟨j', hcomments, rfl⟩ := h
    apply orderly_replaced horderly
    apply nodup_withComments hcomments
    rw [comments_upToDate]
    exact horderly.comments j (hahead g j rfl)
  | create g =>
    obtain ⟨key, j', hkey, hcomments, rfl⟩ := h
    apply orderly_append horderly
    · rw [key_withComments hcomments]
      exact hkey
    · exact nodup_withComments hcomments List.nodup_nil

/-! ## Attributes -/

section Calls

variable {rules : Memory.Rules} {ids : Jira.FieldNumbers} {dryRun : Bool} {fields : Jira.Draft}

lemma update_exact (horderly : Orderly w.state.project) (hj : j ∈ w.state.project)
    {r : Except Failure Unit}
    (hrun : ((Memory.target (calm rules) ids dryRun).update j.key fields).run w = (r, v)) :
    r = .ok () ∧ v.state.project =
      if dryRun then w.state.project else replaced (j.overwrite fields) w.state.project := by
  cases dryRun with
  | true =>
    have hidle : ((Memory.target (calm rules) ids true).update j.key fields).run w =
        (.ok (), ⟨noted ("update " ++ j.key) w.state, w.log⟩) :=
      run_call_idle (not_mayFail_calm rules) _ (fun _ => rfl) w
    obtain ⟨rfl, rfl⟩ := Prod.mk.inj (hrun.symm.trans hidle)
    exact ⟨rfl, rfl⟩
  | false =>
    rcases update_course horderly.keys hrun with
      ⟨hr, k, hk, hkey, hstate⟩ | ⟨e, -, -, hfail | habsent⟩
    · obtain rfl := eq_of_key_eq horderly.keys hk hj hkey
      exact ⟨hr, hstate⟩
    · exact absurd hfail (not_mayFail_calm rules)
    · exact absurd rfl (habsent j hj)

lemma create_exact (hfresh : Fresh rules) {r : Except Failure Jira.Issue}
    (hrun : ((Memory.target (calm rules) ids dryRun).create fields).run w = (r, v)) :
    ∃ k, r = .ok k ∧ k.comments = [] ∧
      (dryRun = false → k = { fields.toIssue with id := k.key, key := k.key } ∧
        k.key ∉ w.state.project.map Jira.Issue.key ∧
          v.state.project = w.state.project ++ [k]) := by
  cases dryRun with
  | true =>
    have hidle : ((Memory.target (calm rules) ids true).create fields).run w =
        (.ok { fields.toIssue with key := "PROJ-?" },
          ⟨noted ("create " ++ fields.summary) w.state, w.log⟩) :=
      run_call_idle (not_mayFail_calm rules) _ (fun _ => rfl) w
    exact ⟨_, (Prod.mk.inj (hrun.symm.trans hidle)).1, rfl, nofun⟩
  | false =>
    rcases create_course (fresh_calm hfresh) hrun with ⟨k, hr, hk, hkey, hstate⟩ | ⟨e, -, -, hfail⟩
    · refine ⟨k, hr, ?_, fun _ => ⟨hk, hkey, hstate⟩⟩
      rw [hk]
      rfl
    · exact absurd hfail (not_mayFail_calm rules)

end Calls

section Work

variable (h : OnlyLookupsFail s.rules)

include h

lemma writeIssue_update_exact (horderly : Orderly w.state.project) (hj : j ∈ w.state.project)
    {r : Except Failure (IssueChange × Jira.Issue)}
    (hrun : (s.pass.writeIssue (.update g j)).run w = (r, v)) :
    r = .ok (if isOutdated g j s.ids then .updated else .unchanged, j) ∧
      v.state.project =
        if s.dryRun then w.state.project else replaced (upToDate s g j) w.state.project := by
  rw [writeIssue_calm h] at hrun
  unfold Pass.writeIssue at hrun
  unfold upToDate
  by_cases hold : isOutdated g j s.ids = true
  · have hrun' := (congrArg (fun x : Call Memory _ => x.run w) (if_pos hold)).symm.trans hrun
    rw [if_pos hold, if_pos hold]
    rcases within_bind hrun' with ⟨_, w₁, hone, hrest⟩ | ⟨e, e', hone, hr⟩
    · obtain ⟨-, hstate⟩ := update_exact horderly hj hone
      obtain ⟨w₂, hw₂, hpure⟩ := emit_bind hrest
      obtain ⟨hr, rfl⟩ := call_pure hpure
      rw [hw₂]
      exact ⟨hr, hstate⟩
    · cases (update_exact horderly hj hone).1
  · have hrun' := (congrArg (fun x : Call Memory _ => x.run w) (if_neg hold)).symm.trans hrun
    obtain ⟨hr, rfl⟩ := call_pure hrun'
    rw [if_neg hold, if_neg hold, replaced_self horderly.keys hj, ite_self]
    exact ⟨hr, rfl⟩

lemma writeIssue_create_exact (hfresh : Fresh s.rules)
    {r : Except Failure (IssueChange × Jira.Issue)}
    (hrun : (s.pass.writeIssue (.create g)).run w = (r, v)) :
    ∃ k, r = .ok (.created, k) ∧ k.comments = [] ∧
      (s.dryRun = false → k = newIssue g s.ids s.issueType (s.now g) k.key ∧
        k.key ∉ w.state.project.map Jira.Issue.key ∧
          v.state.project = w.state.project ++ [k]) := by
  rw [writeIssue_calm h] at hrun
  unfold Pass.writeIssue at hrun
  rcases within_bind hrun with ⟨k, w₁, hone, hrest⟩ | ⟨e, e', hone, hr⟩
  · obtain ⟨k', hk', hempty, hwet⟩ := create_exact hfresh hone
    obtain rfl := Except.ok.inj hk'
    obtain ⟨w₂, hw₂, hpure⟩ := emit_bind hrest
    obtain ⟨hr, rfl⟩ := call_pure hpure
    rw [hw₂]
    exact ⟨k, hr, hempty, hwet⟩
  · obtain ⟨k, hk, -⟩ := create_exact hfresh hone
    cases hk

lemma readBack_exact {change : IssueChange} (hreal : change ≠ .created ∨ s.dryRun = false)
    (horderly : Orderly w.state.project) (hi : i ∈ w.state.project) (hkey : i.key = j.key)
    {r : Except Failure Jira.Issue} (hrun : (s.pass.readBack change j).run w = (r, v)) :
    OnlyRead w.state v.state ∧ r = .ok i := by
  rw [readBack_calm h] at hrun
  have hreal' : change ≠ .created ∨ s.calm.dryRun = false := hreal
  obtain ⟨hread, hr | ⟨e, -, hfail⟩⟩ := readBack_course hreal' horderly hi hkey hrun
  · exact ⟨hread, hr⟩
  · exact absurd hfail (not_mayFail_calm s.rules)

/-! ## All work of a task -/

variable (hfresh : Fresh s.rules)

include hfresh

/-- The work after the issue was read back. -/
lemma afterRead_exact {change : IssueChange} (hrepo : repository w.state = repository m)
    (hready : Ready s.dryRun i w.state.project)
    (hrun : (do
      let comments ← s.pass.workOnComments g i
      return { change := some change, comments, failure := comments.failure } :
        Action Memory IssueOutcome) w = (o, v)) :
    wordlessOutcome o = outcomeAfter change (commentsOutcome s m g i.comments) ∧
      (s.dryRun = false →
        ∃ i', WithComments s m g i i' ∧ v.state.project = replaced i' w.state.project) := by
  obtain ⟨comments, w₁, hcomments, hpure⟩ := action_bind hrun
  obtain ⟨rfl, rfl⟩ := action_pure hpure
  obtain ⟨houtcome, hwet⟩ := workOnComments_exact h hfresh hrepo hready hcomments
  refine ⟨?_, fun hwrite => ?_⟩
  · rw [← houtcome]
    rfl
  · obtain ⟨held, hposted, hstate⟩ := hwet hwrite
    exact ⟨_, ⟨held, hposted, rfl⟩, hstate⟩

lemma workOn_update_exact (hrepo : repository w.state = repository m)
    (horderly : Orderly w.state.project) (hj : j ∈ w.state.project)
    (hrun : s.pass.workOn (.update g j) w = (o, v)) :
    wordlessOutcome o = taskOutcome s m (.update g j) ∧
      (s.dryRun = false → Performed s m w.state.project v.state.project (.update g j)) := by
  unfold Pass.workOn at hrun
  obtain ⟨r, w₁, hone, hrest⟩ := action_bind hrun
  have hrepo₁ := repository_after (writeIssue_keeps (repository_confined s) (.update g j)) hone
  obtain ⟨rfl, hstate⟩ := writeIssue_update_exact h horderly hj hone
  obtain ⟨r, w₂, hread, hrest⟩ := action_bind hrest
  -- the issue that is read back: the listed one during a dry run, else the written one
  let i := if s.dryRun then j else upToDate s g j
  have hkey : i.key = j.key := by
    cases hdry : s.dryRun <;> simp [i, hdry, key_upToDate]
  have hcomments : i.comments = j.comments := by
    cases hdry : s.dryRun <;> simp [i, hdry, comments_upToDate]
  have hproject : w₁.state.project = replaced i w.state.project := by
    cases hdry : s.dryRun <;> simp [i, hdry, hstate, replaced_self horderly.keys hj]
  have hi : i ∈ w₁.state.project := by
    rw [hproject]
    exact mem_replaced_self hj hkey.symm
  have horderly₁ : Orderly w₁.state.project := by
    rw [hproject]
    apply orderly_replaced horderly
    rw [hcomments]
    exact horderly.comments j hj
  have hreal : (if isOutdated g j s.ids then IssueChange.updated else .unchanged) ≠ .created ∨
      s.dryRun = false := by
    apply Or.inl
    split <;> simp
  obtain ⟨honly, rfl⟩ := readBack_exact h hreal horderly₁ hi hkey hread
  have hproject₂ := project_onlyRead honly
  have hready : Ready s.dryRun i w₂.state.project := by
    intro _
    rw [hproject₂]
    exact ⟨horderly₁, hi⟩
  obtain ⟨houtcome, hwet⟩ := afterRead_exact h hfresh
    ((repository_onlyRead honly).trans (hrepo₁.trans hrepo)) hready hrest
  refine ⟨?_, fun hwrite => ?_⟩
  · rw [houtcome, hcomments]
    rfl
  · obtain ⟨i', hcomments, hstate'⟩ := hwet hwrite
    have hwritten : i = upToDate s g j := by simp [i, hwrite]
    refine ⟨i', hwritten ▸ hcomments, ?_⟩
    rw [hstate', hproject₂, hproject]
    exact replaced_replaced _ (key_withComments hcomments).symm

lemma workOn_create_exact (hrepo : repository w.state = repository m)
    (horderly : Orderly w.state.project) (hrun : s.pass.workOn (.create g) w = (o, v)) :
    wordlessOutcome o = taskOutcome s m (.create g) ∧
      (s.dryRun = false → Performed s m w.state.project v.state.project (.create g)) := by
  unfold Pass.workOn at hrun
  obtain ⟨r, w₁, hone, hrest⟩ := action_bind hrun
  have hrepo₁ := repository_after (writeIssue_keeps (repository_confined s) (.create g)) hone
  obtain ⟨k, rfl, hempty, hwet⟩ := writeIssue_create_exact h hfresh hone
  obtain ⟨r, w₂, hread, hrest⟩ := action_bind hrest
  have hready₁ : Ready s.dryRun k w₁.state.project := by
    intro hwrite
    obtain ⟨-, hkey, hstate⟩ := hwet hwrite
    rw [hstate]
    refine ⟨orderly_append horderly hkey ?_, List.mem_append_right _ (List.mem_singleton_self k)⟩
    rw [hempty]
    exact List.nodup_nil
  have hcurrent : r = .ok k ∧ OnlyRead w₁.state w₂.state := by
    cases hdry : s.dryRun with
    | true =>
      have htold : s.pass.readBack .created k = pure k := if_pos ⟨rfl, hdry⟩
      rw [htold] at hread
      obtain ⟨hr, rfl⟩ := call_pure hread
      exact ⟨hr, onlyRead_refl _⟩
    | false =>
      obtain ⟨horderly₁, hk⟩ := hready₁ hdry
      obtain ⟨honly, hr⟩ := readBack_exact h (Or.inr hdry) horderly₁ hk rfl hread
      exact ⟨hr, honly⟩
  obtain ⟨rfl, honly⟩ := hcurrent
  have hproject₂ := project_onlyRead honly
  obtain ⟨houtcome, hwet'⟩ := afterRead_exact h hfresh
    ((repository_onlyRead honly).trans (hrepo₁.trans hrepo)) (hproject₂ ▸ hready₁) hrest
  refine ⟨?_, fun hwrite => ?_⟩
  · rw [houtcome, hempty]
    rfl
  · obtain ⟨hk, hkey, hstate⟩ := hwet hwrite
    obtain ⟨k', hcomments, hstate'⟩ := hwet' hwrite
    refine ⟨k.key, k', hkey, hk ▸ hcomments, ?_⟩
    rw [hstate', hproject₂, hstate]
    exact replaced_append hkey (key_withComments hcomments).symm

/-- What a task comes to, and what it makes of the project. -/
theorem workOn_exact (hrepo : repository w.state = repository m)
    (horderly : Orderly w.state.project) (hahead : Ahead a w.state.project)
    (hrun : s.pass.workOn a w = (o, v)) :
    wordlessOutcome o = taskOutcome s m a ∧
      (s.dryRun = false → Performed s m w.state.project v.state.project a) := by
  cases a with
  | update g j => exact workOn_update_exact h hfresh hrepo horderly (hahead g j rfl) hrun
  | create g => exact workOn_create_exact h hfresh hrepo horderly hrun

end Work

end IssueBridge.Proofs
