import IssueBridge.Proofs.CommentWork
import IssueBridge.Proofs.MirroredFields

/-!
# Work on one issue

What work on one GitHub issue makes of the Jira issue that stands for it, wherever it stops: its
attributes are written or not, and its comments as far as their plan was carried out. Work that does
not fail has done all of it.
-/

namespace IssueBridge.Proofs

variable {s : Setting} {m : Memory} {g : GitHub.Issue} {i j j' : Jira.Issue}
  {w v : World Memory} {ids : Jira.FieldNumbers} {issueType : String}

/-- A part of the work on an issue is done. -/
def Advanced (ids : Jira.FieldNumbers) (issueType : String) (m : Memory) (g : GitHub.Issue)
    (j j' : Jira.Issue) : Prop :=
  ∃ i held, (i = j ∨ Renewed ids issueType g j i) ∧ PartlyPosted m g j.comments held ∧
    j' = { i with comments := held }

/-- All work on an issue is done. -/
def Finished (ids : Jira.FieldNumbers) (issueType : String) (m : Memory) (g : GitHub.Issue)
    (j j' : Jira.Issue) : Prop :=
  ∃ i held, Renewed ids issueType g j i ∧ FullyPosted m g j.comments held ∧
    j' = { i with comments := held }

lemma partlyPosted_of_fullyPosted {held held' : List Jira.Comment}
    (h : FullyPosted m g held held') : PartlyPosted m g held held' := by
  rcases h with ⟨-, rfl⟩ | ⟨hne, p, hp, hposted⟩
  · exact Or.inl rfl
  · exact Or.inr ⟨hne, p, p.writes, [], hp, by simp, hposted⟩

lemma advanced_of_finished (h : Finished ids issueType m g j j') :
    Advanced ids issueType m g j j' := by
  obtain ⟨i, held, hi, hheld, rfl⟩ := h
  exact ⟨i, held, Or.inr hi, partlyPosted_of_fullyPosted hheld, rfl⟩

lemma key_advanced (h : Advanced ids issueType m g j j') : j'.key = j.key := by
  obtain ⟨i, held, rfl | hi, -, rfl⟩ := h
  · rfl
  · have hkey : i.key = j.key := key_renewed hi
    exact hkey

lemma githubId?_advanced (hids : Function.Injective ids.number)
    (h : Advanced ids issueType m g j j') :
    IssuePlan.githubId? ids j' = IssuePlan.githubId? ids j := by
  obtain ⟨i, held, rfl | hi, -, rfl⟩ := h
  · rfl
  · rw [githubId?_comments]
    exact githubId?_renewed hids hi

lemma nodup_advanced (h : Advanced ids issueType m g j j')
    (hj : (j.comments.map Jira.Comment.id).Nodup) : (j'.comments.map Jira.Comment.id).Nodup := by
  obtain ⟨i, held, -, hheld, rfl⟩ := h
  exact nodup_partlyPosted hheld hj

/-- The attributes of an issue are written if it is outdated as it was listed, or nothing
changes. -/
lemma writeIssue_update_course {r : Except Failure (IssueChange × Jira.Issue)}
    (hwrite : s.dryRun = false) (horderly : Orderly w.state.project) (hi : i ∈ w.state.project)
    (hkey : i.key = j.key) (h : (s.pass.writeIssue (.update g j)).run w = (r, v)) :
    (∃ change i', r = .ok (change, j) ∧ ((isOutdated g j s.ids = false ∧ i' = i) ∨
        (isOutdated g j s.ids = true ∧ ∃ now,
          i' = i.overwrite (renewedDraft g j s.ids s.issueType now))) ∧
        v.state.project = replaced i' w.state.project) ∨
      ∃ e, r = .error e ∧ v.state.project = w.state.project ∧ MayFail s.rules := by
  unfold Pass.writeIssue at h
  rw [target_pass hwrite] at h
  dsimp only at h
  by_cases hold : isOutdated g j s.pass.ids = true
  · rw [if_pos hold] at h
    rcases within_bind h with ⟨_, w₁, hupdate, hrest⟩ | ⟨e, e', hupdate, hr⟩
    · rcases update_course horderly.keys hupdate with ⟨-, k, hk, hkj, hstate⟩ | ⟨e, he, -⟩
      · obtain rfl := eq_of_key_eq horderly.keys hk hi (hkj.trans hkey.symm)
        rcases call_bind hrest with ⟨_, w₂, hemit, hpure⟩ | ⟨e, hemit, -⟩
        · obtain ⟨hr, rfl⟩ := call_pure hpure
          obtain ⟨-, rfl⟩ := Prod.mk.inj hemit
          exact Or.inl ⟨.updated, _, hr, Or.inr ⟨hold, s.now g, rfl⟩, hstate⟩
        · cases hemit
      · cases he
    · rcases update_course horderly.keys hupdate with ⟨hok, -⟩ | ⟨e'', -, hstate, hfail | hnone⟩
      · cases hok
      · exact Or.inr ⟨e, hr, hstate, hfail⟩
      · exact absurd hkey (hnone i hi)
  · rw [if_neg hold] at h
    obtain ⟨hr, rfl⟩ := call_pure h
    refine Or.inl ⟨.unchanged, i, hr, Or.inl ⟨Bool.eq_false_iff.mpr hold, rfl⟩, ?_⟩
    exact (replaced_self horderly.keys hi).symm

/-- The issue of a GitHub issue is created at the end of the project, or nothing changes. -/
lemma writeIssue_create_course {r : Except Failure (IssueChange × Jira.Issue)}
    (hwrite : s.dryRun = false) (hfresh : Fresh s.rules)
    (h : (s.pass.writeIssue (.create g)).run w = (r, v)) :
    (∃ key, r = .ok (.created, newIssue g s.ids s.issueType (s.now g) key) ∧
        key ∉ w.state.project.map Jira.Issue.key ∧
        v.state.project = w.state.project ++ [newIssue g s.ids s.issueType (s.now g) key]) ∨
      ∃ e, r = .error e ∧ v.state.project = w.state.project ∧ MayFail s.rules := by
  unfold Pass.writeIssue at h
  rw [target_pass hwrite] at h
  dsimp only at h
  rcases within_bind h with ⟨j, w₁, hcreate, hrest⟩ | ⟨e, e', hcreate, hr⟩
  · rcases create_course hfresh hcreate with ⟨k, hk, hnew, hkey, hstate⟩ | ⟨e, he, -⟩
    · obtain rfl := Except.ok.inj hk
      have hissue : j = newIssue g s.ids s.issueType (s.now g) j.key := hnew
      rcases call_bind hrest with ⟨_, w₂, hemit, hpure⟩ | ⟨e, hemit, -⟩
      · obtain ⟨hr, rfl⟩ := call_pure hpure
        obtain ⟨-, rfl⟩ := Prod.mk.inj hemit
        exact Or.inl ⟨j.key, by rw [← hissue]; exact hr, hkey, by rw [← hissue]; exact hstate⟩
      · cases hemit
    · cases he
  · rcases create_course hfresh hcreate with ⟨k, hk, -⟩ | ⟨e'', -, hstate, hfail⟩
    · cases hk
    · exact Or.inr ⟨e, hr, hstate, hfail⟩

lemma find?_of_mem {project : List Jira.Issue} (hstate : w.state.project = project)
    (hkeys : (project.map Jira.Issue.key).Nodup) (hi : i ∈ project) :
    w.state.find? i.key = some i := by
  unfold Memory.find?
  rw [hstate]
  exact find?_key hkeys hi

/-- The issue that is read back is the one in the project. -/
lemma readBack_course {change : IssueChange} {r : Except Failure Jira.Issue}
    (hreal : change ≠ .created ∨ s.dryRun = false) (horderly : Orderly w.state.project)
    (hi : i ∈ w.state.project) (hkey : i.key = j.key)
    (h : (s.pass.readBack change j).run w = (r, v)) :
    OnlyRead w.state v.state ∧ (r = .ok i ∨ ∃ e, r = .error e ∧ MayFail s.rules) := by
  have hfetch : ¬(change = .created ∧ s.pass.target.dryRun = true) := by
    rintro ⟨hcreated, hdry⟩
    rcases hreal with hchange | hwrite
    · exact hchange hcreated
    · change s.dryRun = true at hdry
      rw [hwrite] at hdry
      cases hdry
  have hfind := find?_of_mem rfl horderly.keys hi
  rw [hkey] at hfind
  unfold Pass.readBack at h
  rw [if_neg hfetch] at h
  rcases call_within h with ⟨k, hr, hissue⟩ | ⟨e, e', hr, hissue⟩
  · obtain ⟨hread, ⟨k', hk', hfound⟩ | ⟨e, he, -⟩⟩ := issue_course hissue
    · obtain rfl := Except.ok.inj hk'
      rw [hfind] at hfound
      obtain rfl := Option.some.inj hfound
      exact ⟨hread, Or.inl hr⟩
    · cases he
  · obtain ⟨hread, ⟨k', hk', -⟩ | ⟨e'', -, hfail | hnone⟩⟩ := issue_course hissue
    · cases hk'
    · exact ⟨hread, Or.inr ⟨e, hr, hfail⟩⟩
    · rw [hfind] at hnone
      cases hnone

/-! ## All work on one issue -/

lemma repository_after {α : Type} {x : Call Memory α} {r : Except Failure α}
    (hkeeps : Keeps repository x.run) (h : x.run w = (r, v)) :
    repository v.state = repository w.state := by
  have hrun := hkeeps w
  rw [h] at hrun
  exact hrun

/-- The comments of an issue that was just written are worked on. -/
lemma afterWrite_course {change : IssueChange} {o : IssueOutcome} (hwrite : s.dryRun = false)
    (hfresh : Fresh s.rules) (hrepo : repository w.state = repository m)
    (horderly : Orderly w.state.project) (hi : i ∈ w.state.project) (hkey : i.key = j.key)
    (h : (do
      match ← (s.pass.readBack change j).run with
      | .error e => return { change := some change, failure := some e }
      | .ok current =>
        let comments ← s.pass.workOnComments g current
        return { change := some change, comments, failure := comments.failure } :
        Action Memory IssueOutcome) w = (o, v)) :
    ∃ held, PartlyPosted m g i.comments held ∧
      v.state.project = replaced { i with comments := held } w.state.project ∧
      (o.failure = none → FullyPosted m g i.comments held) ∧
      (o.failure ≠ none → CommentsHindered s m g i.comments) := by
  obtain ⟨r, w₁, hread, hrest⟩ := action_bind h
  obtain ⟨honly, rfl | ⟨e, rfl, hfail⟩⟩ := readBack_course (Or.inr hwrite) horderly hi hkey hread
  · have hproject := project_onlyRead honly
    rw [← hproject] at horderly hi ⊢
    obtain ⟨outcome, w₂, hcomments, hpure⟩ := action_bind hrest
    obtain ⟨rfl, rfl⟩ := action_pure hpure
    exact workOnComments_course hwrite hfresh ((repository_onlyRead honly).trans hrepo) horderly
      hi hcomments
  · obtain ⟨rfl, rfl⟩ := action_pure hrest
    refine ⟨i.comments, Or.inl rfl, ?_, fun hnone => ?_, fun _ => Or.inl hfail⟩
    · rw [project_onlyRead honly]
      exact (replaced_self horderly.keys hi).symm
    · cases hnone

/-- Work on an issue that has a counterpart changes that counterpart only. -/
theorem workOn_update_course {o : IssueOutcome} (hwrite : s.dryRun = false)
    (hfresh : Fresh s.rules) (hrepo : repository w.state = repository m)
    (horderly : Orderly w.state.project) (hj : j ∈ w.state.project)
    (h : s.pass.workOn (.update g j) w = (o, v)) :
    ∃ j', Advanced s.ids s.issueType m g j j' ∧
      v.state.project = replaced j' w.state.project ∧
      (o.failure = none → Finished s.ids s.issueType m g j j') ∧
      (o.failure ≠ none → CommentsHindered s m g j.comments) := by
  unfold Pass.workOn at h
  obtain ⟨r, w₁, hone, hrest⟩ := action_bind h
  have hrepo₁ := repository_after (writeIssue_keeps (repository_confined s) (.update g j)) hone
  rcases writeIssue_update_course hwrite horderly hj rfl hone with
    ⟨change, i, rfl, hi, hstate⟩ | ⟨e, rfl, hstate, hfail⟩
  · have hcomments := comments_renewed hi
    have hmem : i ∈ w₁.state.project := by
      rw [hstate]
      exact mem_replaced_self hj (key_renewed hi).symm
    have horderly₁ : Orderly w₁.state.project := by
      rw [hstate]
      refine orderly_replaced horderly ?_
      rw [hcomments]
      exact horderly.comments j hj
    obtain ⟨held, hpartly, hstate', hdone, hfailed⟩ :=
      afterWrite_course hwrite hfresh (hrepo₁.trans hrepo) horderly₁ hmem (key_renewed hi) hrest
    rw [hcomments] at hpartly hdone hfailed
    refine ⟨_, ⟨i, held, Or.inr hi, hpartly, rfl⟩, ?_, fun hnone => ?_, hfailed⟩
    · rw [hstate', hstate]
      exact replaced_replaced _ rfl
    · exact ⟨i, held, hi, hdone hnone, rfl⟩
  · obtain ⟨rfl, rfl⟩ := action_pure hrest
    refine ⟨j, ⟨j, j.comments, Or.inl rfl, Or.inl rfl, rfl⟩, ?_, fun hnone => ?_,
      fun _ => Or.inl hfail⟩
    · rw [hstate]
      exact (replaced_self horderly.keys hj).symm
    · cases hnone

lemma replaced_append {project : List Jira.Issue}
    (hkey : i.key ∉ project.map Jira.Issue.key) (hsame : i.key = j.key) :
    replaced j (project ++ [i]) = project ++ [j] := by
  have hrest : ∀ k ∈ project, (if k.key = j.key then j else k) = k := by
    intro k hk
    refine if_neg fun heq => hkey ?_
    rw [hsame, ← heq]
    exact List.mem_map_of_mem hk
  unfold replaced
  rw [List.map_append, List.map_congr_left hrest, List.map_id', List.map_singleton, if_pos hsame]

/-- Work on an issue without a counterpart adds one at the end of the project, or nothing. -/
theorem workOn_create_course {o : IssueOutcome} (hids : Function.Injective s.ids.number)
    (hwrite : s.dryRun = false) (hfresh : Fresh s.rules)
    (hrepo : repository w.state = repository m) (horderly : Orderly w.state.project)
    (h : s.pass.workOn (.create g) w = (o, v)) :
    (∃ key j', key ∉ w.state.project.map Jira.Issue.key ∧
        Advanced s.ids s.issueType m g (newIssue g s.ids s.issueType (s.now g) key) j' ∧
        v.state.project = w.state.project ++ [j'] ∧
        (o.failure = none →
          Finished s.ids s.issueType m g (newIssue g s.ids s.issueType (s.now g) key) j') ∧
        (o.failure ≠ none → CommentsHindered s m g [])) ∨
      o.failure ≠ none ∧ v.state.project = w.state.project ∧ MayFail s.rules := by
  unfold Pass.workOn at h
  obtain ⟨r, w₁, hone, hrest⟩ := action_bind h
  have hrepo₁ := repository_after (writeIssue_keeps (repository_confined s) (.create g)) hone
  rcases writeIssue_create_course hwrite hfresh hone with
    ⟨key, rfl, hkey, hstate⟩ | ⟨e, rfl, hstate, hfail⟩
  · let i := newIssue g s.ids s.issueType (s.now g) key
    have hmem : i ∈ w₁.state.project := by
      rw [hstate]
      exact List.mem_append_right _ (List.mem_singleton_self i)
    have horderly₁ : Orderly w₁.state.project := by
      rw [hstate]
      exact orderly_append horderly hkey List.nodup_nil
    obtain ⟨held, hpartly, hstate', hdone, hfailed⟩ :=
      afterWrite_course hwrite hfresh (hrepo₁.trans hrepo) horderly₁ hmem rfl hrest
    refine Or.inl ⟨key, _, hkey, ⟨i, held, Or.inl rfl, hpartly, rfl⟩, ?_, fun hnone => ?_,
      hfailed⟩
    · rw [hstate', hstate]
      exact replaced_append hkey rfl
    · have hrenewed : Renewed s.ids s.issueType g i i :=
        Or.inl ⟨isOutdated_newIssue hids g s.issueType (s.now g) key, rfl⟩
      exact ⟨i, held, hrenewed, hdone hnone, rfl⟩
  · obtain ⟨rfl, rfl⟩ := action_pure hrest
    refine Or.inr ⟨fun hnone => ?_, hstate, hfail⟩
    cases hnone

/-- Nothing is written for an issue that is up to date, whatever fails. -/
theorem workOn_settled {o : IssueOutcome} (hrepo : repository w.state = repository m)
    (horderly : Orderly w.state.project) (hj : j ∈ w.state.project)
    (hfresh : isOutdated g j s.ids = false)
    (hsettled : g.comments ≠ 0 → ∃ p,
      CommentPlan.ofComments (listedComments m g) j.comments = .ok p ∧ p.writes = [])
    (h : s.pass.workOn (.update g j) w = (o, v)) :
    OnlyRead w.state v.state ∧ o.change = some .unchanged ∧ o.comments.created = 0 ∧
      o.comments.updated = 0 ∧ (o.failure ≠ none → MayFail s.rules) := by
  have hkept : s.pass.writeIssue (.update g j) = pure (.unchanged, j) := by
    have hold : ¬isOutdated g j s.pass.ids = true := Bool.eq_false_iff.mp hfresh
    unfold Pass.writeIssue
    exact if_neg hold
  unfold Pass.workOn at h
  rw [hkept] at h
  obtain ⟨r, w₁, hone, hrest⟩ := action_bind h
  obtain ⟨rfl, rfl⟩ := call_pure hone
  obtain ⟨r, w₂, hread, hrest⟩ := action_bind hrest
  obtain ⟨honly, rfl | ⟨e, rfl, hfail⟩⟩ :=
    readBack_course (Or.inl (by decide)) horderly hj rfl hread
  · obtain ⟨outcome, w₃, hcomments, hpure⟩ := action_bind hrest
    obtain ⟨rfl, rfl⟩ := action_pure hpure
    obtain ⟨honly', rfl | ⟨e, rfl, hfail⟩⟩ :=
      workOnComments_settled ((repository_onlyRead honly).trans hrepo) hsettled hcomments
    · exact ⟨onlyRead_trans honly honly', rfl, rfl, rfl, fun hne => absurd rfl hne⟩
    · exact ⟨onlyRead_trans honly honly', rfl, rfl, rfl, fun _ => hfail⟩
  · obtain ⟨rfl, rfl⟩ := action_pure hrest
    exact ⟨honly, rfl, rfl, rfl, fun _ => hfail⟩

end IssueBridge.Proofs
