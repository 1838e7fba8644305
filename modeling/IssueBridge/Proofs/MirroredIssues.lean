import IssueBridge.Proofs.PassCourse
import IssueBridge.Proofs.Surroundings

/-!
# Mirrored issues

After a pass, every GitHub issue that did not fail has a Jira issue that stands for it and agrees
with it, whatever the project held before and whichever calls failed.
-/

namespace IssueBridge.Proofs

open IssuePlan (githubId? creations)

/-- An issue stands for a GitHub issue and agrees with it. -/
structure Mirrored (ids : Jira.FieldNumbers) (m : Memory) (g : GitHub.Issue) (j : Jira.Issue) :
    Prop where
  githubId : githubId? ids j = some g.id
  current : isOutdated g j ids = false
  comments : g.comments ≠ 0 → ∃ plan,
    CommentPlan.ofComments (listedComments m g) j.comments = .ok plan ∧ plan.isEmpty = true

variable {s : Setting} {m : Memory} {g : GitHub.Issue} {j j' : Jira.Issue} {w v : World Memory}
  {ids : Jira.FieldNumbers} {issueType : String}

/-- Once the comments of an issue are posted, their plan is empty. -/
lemma plan_fullyPosted {held held' : List Jira.Comment} (hsource : Distinct (listedComments m g))
    (hlegible : ∀ c ∈ listedComments m g, ∀ u, m.users.get? c.author = some u → Legible c u)
    (hheld : (held.map Jira.Comment.id).Nodup) (h : FullyPosted m g held held')
    (hcomments : g.comments ≠ 0) :
    ∃ plan, CommentPlan.ofComments (listedComments m g) held' = .ok plan ∧ plan.writes = [] := by
  rcases h with ⟨hzero, -⟩ | ⟨-, p, hp, hposted⟩
  · exact absurd hzero hcomments
  · exact plan_resumes hsource hlegible hheld hp (List.append_nil p.writes).symm hposted

lemma mirrored_of_finished (hids : Function.Injective ids.number)
    (hsource : Distinct (listedComments m g))
    (hlegible : ∀ c ∈ listedComments m g, ∀ u, m.users.get? c.author = some u → Legible c u)
    (hj : (j.comments.map Jira.Comment.id).Nodup) (hid : githubId? ids j = some g.id)
    (h : Finished ids issueType m g j j') : Mirrored ids m g j' := by
  refine ⟨(githubId?_advanced hids (advanced_of_finished h)).trans hid, ?_, fun hcomments => ?_⟩
  · obtain ⟨i, held, hi, -, rfl⟩ := h
    rw [isOutdated_comments]
    exact isOutdated_renewed hids hi
  · obtain ⟨i, held, -, hheld, rfl⟩ := h
    obtain ⟨plan, hplan, hempty⟩ := plan_fullyPosted hsource hlegible hj hheld hcomments
    exact ⟨plan, hplan, isEmpty_of_writes hempty⟩

/-- After a pass, every GitHub issue that did not fail is mirrored. -/
theorem run_mirrors {report : Report} (hids : Function.Injective s.ids.number)
    (hwrite : s.dryRun = false) (hfresh : Fresh s.rules) (horderly : Orderly w.state.project)
    (hsnapshot : Snapshot w.state) (h : s.pass.run.run w = (.ok report, v))
    (hg : g ∈ w.state.issues) (hfailed : g.number ∉ report.failedIssues) :
    ∃ j ∈ v.state.project, Mirrored s.ids w.state g j := by
  obtain ⟨failed, t, born, new, hbrought, hproject, -, hreport⟩ :=
    run_brought hids hwrite hfresh horderly hsnapshot.issues h
  have hdone : g ∉ failed := by
    intro hmem
    rw [hreport] at hfailed
    exact hfailed (List.mem_map_of_mem hmem)
  have hmirrored : ∀ i i', (i.comments.map Jira.Comment.id).Nodup → githubId? s.ids i = some g.id →
      Finished s.ids s.issueType w.state g i i' → Mirrored s.ids w.state g i' := by
    intro i i' hi hid hfinished
    exact mirrored_of_finished hids (hsnapshot.comments g hg) (hsnapshot.legible g hg) hi hid
      hfinished
  rw [hproject]
  rcases exists_task s hg with hcreate | ⟨i, hupdate⟩
  · have hborn := hbrought.complete g (mem_creations.mpr hcreate) hdone
    obtain ⟨j, hj, key, hworked⟩ := exists_right_of_forall₂ hbrought.created hborn
    refine ⟨j, List.mem_append_right _ hj, ?_⟩
    exact hmirrored (newIssue g s.ids s.issueType (s.now g) key) j List.nodup_nil
      (githubId?_newIssue hids (hsnapshot.small g hg) _ _ key) (hworked.2 hdone)
  · obtain ⟨-, hi, hid⟩ := mem_tasks_update hupdate
    have hworked := (hbrought.treated i hi).1 g hupdate
    refine ⟨t i, List.mem_append_left _ (List.mem_map_of_mem hi), ?_⟩
    exact hmirrored i (t i) (horderly.comments i hi) hid (hworked.2 hdone)

/-- Where one issue cannot be created, the other one is mirrored all the same. -/
theorem run_mirrors_discussed :
    ∃ report v, (sampleSetting fun _ name => name == "create other").pass.run.run
        ⟨sampleMemory, []⟩ = (.ok report, v) ∧ report.failedIssues = [2] ∧
      ∃ j ∈ v.state.project, Mirrored sampleIds sampleMemory discussed j := by
  let s := sampleSetting fun _ name => name == "create other"
  have hreport : (s.pass.run.run ⟨sampleMemory, []⟩).1 =
      .ok { updated := 1, failed := 1, failedIssues := [2], commentsCreated := 1 } := by
    decide +kernel
  generalize hrun : s.pass.run.run ⟨sampleMemory, []⟩ = result at hreport
  obtain ⟨r, v⟩ := result
  dsimp only at hreport
  subst hreport
  refine ⟨_, v, rfl, rfl, ?_⟩
  exact run_mirrors (s := s) (w := ⟨sampleMemory, []⟩) sampleIds_injective rfl
    (fresh_unusedNames _) sample_orderly sample_snapshot hrun List.mem_cons_self (by decide)

end IssueBridge.Proofs
