import IssueBridge.Proofs.Completion

/-!
# Recovery

While GitHub stands still, a pass without failures leaves the project that one such pass would have
left in the beginning, whatever passes failed in between and wherever they stopped. After it nothing
is left to write.
-/

namespace IssueBridge.Proofs

open IssuePlan (githubId?)

variable {s : Setting} {m m₀ : Memory} {g : GitHub.Issue} {i j : Jira.Issue} {w v : World Memory}
  {ids : Jira.FieldNumbers} {issueType : String} {tasks : List IssueTask}
  {project project' : List Jira.Issue}

/-! ## Settled projects -/

/-- A task finds an issue that is up to date. -/
def Idle (ids : Jira.FieldNumbers) (m : Memory) (a : IssueTask) : Prop :=
  ∃ g j, a = .update g j ∧ j ∈ m.project ∧ Mirrored ids m g j

/-- Work on issues that are up to date writes nothing, whatever fails. -/
lemma workOnAll_settled {report report' : Report} (hrepo : repository w.state = repository m)
    (hproject : w.state.project = m.project) (horderly : Orderly m.project)
    (hidle : ∀ a ∈ tasks, Idle s.ids m a)
    (h : s.pass.workOnAll report tasks w = (report', v)) :
    OnlyRead w.state v.state ∧
      report' = { report with
        unchanged := report.unchanged + tasks.length, failed := report'.failed
        failedIssues := report'.failedIssues } ∧
      (¬MayFail s.rules →
        report'.failed = report.failed ∧ report'.failedIssues = report.failedIssues) := by
  induction tasks generalizing report w with
  | nil =>
    obtain ⟨rfl, rfl⟩ := action_pure h
    exact ⟨onlyRead_refl _, rfl, fun _ => ⟨rfl, rfl⟩⟩
  | cons a rest ih =>
    obtain ⟨o, w₁, w₂, hone, hstate, hall⟩ := workOnAll_cons h
    obtain ⟨g, j, rfl, hj, hmirrored⟩ := hidle a List.mem_cons_self
    have hsettled : g.comments ≠ 0 → ∃ p,
        CommentPlan.ofComments (listedComments m g) j.comments = .ok p ∧ p.writes = [] := by
      intro hcomments
      obtain ⟨p, hp, hempty⟩ := hmirrored.comments hcomments
      exact ⟨p, hp, writes_of_isEmpty hempty⟩
    have horderly' : Orderly w.state.project := by
      rw [hproject]
      exact horderly
    rw [← hproject] at hj
    obtain ⟨hread, hchange, hcreated, hupdated, hfailure⟩ :=
      workOn_settled hrepo horderly' hj hmirrored.current hsettled hone
    rw [← hstate] at hread
    have hproject₂ := (project_onlyRead hread).trans hproject
    obtain ⟨hread', hreport, hfailed⟩ := ih ((repository_onlyRead hread).trans hrepo) hproject₂
      (fun a ha => hidle a (List.mem_cons_of_mem _ ha)) hall
    refine ⟨onlyRead_trans hread hread', ?_, fun hreliable => ?_⟩
    · rw [hreport]
      unfold Report.add IssueOutcome.tally
      rw [hchange, hcreated, hupdated, List.length_cons]
      simp
      omega
    · have hnone : o.failure = none := by
        by_contra hne
        exact hreliable (hfailure hne)
      obtain ⟨hcount, hissues⟩ := hfailed hreliable
      rw [hcount, hissues, failedIssues_add, failureOf_eq_nil hnone, List.map_nil, List.append_nil]
      unfold Report.add
      rw [hnone]
      exact ⟨rfl, rfl⟩

lemma idle_of_mirrored (hone : ∀ g ∈ m.issues, mirrorCount s.ids g.id m.project ≤ 1)
    (hmirrored : ∀ g ∈ m.issues, ∃ j ∈ m.project, Mirrored s.ids m g j) :
    ∀ a ∈ s.tasks m, Idle s.ids m a := by
  intro a ha
  cases a with
  | create g =>
    obtain ⟨hg, hnone⟩ := mem_tasks_create ha
    obtain ⟨j, hj, hjg⟩ := hmirrored g hg
    exact absurd hjg.githubId (hnone j hj)
  | update g i =>
    obtain ⟨hg, hi, hid⟩ := mem_tasks_update ha
    obtain ⟨j, hj, hjg⟩ := hmirrored g hg
    rw [eq_of_mirrorCount_le_one (hone g hg) hi hj hid hjg.githubId]
    exact ⟨g, j, rfl, hj, hjg⟩

/-- A pass over a project in which every GitHub issue is mirrored writes nothing. -/
theorem run_settled {r : Except Failure Report} (horderly : Orderly w.state.project)
    (hone : ∀ g ∈ w.state.issues, mirrorCount s.ids g.id w.state.project ≤ 1)
    (hmirrored : ∀ g ∈ w.state.issues, ∃ j ∈ w.state.project, Mirrored s.ids w.state g j)
    (h : s.pass.run.run w = (r, v)) :
    OnlyRead w.state v.state ∧
      (∀ report, r = .ok report → report =
        { unchanged := w.state.issues.length, failed := report.failed
          failedIssues := report.failedIssues }) ∧
      (¬MayFail s.rules → r = .ok { unchanged := w.state.issues.length }) := by
  have hlength : (s.tasks w.state).length = w.state.issues.length := by
    unfold Setting.tasks IssuePlan.tasks
    rw [List.length_map]
  rcases run_course h with ⟨e, rfl, hread, hfail⟩ | ⟨w₁, w₂, report, hread, hwork, rfl, hstate⟩
  · refine ⟨hread, fun report hr => ?_, fun hreliable => absurd hfail hreliable⟩
    cases hr
  · obtain ⟨hread', hreport, hfailed⟩ := workOnAll_settled (repository_onlyRead hread)
      (project_onlyRead hread) horderly (idle_of_mirrored hone hmirrored) hwork
    have hunchanged : report =
        { unchanged := w.state.issues.length, failed := report.failed
          failedIssues := report.failedIssues } := by
      have hcount : (0 : Nat) + (s.tasks w.state).length = w.state.issues.length := by omega
      rw [← hcount]
      exact hreport
    rw [hstate]
    refine ⟨onlyRead_trans hread hread', fun report' hr => ?_, fun hreliable => ?_⟩
    · rw [← Except.ok.inj hr]
      exact hunchanged
    · obtain ⟨hcount, hissues⟩ := hfailed hreliable
      rw [hunchanged, hcount, hissues]

/-! ## Passes over a repository that stands still -/

/-- Passes over one memory, of which any calls may fail. -/
inductive SteadyPasses (ids : Jira.FieldNumbers) (issueType : String) (m₀ : Memory) :
    Memory → Prop where
  | start : SteadyPasses ids issueType m₀ m₀
  | pass {s : Setting} {w v : World Memory} {r : Except Failure Report}
      (hpasses : SteadyPasses ids issueType m₀ w.state) (hids : s.ids = ids)
      (htype : s.issueType = issueType) (hfresh : Fresh s.rules)
      (h : s.pass.run.run w = (r, v)) : SteadyPasses ids issueType m₀ v.state

/-- No GitHub issue that is listed has two mirrors. -/
def Single (ids : Jira.FieldNumbers) (m : Memory) : Prop :=
  ∀ g ∈ m.issues, mirrorCount ids g.id m.project ≤ 1

lemma snapshot_of_repository {m m' : Memory} (hrepo : repository m' = repository m)
    (h : Snapshot m) : Snapshot m' := by
  have hissues := issues_of_repository hrepo
  refine ⟨⟨?_, ?_, ?_⟩, ?_⟩
  · rw [hissues]
    exact h.issues
  · rw [hissues]
    exact h.small
  · intro g hg
    rw [hissues] at hg
    rw [listedComments_of_repository hrepo]
    exact h.comments g hg
  · intro g hg c hc u hu
    rw [hissues] at hg
    rw [listedComments_of_repository hrepo] at hc
    rw [users_of_repository hrepo] at hu
    exact h.legible g hg c hc u hu

/-- What every pass over a memory keeps. -/
structure Kept (ids : Jira.FieldNumbers) (m₀ m : Memory) : Prop where
  repository : repository m = repository m₀
  snapshot : Snapshot m
  orderly : Orderly m.project
  single : Single ids m

lemma kept_after {r : Except Failure Report} (hids : Function.Injective s.ids.number)
    (hfresh : Fresh s.rules) (hkept : Kept s.ids m₀ w.state) (h : s.pass.run.run w = (r, v)) :
    Kept s.ids m₀ v.state := by
  have hrepo := run_keeps (repository_confined s) w
  rw [h] at hrepo
  obtain ⟨horderly, hissues, -⟩ :=
    run_keeps_unique hids hfresh hkept.snapshot.toNumbered hkept.orderly h
  refine ⟨hrepo.trans hkept.repository, snapshot_of_repository hrepo hkept.snapshot, horderly, ?_⟩
  intro g hg
  rw [issues_of_repository hrepo] at hg
  exact hissues g.id (hkept.single g hg)

lemma kept_steady (hids : Function.Injective ids.number) (hkept : Kept ids m₀ m₀)
    (h : SteadyPasses ids issueType m₀ m) : Kept ids m₀ m := by
  induction h with
  | start => exact hkept
  | @pass s w v r hpasses hs htype hfresh hrun ih =>
    subst hs
    exact kept_after hids hfresh ih hrun

lemma finished_of_repository {m m' : Memory} (hrepo : repository m' = repository m) :
    Finished ids issueType m' = Finished ids issueType m := by
  funext g i j
  unfold Finished FullyPosted
  rw [listedComments_of_repository hrepo, users_of_repository hrepo]

lemma completed_of_repository {m m' : Memory} (hrepo : repository m' = repository m)
    (h : Completed ids issueType m' project project') :
    Completed ids issueType m project project' := by
  obtain ⟨t, born, new, hproject, hfollowed, hall⟩ := h
  have hissues := issues_of_repository hrepo
  rw [hissues] at hall
  rw [finished_of_repository hrepo] at hfollowed
  refine ⟨t, born, new, hproject, ⟨?_, ?_, hfollowed.nodup, ?_, hfollowed.created⟩, hall⟩
  · rw [← hissues]
    exact hfollowed.mirrors
  · rw [← hissues]
    exact hfollowed.others
  · rw [← hissues]
    exact hfollowed.among

/-- What can be completed after a pass could be completed before it, to the same end. -/
lemma completed_before {r : Except Failure Report} (hids : Function.Injective s.ids.number)
    (hfresh : Fresh s.rules) (hkept : Kept s.ids m₀ w.state) (h : s.pass.run.run w = (r, v))
    (hcompleted : Completed s.ids s.issueType w.state v.state.project project') :
    Completed s.ids s.issueType w.state w.state.project project' := by
  by_cases hdry : s.dryRun = true
  · have hsame := run_keeps (project_confined s hdry) w
    rw [h] at hsame
    rw [← hsame]
    exact hcompleted
  · cases r with
    | error e =>
      rcases run_course h with ⟨e, -, hread, -⟩ | ⟨w₁, w₂, report, -, -, hr, -⟩
      · rw [← project_onlyRead hread]
        exact hcompleted
      · cases hr
    | ok report =>
      obtain ⟨failed, t, born, new, hbrought, hproject, -, -⟩ :=
        run_brought hids (Bool.eq_false_iff.mpr hdry) hfresh hkept.orderly hkept.snapshot.issues h
      rw [hproject] at hcompleted
      have hfollowed := followed_of_brought hkept.snapshot.toNumbered hkept.single hbrought
        fun _ _ _ hworked => hworked.1
      exact completed_resumed hids hkept.snapshot hkept.orderly hfollowed hcompleted

lemma completed_steady (hids : Function.Injective ids.number) (hkept : Kept ids m₀ m₀)
    (h : SteadyPasses ids issueType m₀ m)
    (hcompleted : Completed ids issueType m₀ m.project project') :
    Completed ids issueType m₀ m₀.project project' := by
  induction h with
  | start => exact hcompleted
  | @pass s w v r hpasses hs htype hfresh hrun ih =>
    subst hs htype
    have hbefore := kept_steady hids hkept hpasses
    apply ih
    apply completed_of_repository hbefore.repository
    apply completed_before hids hfresh hbefore hrun
    exact completed_of_repository hbefore.repository.symm hcompleted

/-- A pass in which no issue fails completes a project. -/
lemma completed_by_pass {report : Report} (hids : Function.Injective s.ids.number)
    (hwrite : s.dryRun = false) (hfresh : Fresh s.rules) (hkept : Kept s.ids m₀ w.state)
    (h : s.pass.run.run w = (.ok report, v)) (hclean : report.failedIssues = []) :
    Completed s.ids s.issueType w.state w.state.project v.state.project := by
  obtain ⟨failed, t, born, new, hbrought, hproject, -, hfailed⟩ :=
    run_brought hids hwrite hfresh hkept.orderly hkept.snapshot.issues h
  rw [hclean] at hfailed
  obtain rfl : failed = [] := List.map_eq_nil_iff.mp hfailed.symm
  rw [hproject]
  exact completed_of_brought hkept.snapshot.toNumbered hkept.single hbrought

/-- A project that can be completed is completed by one pass in which no call fails. -/
lemma completed_at_once (hids : Function.Injective s.ids.number) (hwrite : s.dryRun = false)
    (hfresh : Fresh s.rules) (hreliable : ¬MayFail s.rules) (hkept : Kept s.ids m₀ w.state)
    (hcompleted : Completed s.ids s.issueType w.state w.state.project project') :
    ∃ report v, s.pass.run.run w = (.ok report, v) ∧ report.failedIssues = [] := by
  rcases hrun : s.pass.run.run w with ⟨r, v⟩
  cases r with
  | error e =>
    rcases run_course hrun with ⟨e, -, -, hfail⟩ | ⟨w₁, w₂, report, -, -, hr, -⟩
    · exact absurd hfail hreliable
    · cases hr
  | ok report =>
    refine ⟨report, v, rfl, ?_⟩
    obtain ⟨failed, t, born, new, hbrought, -, -, hfailed⟩ :=
      run_brought hids hwrite hfresh hkept.orderly hkept.snapshot.issues hrun
    rw [hfailed, List.map_eq_nil_iff, List.eq_nil_iff_forall_not_mem]
    intro g hg
    obtain ⟨t', born', new', -, hfollowed, hall⟩ := hcompleted
    rcases hbrought.hindered g hg with ⟨i, htask, hhindered⟩ | ⟨htask, hhindered⟩
    · obtain ⟨hissue, hi, hid⟩ := mem_tasks_update htask
      exact not_hindered_of_finished hreliable (hfollowed.mirrors i hi g hissue hid) hhindered
    · obtain ⟨hissue, hnone⟩ := mem_tasks_create htask
      obtain ⟨j, -, now, key, hfinished⟩ :=
        exists_right_of_forall₂ hfollowed.created (hall g hissue hnone)
      exact not_hindered_of_finished (i := newIssue g s.ids s.issueType now key) hreliable
        hfinished hhindered

/-- After passes of which any calls failed, one pass in which no issue fails leaves the project that
a single pass without failures makes of the first one, and any further pass only reads. -/
theorem passes_recover {last : Setting} {report : Report}
    (hids : Function.Injective last.ids.number) (hsnapshot : Snapshot m₀)
    (horderly : Orderly m₀.project) (hsingle : Single last.ids m₀)
    (hpasses : SteadyPasses last.ids last.issueType m₀ w.state) (hwrite : last.dryRun = false)
    (hfresh : Fresh last.rules) (h : last.pass.run.run w = (.ok report, v))
    (hclean : report.failedIssues = []) :
    (∀ once : Setting, once.ids = last.ids → once.issueType = last.issueType →
      once.dryRun = false → Fresh once.rules → ¬MayFail once.rules → ∀ log,
        ∃ report' v', once.pass.run.run ⟨m₀, log⟩ = (.ok report', v') ∧
          report'.failedIssues = [] ∧ SameProject last.ids v.state.project v'.state.project) ∧
    ∀ further : Setting, further.ids = last.ids → ∀ log r v',
      further.pass.run.run ⟨v.state, log⟩ = (r, v') →
        OnlyRead v.state v'.state ∧
        (∀ report', r = .ok report' → report' =
          { unchanged := m₀.issues.length, failed := report'.failed
            failedIssues := report'.failedIssues }) ∧
        (¬MayFail further.rules → r = .ok { unchanged := m₀.issues.length }) := by
  have hkept₀ : Kept last.ids m₀ m₀ := ⟨rfl, hsnapshot, horderly, hsingle⟩
  have hkept := kept_steady hids hkept₀ hpasses
  have hkept' := kept_after hids hfresh hkept h
  have hcompleted : Completed last.ids last.issueType m₀ m₀.project v.state.project := by
    apply completed_steady hids hkept₀ hpasses
    apply completed_of_repository hkept.repository
    exact completed_by_pass hids hwrite hfresh hkept h hclean
  refine ⟨?_, ?_⟩
  · intro once honceIds honceType honceWrite honceFresh hreliable log
    rw [← honceIds] at hids hkept₀ hcompleted ⊢
    rw [← honceType] at hcompleted
    obtain ⟨report', v', hrun, hclean'⟩ := completed_at_once (w := ⟨m₀, log⟩) hids honceWrite
      honceFresh hreliable hkept₀ hcompleted
    refine ⟨report', v', hrun, hclean', ?_⟩
    exact completed_same hids hcompleted
      (completed_by_pass hids honceWrite honceFresh hkept₀ hrun hclean')
  · intro further hfurther log r v' hrun
    have hissues := issues_of_repository hkept'.repository
    have hmirrored : ∀ g ∈ v.state.issues, ∃ j ∈ v.state.project,
        Mirrored further.ids v.state g j := by
      intro g hg
      rw [hfurther]
      exact mirrored_of_completed hids hkept'.snapshot horderly
        (completed_of_repository hkept'.repository.symm hcompleted) hg
    rw [← hissues]
    refine run_settled (w := ⟨v.state, log⟩) hkept'.orderly ?_ hmirrored hrun
    rw [hfurther]
    exact hkept'.single

lemma steady_sampleRun (fails : Memory → String → Bool) :
    SteadyPasses sampleIds "Task" sampleMemory (sampleRun fails sampleMemory.project) := by
  unfold sampleRun
  rcases hrun : (sampleSetting fails).pass.run.run ⟨sampleMemory, []⟩ with ⟨r, v⟩
  exact SteadyPasses.pass (w := ⟨sampleMemory, []⟩) SteadyPasses.start rfl rfl
    (fresh_unusedNames fails) hrun

/-- Two passes, the first of which cannot add a comment, do the same as one. -/
theorem passes_recover_discussed :
    ∃ v, (sampleSetting fun _ _ => false).pass.run.run
        ⟨sampleRun (fun _ name => name == "comment A-1") sampleMemory.project, []⟩ =
          (.ok { unchanged := 2, commentsCreated := 1 }, v) ∧
      SameProject sampleIds v.state.project
        (sampleRun (fun _ _ => false) sampleMemory.project).project := by
  let s := sampleSetting fun _ _ => false
  have hsteady := steady_sampleRun fun _ name => name == "comment A-1"
  have hreport : (s.pass.run.run
      ⟨sampleRun (fun _ name => name == "comment A-1") sampleMemory.project, []⟩).1 =
        .ok { unchanged := 2, commentsCreated := 1 } := by
    decide +kernel
  generalize sampleRun (fun _ name => name == "comment A-1") sampleMemory.project = stopped
    at hsteady hreport ⊢
  have hreliable : ¬MayFail s.rules := by
    rintro ⟨m, name, hfails⟩
    cases hfails
  have hsingle : Single sampleIds sampleMemory := by
    intro g hg
    revert g
    decide +kernel
  generalize hrun : s.pass.run.run ⟨stopped, []⟩ = result at hreport
  obtain ⟨r, v⟩ := result
  dsimp only at hreport
  subst hreport
  refine ⟨v, rfl, ?_⟩
  have hids : Function.Injective s.ids.number := sampleIds_injective
  obtain ⟨hsame, -⟩ := passes_recover (w := ⟨stopped, []⟩) hids sample_snapshot sample_orderly
    hsingle hsteady rfl (fresh_unusedNames _) hrun rfl
  obtain ⟨report', v', hrun', -, hproject⟩ :=
    hsame s rfl rfl rfl (fresh_unusedNames _) hreliable []
  unfold sampleRun
  have hstate : s.pass.run.run ⟨{ sampleMemory with project := sampleMemory.project }, []⟩ =
      (.ok report', v') := hrun'
  rw [hstate]
  exact hproject

end IssueBridge.Proofs
