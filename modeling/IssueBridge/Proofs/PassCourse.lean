import IssueBridge.Proofs.PassWork

/-!
# The course of a pass

A pass fails in one of its listings, and then nothing has changed, or it works on one task for each
GitHub issue that was listed. Each task is for the first issue that stands for its GitHub issue.
-/

namespace IssueBridge.Proofs

open IssuePlan (githubId? creations)

variable {s : Setting} {m : Memory} {g : GitHub.Issue} {j : Jira.Issue} {w v : World Memory}
  {r : Except Failure Report}

lemma forM_emit_bind {α β : Type} {event : α → Event} {items : List α} {f : Unit → Call Memory β}
    {r : Except Failure β}
    (h : ((items.forM fun i => (Call.emit (event i) : Call Memory Unit)) >>= f).run w = (r, v)) :
    ∃ u : World Memory, u.state = w.state ∧ (f ()).run u = (r, v) := by
  rw [run_bind, run_forM_emit] at h
  exact ⟨{ w with log := w.log ++ items.map event }, rfl, h⟩

lemma emit_bind {β : Type} {event : Event} {f : Unit → Call Memory β} {r : Except Failure β}
    (h : ((Call.emit event : Call Memory Unit) >>= f).run w = (r, v)) :
    ∃ u : World Memory, u.state = w.state ∧ (f ()).run u = (r, v) := by
  rw [run_bind, run_emit] at h
  exact ⟨{ w with log := w.log ++ [event] }, rfl, h⟩

/-- The tasks of a pass over a memory. -/
def Setting.tasks (s : Setting) (m : Memory) : List IssueTask :=
  IssuePlan.tasks m.issues (m.listed s.rules.listAll s.ids (m.issues.map GitHub.Issue.id)) s.ids

/-- A pass whose listings fail for one reason only fails for it, or works on what was listed. -/
lemma run_course_of {why : Prop}
    (hlisting : ∀ {w v : World Memory} {r : Except Failure (List GitHub.Issue)},
      (s.pass.source.issues s.repo s.since).run w = (r, v) →
        OnlyRead w.state v.state ∧ (r = .ok w.state.issues ∨ ∃ e, r = .error e ∧ why))
    (hmirrors : ∀ {w v : World Memory} {numbers : List Int64}
      {r : Except Failure (List Jira.Issue)}, (s.pass.target.issues numbers).run w = (r, v) →
        OnlyRead w.state v.state ∧
          (r = .ok (w.state.listed s.rules.listAll s.ids numbers) ∨ ∃ e, r = .error e ∧ why))
    (h : s.pass.run.run w = (r, v)) :
    (∃ e, r = .error e ∧ OnlyRead w.state v.state ∧ why) ∨
      ∃ w₁ w₂ report, OnlyRead w.state w₁.state ∧
        s.pass.workOnAll {} (s.tasks w.state) w₁ = (report, w₂) ∧ r = .ok report ∧
        v.state = w₂.state := by
  unfold Pass.run at h
  rcases within_bind h with ⟨issues, w₁, hlist, hrest⟩ | ⟨e, e', hlist, hr⟩
  · obtain ⟨hread, hissues | ⟨e, he, -⟩⟩ := hlisting hlist
    · obtain rfl := Except.ok.inj hissues
      by_cases hempty : w.state.issues.isEmpty = true
      · rw [if_pos hempty] at hrest
        obtain ⟨w₂, hw₂, hpure⟩ := emit_bind hrest
        obtain ⟨hr, rfl⟩ := call_pure hpure
        have hnone : s.tasks w.state = [] := by
          unfold Setting.tasks
          rw [List.isEmpty_iff.mp hempty]
          rfl
        refine Or.inr ⟨w₁, w₁, {}, hread, ?_, hr, hw₂⟩
        rw [hnone]
        rfl
      · rw [if_neg hempty] at hrest
        rcases within_bind hrest with ⟨existing, w₂, htarget, hrest⟩ | ⟨e, e', htarget, hr⟩
        · obtain ⟨hread', hexisting | ⟨e, he, -⟩⟩ := hmirrors htarget
          · obtain rfl := Except.ok.inj hexisting
            obtain ⟨w₃, hw₃, hrest⟩ := forM_emit_bind hrest
            obtain ⟨report, w₄, hwork, hrest⟩ := call_lift hrest
            obtain ⟨w₅, hw₅, hpure⟩ := emit_bind hrest
            obtain ⟨hr, rfl⟩ := call_pure hpure
            have hlisted : w₁.state.listed s.rules.listAll s.ids
                (w.state.issues.map GitHub.Issue.id) = w.state.listed s.rules.listAll s.ids
                (w.state.issues.map GitHub.Issue.id) := by
              unfold Memory.listed
              rw [project_onlyRead hread]
            refine Or.inr ⟨w₃, w₄, report, ?_, ?_, hr, hw₅⟩
            · rw [hw₃]
              exact onlyRead_trans hread hread'
            · unfold Setting.tasks
              rw [← hlisted]
              exact hwork
          · cases he
        · obtain ⟨hread', hexisting | ⟨e'', -, hfail⟩⟩ := hmirrors htarget
          · cases hexisting
          · exact Or.inl ⟨e, hr, onlyRead_trans hread hread', hfail⟩
    · cases he
  · obtain ⟨hread, hissues | ⟨e'', -, hfail⟩⟩ := hlisting hlist
    · cases hissues
    · exact Or.inl ⟨e, hr, hread, hfail⟩

/-- A pass fails in a listing, or works on the tasks for what was listed. -/
theorem run_course {r : Except Failure Report} (h : s.pass.run.run w = (r, v)) :
    (∃ e, r = .error e ∧ OnlyRead w.state v.state ∧ MayFail s.rules) ∨
      ∃ w₁ w₂ report, OnlyRead w.state w₁.state ∧
        s.pass.workOnAll {} (s.tasks w.state) w₁ = (report, w₂) ∧ r = .ok report ∧
        v.state = w₂.state :=
  run_course_of listIssues_course issues_course h

/-! ## Tasks -/

lemma mem_of_mem_listed {listAll : Bool} {ids : Jira.FieldNumbers} {numbers : List Int64}
    (h : j ∈ m.listed listAll ids numbers) : j ∈ m.project :=
  List.mem_of_mem_filter h

lemma mem_listed {listAll : Bool} {ids : Jira.FieldNumbers} {numbers : List Int64} {n : Int64}
    (hj : j ∈ m.project) (hid : githubId? ids j = some n) (hn : n ∈ numbers) :
    j ∈ m.listed listAll ids numbers := by
  refine List.mem_filter.mpr ⟨hj, ?_⟩
  unfold githubId? at hid
  rw [hid]
  simp [hn]

lemma taskOf_update {ids : Jira.FieldNumbers} {existing : List Jira.Issue} {g' : GitHub.Issue}
    (h : IssuePlan.taskOf ids existing g = .update g' j) :
    g' = g ∧ j ∈ existing ∧ githubId? ids j = some g.id := by
  unfold IssuePlan.taskOf at h
  cases hfind : IssuePlan.counterpart ids existing g with
  | none =>
    rw [hfind] at h
    cases h
  | some k =>
    rw [hfind] at h
    obtain ⟨rfl, rfl⟩ := IssueTask.update.inj h
    exact ⟨rfl, List.mem_of_find?_eq_some hfind, by simpa using List.find?_some hfind⟩

lemma taskOf_create {ids : Jira.FieldNumbers} {existing : List Jira.Issue} {g' : GitHub.Issue}
    (h : IssuePlan.taskOf ids existing g = .create g') :
    g' = g ∧ ∀ j ∈ existing, githubId? ids j ≠ some g.id := by
  unfold IssuePlan.taskOf at h
  cases hfind : IssuePlan.counterpart ids existing g with
  | none =>
    rw [hfind] at h
    refine ⟨(IssueTask.create.inj h).symm, fun j hj hid => ?_⟩
    have hnone := List.find?_eq_none.mp hfind j hj
    simp [hid] at hnone
  | some k =>
    rw [hfind] at h
    cases h

lemma mem_tasks_update (h : .update g j ∈ s.tasks m) :
    g ∈ m.issues ∧ j ∈ m.project ∧ githubId? s.ids j = some g.id := by
  obtain ⟨g', hg', htask⟩ := List.mem_map.mp h
  obtain ⟨rfl, hj, hid⟩ := taskOf_update htask
  exact ⟨hg', mem_of_mem_listed hj, hid⟩

lemma mem_tasks_create (h : .create g ∈ s.tasks m) :
    g ∈ m.issues ∧ ∀ j ∈ m.project, githubId? s.ids j ≠ some g.id := by
  obtain ⟨g', hg', htask⟩ := List.mem_map.mp h
  obtain ⟨rfl, hnone⟩ := taskOf_create htask
  exact ⟨hg', fun j hj hid => hnone j (mem_listed hj hid (List.mem_map_of_mem hg')) hid⟩

/-- Every GitHub issue has a task. -/
lemma exists_task (s : Setting) (hg : g ∈ m.issues) :
    .create g ∈ s.tasks m ∨ ∃ j, .update g j ∈ s.tasks m := by
  have hmem : IssuePlan.taskOf s.ids (m.listed s.rules.listAll s.ids
      (m.issues.map GitHub.Issue.id)) g ∈ s.tasks m := List.mem_map_of_mem hg
  cases htask : IssuePlan.taskOf s.ids (m.listed s.rules.listAll s.ids
      (m.issues.map GitHub.Issue.id)) g with
  | create g' =>
    obtain ⟨rfl, -⟩ := taskOf_create htask
    rw [htask] at hmem
    exact Or.inl hmem
  | update g' j =>
    obtain ⟨rfl, -⟩ := taskOf_update htask
    rw [htask] at hmem
    exact Or.inr ⟨j, hmem⟩

lemma mem_creations {tasks : List IssueTask} : g ∈ creations tasks ↔ .create g ∈ tasks := by
  unfold creations
  rw [List.mem_filterMap]
  constructor
  · rintro ⟨a, ha, hag⟩
    cases a with
    | create g' =>
      rw [← Option.some.inj hag]
      exact ha
    | update g' j => cases hag
  · intro hg
    exact ⟨.create g, hg, rfl⟩

lemma creations_sublist (s : Setting) (m : Memory) : (creations (s.tasks m)).Sublist m.issues := by
  unfold Setting.tasks IssuePlan.tasks
  generalize m.listed s.rules.listAll s.ids (m.issues.map GitHub.Issue.id) = existing
  induction m.issues with
  | nil => exact List.Sublist.refl _
  | cons g issues ih =>
    rw [List.map_cons]
    unfold creations at ih ⊢
    cases htask : IssuePlan.taskOf s.ids existing g with
    | create g' =>
      obtain ⟨rfl, -⟩ := taskOf_create htask
      exact ih.cons_cons g'
    | update g' j => exact ih.cons g

/-- Tasks for GitHub issues with different identifiers are for different issues. -/
lemma targeted_tasks (s : Setting) (hkeys : (m.project.map Jira.Issue.key).Nodup)
    (hids : (m.issues.map GitHub.Issue.id).Nodup) : Targeted (s.tasks m) m.project := by
  refine ⟨fun g j hj => (mem_tasks_update hj).2.1, ?_⟩
  unfold Setting.tasks IssuePlan.tasks
  rw [List.pairwise_map]
  refine List.Pairwise.imp (fun hne g j g' j' ha hb hkey => hne ?_) (List.pairwise_map.mp hids)
  obtain ⟨rfl, hj, hid⟩ := taskOf_update ha
  obtain ⟨rfl, hj', hid'⟩ := taskOf_update hb
  rw [eq_of_key_eq hkeys (mem_of_mem_listed hj) (mem_of_mem_listed hj') hkey, hid'] at hid
  exact (Option.some.inj hid).symm

/-- What a pass makes of the project. -/
theorem run_brought {report : Report} (hids : Function.Injective s.ids.number)
    (hwrite : s.dryRun = false) (hfresh : Fresh s.rules) (horderly : Orderly w.state.project)
    (hdistinct : (w.state.issues.map GitHub.Issue.id).Nodup)
    (h : s.pass.run.run w = (.ok report, v)) :
    ∃ failed t born new,
      Brought s w.state (s.tasks w.state) failed w.state.project t born new ∧
      v.state.project = w.state.project.map t ++ new ∧ Orderly v.state.project ∧
      report.failedIssues = failed.map GitHub.Issue.number := by
  rcases run_course h with ⟨e, he, -⟩ | ⟨w₁, w₂, report', hread, hwork, hreport, hstate⟩
  · cases he
  · obtain rfl := Except.ok.inj hreport
    have hproject := project_onlyRead hread
    have htargets := targeted_tasks s horderly.keys hdistinct
    rw [← hproject] at horderly htargets ⊢
    rw [hstate]
    obtain ⟨failed, t, born, new, hbrought, hproject', horderly', hfailed⟩ :=
      workOnAll_course hids hwrite hfresh (repository_onlyRead hread) horderly htargets hwork
    exact ⟨failed, t, born, new, hbrought, hproject', horderly', hfailed⟩

end IssueBridge.Proofs
