import IssueBridge.Proofs.DryCalls
import IssueBridge.Proofs.Surroundings

/-!
# Dry runs

A dry run comes to the same result as a run that writes, asks GitHub the same questions, and leaves
the project as it was. The two runs are followed side by side: nothing that is written for one issue
is read for another one.
-/

namespace IssueBridge.Proofs

open CommentPlan (ofComments)

variable {s : Setting} {a : Answers} {start : Memory} {rest tasks : List IssueTask}
  {g : GitHub.Issue} {i j : Jira.Issue} {key : String} {held : List String}
  {R : Memory → Memory → Prop}

/-! ## Comments -/

lemma lookUp_parallel (known : Dictionary GitHub.User) (login : String) :
    Parallel (Level R) ((s.passOn a true).lookUp known login).run
      ((s.passOn a false).lookUp known login).run (Both (Same R) (Same R)) := by
  unfold Pass.lookUp
  cases known.get? login with
  | some user => exact parallel_call_pure fun _ _ h => ⟨rfl, h⟩
  | none =>
    refine parallel_ask_bind (.user login) (fun past => a.user past login) (fun _ _ _ h => ⟨rfl, h⟩)
      fun _ user _ => ?_
    exact parallel_call_pure fun _ _ h => ⟨rfl, h⟩

lemma writeComment_parallel (hsound : ¬MayFail s.rules) (hfresh : Fresh s.rules) (other : String)
    (known : Dictionary GitHub.User) {x : CommentWrite} (hx : ∀ c t, x = .edit c t → t.id ∈ held) :
    Parallel (Level (Facing start rest key held))
      ((s.passOn a true).writeComment other known x).run
      ((s.passOn a false).writeComment key known x).run
      (Both (Same (Facing start rest key held)) (Same (Facing start rest key held))) := by
  unfold Pass.writeComment
  apply parallel_call_bind (lookUp_parallel known x.source.author)
  apply parallel_of_same
  rintro ⟨user, known'⟩
  cases x with
  | create c =>
    refine parallel_call_bind
      (parallel_memory _ _ (addComment_parallel s.ids hsound hfresh other _)) fun _ _ => ?_
    exact parallel_call_pure fun _ _ h => ⟨rfl, h⟩
  | edit c t =>
    refine parallel_call_bind
      (parallel_memory _ _ (editComment_parallel s.ids hsound other _ (hx c t rfl))) fun _ _ => ?_
    exact parallel_call_pure fun _ _ h => ⟨rfl, h⟩

lemma writeComments_parallel (hsound : ¬MayFail s.rules) (hfresh : Fresh s.rules) (other : String)
    (known : Dictionary GitHub.User) {ws : List CommentWrite}
    (hws : ∀ c t, .edit c t ∈ ws → t.id ∈ held) :
    Parallel (Level (Facing start rest key held))
      ((s.passOn a true).writeComments other known ws)
      ((s.passOn a false).writeComments key known ws) (Same (Facing start rest key held)) := by
  induction ws generalizing known with
  | nil => exact parallel_pure fun _ _ h => ⟨rfl, h⟩
  | cons x ws ih =>
    have hx : ∀ c t, x = .edit c t → t.id ∈ held :=
      fun c t heq => hws c t (heq ▸ List.mem_cons_self)
    rw [Pass.writeComments, Pass.writeComments]
    refine parallel_bind (writeComment_parallel hsound hfresh other known hx) ?_
    refine parallel_of_both (parallel_of_same fun known' => ?_) (parallel_of_same fun e => ?_)
    · refine parallel_bind (ih known' fun c t h => hws c t (List.mem_cons_of_mem x h)) ?_
      exact parallel_of_same fun o => parallel_pure fun _ _ h => ⟨rfl, h⟩
    · exact parallel_pure fun _ _ h => ⟨rfl, h⟩

/-- Two issues with the same comments get the same plan. -/
lemma planComments_parallel (hcomments : i.comments = j.comments)
    (hnamed : i.key = j.key ∨ j.comments = []) :
    Parallel (Level R) ((s.passOn a true).planComments g i).run
      ((s.passOn a false).planComments g j).run
      (Both (fun p q s t => (∃ comments, ofComments comments j.comments = .ok p) ∧ Same R p q s t)
        (Same R)) := by
  unfold Pass.planComments
  refine parallel_ask_bind (.comments s.repo g.number s.since)
    (fun past => a.comments past s.repo g.number s.since) (fun _ _ _ h => ⟨rfl, h⟩)
    fun _ comments _ => ?_
  rw [hcomments]
  cases hplan : ofComments comments j.comments with
  | ok p => exact parallel_call_pure fun _ _ h => ⟨⟨comments, hplan⟩, rfl, h⟩
  | error e =>
    -- the failure names the issue, but there is none where no comments are held
    rcases hnamed with hkey | hnone
    · rw [hkey]
      exact fun _ _ h => .error ⟨rfl, h⟩
    · have hempty : ∃ p, ofComments comments [] = .ok p :=
        exists_ofComments fun c _ => ⟨_, needOf_none rfl⟩
      obtain ⟨p, hp⟩ := hempty
      rw [hnone, hp] at hplan
      cases hplan

lemma workOnComments_facing (hsound : ¬MayFail s.rules) (hfresh : Fresh s.rules)
    (hcomments : i.comments = j.comments) (hnamed : i.key = j.key ∨ j.comments = []) :
    Parallel (Level (Facing start rest j.key (j.comments.map Jira.Comment.id)))
      ((s.passOn a true).workOnComments g i) ((s.passOn a false).workOnComments g j)
      (Same (Facing start rest j.key (j.comments.map Jira.Comment.id))) := by
  unfold Pass.workOnComments
  by_cases hzero : g.comments = 0
  · rw [if_pos hzero, if_pos hzero]
    exact parallel_pure fun _ _ h => ⟨rfl, h⟩
  · rw [if_neg hzero, if_neg hzero]
    refine parallel_bind (planComments_parallel hcomments hnamed) ?_
    refine parallel_of_both (fun p q => ?_) (parallel_of_same fun e => ?_)
    · refine parallel_of_and fun ⟨comments, hplan⟩ => ?_
      refine parallel_of_and fun hpq => ?_
      rw [← hpq]
      apply writeComments_parallel hsound hfresh
      intro c t hedit
      exact List.mem_map_of_mem (mem_held_of_edit hplan hedit)
    · exact parallel_pure fun _ _ h => ⟨rfl, h⟩

lemma workOnComments_parallel (hsound : ¬MayFail s.rules) (hfresh : Fresh s.rules) :
    Parallel (Level (Current start rest i j)) ((s.passOn a true).workOnComments g i)
      ((s.passOn a false).workOnComments g j) (Same (Abreast start rest)) := by
  intro w v h
  have hfacing := workOnComments_facing (a := a) (g := g) hsound hfresh h.2.comments h.2.named w v
    (level_mono (fun _ _ hcurrent => hcurrent.toFacing) h)
  exact ⟨hfacing.1, level_mono (fun _ _ hfacing => hfacing.toAbreast) hfacing.2⟩

/-! ## Issues -/

lemma ids_passOn (s : Setting) (a : Answers) (dryRun : Bool) : (s.passOn a dryRun).ids = s.ids :=
  rfl

lemma writeIssue_update_parallel (hsound : ¬MayFail s.rules) (hj : .update g j ∈ tasks) :
    Parallel (Level (Abreast start tasks)) ((s.passOn a true).writeIssue (.update g j)).run
      ((s.passOn a false).writeIssue (.update g j)).run
      (Both (fun p q s t => (p.1 ≠ .created ∧ p.2 = j) ∧ Same (Abreast start tasks) p q s t)
        Never) := by
  rw [Pass.writeIssue, Pass.writeIssue]
  by_cases hold : isOutdated g j s.ids = true
  · rw [ids_passOn, ids_passOn, if_pos hold, if_pos hold]
    refine parallel_call_bind
      (parallel_memory _ _ (update_parallel s.ids hsound hj _)) fun _ _ => ?_
    refine parallel_call_bind (parallel_call_emit _ _ _) fun _ _ => ?_
    exact parallel_call_pure fun _ _ h => ⟨⟨nofun, rfl⟩, rfl, h⟩
  · rw [ids_passOn, ids_passOn, if_neg hold, if_neg hold]
    exact parallel_call_pure fun _ _ h => ⟨⟨nofun, rfl⟩, rfl, h⟩

lemma writeIssue_create_parallel (hsound : ¬MayFail s.rules) (hfresh : Fresh s.rules) :
    Parallel (Level (Abreast start rest)) ((s.passOn a true).writeIssue (.create g)).run
      ((s.passOn a false).writeIssue (.create g)).run
      (Both (fun p q s t => (p.1 = .created ∧ q.1 = .created) ∧
        Level (Created start rest p.2 q.2) s t) Never) := by
  rw [Pass.writeIssue, Pass.writeIssue]
  refine parallel_call_bind
    (parallel_memory _ _ (create_parallel s.ids hsound hfresh _)) fun _ _ => ?_
  refine parallel_call_bind (parallel_call_emit _ _ _) fun _ _ => ?_
  exact parallel_call_pure fun _ _ h => ⟨⟨rfl, rfl⟩, h⟩

lemma readBack_eq {p : Pass Site} {change : IssueChange} (j : Jira.Issue)
    (h : change ≠ .created ∨ p.target.dryRun = false) :
    p.readBack change j = (p.target.issue j.key).within ("fetching Jira issue " ++ j.key) := by
  refine if_neg fun ⟨hcreated, hdry⟩ => ?_
  rcases h with hchange | hwet
  · exact hchange hcreated
  · rw [hdry] at hwet
    cases hwet

/-- Whatever was done to the fields of an issue, the work goes on with the issue read back. -/
lemma afterWrite_parallel (hsound : ¬MayFail s.rules) (hfresh : Fresh s.rules)
    {S : Site → Site → Prop} (change : IssueChange)
    (h : Parallel S ((s.passOn a true).readBack change i).run
      ((s.passOn a false).readBack change j).run
      (Both (fun i j => Level (Current start rest i j)) Never)) :
    Parallel S
      (do
        match ← ((s.passOn a true).readBack change i).run with
        | .error e => return { change := some change, failure := some e }
        | .ok current =>
          let comments ← (s.passOn a true).workOnComments g current
          return { change := some change, comments, failure := comments.failure } :
          Action Site IssueOutcome)
      (do
        match ← ((s.passOn a false).readBack change j).run with
        | .error e => return { change := some change, failure := some e }
        | .ok current =>
          let comments ← (s.passOn a false).workOnComments g current
          return { change := some change, comments, failure := comments.failure })
      (Same (Abreast start rest)) := by
  refine parallel_bind h (parallel_of_both (fun i j => ?_) fun _ _ _ _ hnever => hnever.elim)
  refine parallel_bind (workOnComments_parallel hsound hfresh) (parallel_of_same fun o => ?_)
  exact parallel_pure fun _ _ h => ⟨rfl, h⟩

lemma workOn_parallel (hsound : ¬MayFail s.rules) (hfresh : Fresh s.rules) {task : IssueTask}
    (horderly : Orderly start.project) (htargets : Targeted (task :: rest) start.project) :
    Parallel (Level (Abreast start (task :: rest))) ((s.passOn a true).workOn task)
      ((s.passOn a false).workOn task) (Same (Abreast start rest)) := by
  unfold Pass.workOn
  cases task with
  | update g j =>
    refine parallel_bind (writeIssue_update_parallel hsound List.mem_cons_self)
      (parallel_of_both ?_ fun _ _ _ _ hnever => hnever.elim)
    intro ⟨change, i⟩ q
    refine parallel_of_and fun ⟨hchange, hi⟩ => parallel_of_and fun hq => ?_
    rw [← hq]
    obtain rfl : i = j := hi
    refine afterWrite_parallel hsound hfresh change ?_
    rw [readBack_eq i (Or.inl hchange), readBack_eq i (Or.inl hchange)]
    exact parallel_memory _ _ (issue_parallel s.ids hsound horderly htargets)
  | create g =>
    refine parallel_bind (parallel_mono (writeIssue_create_parallel hsound hfresh)
      (fun _ _ h => level_mono (fun _ _ => abreast_tail) h) fun _ _ _ _ h => h)
      (parallel_of_both ?_ fun _ _ _ _ hnever => hnever.elim)
    intro ⟨change, i⟩ ⟨change', j⟩
    refine parallel_of_and fun ⟨hchange, hchange'⟩ => ?_
    rw [show change = .created from hchange, show change' = .created from hchange']
    refine afterWrite_parallel hsound hfresh .created ?_
    rw [readBack_eq j (Or.inr rfl)]
    exact parallel_memory "" _ (told_parallel s.ids hsound i j)

/-! ## The whole pass -/

lemma workOnAll_parallel (hsound : ¬MayFail s.rules) (hfresh : Fresh s.rules) (report : Report)
    (horderly : Orderly start.project) (htargets : Targeted tasks start.project) :
    Parallel (Level (Abreast start tasks)) ((s.passOn a true).workOnAll report tasks)
      ((s.passOn a false).workOnAll report tasks) (Same (Abreast start [])) := by
  -- the outcomes are the same, so the reports are; the sites stay abreast for the tasks ahead
  induction tasks generalizing report with
  | nil => exact parallel_pure fun _ _ h => ⟨rfl, h⟩
  | cons task rest ih =>
    rw [Pass.workOnAll, Pass.workOnAll]
    refine parallel_bind (workOn_parallel hsound hfresh horderly htargets) ?_
    apply parallel_of_same
    intro o
    have hrest := ih (report.add task.source.number o) (targeted_tail htargets)
    cases o.failure with
    | none => exact hrest
    | some e => exact parallel_bind (parallel_emit _ _ _) fun _ _ => hrest

lemma run_parallel (hsound : ¬MayFail s.rules) (hfresh : Fresh s.rules)
    (horderly : Orderly start.project)
    (hids : ∀ past issues, a.issues past s.repo s.since = .ok issues →
      (issues.map GitHub.Issue.id).Nodup) :
    Parallel (Level fun m n => m = start ∧ n = start) (s.passOn a true).run.run
      (s.passOn a false).run.run
      (Both (Same (Abreast start [])) (Same (Abreast start []))) := by
  have hstart : ∀ m n, m = start ∧ n = start → Abreast start [] m n := by
    rintro m n ⟨rfl, rfl⟩
    exact abreast_start horderly (by simp)
  unfold Pass.run
  refine parallel_ask_bind (.issues s.repo s.since) (fun past => a.issues past s.repo s.since)
    (fun _ _ _ h => ⟨rfl, level_mono hstart h⟩) fun past issues hissues => ?_
  by_cases hempty : issues.isEmpty = true
  · rw [if_pos hempty, if_pos hempty]
    refine parallel_call_bind (parallel_call_emit _ _ _) fun _ _ => ?_
    exact parallel_call_pure fun _ _ h => ⟨rfl, level_mono hstart h⟩
  · rw [if_neg hempty, if_neg hempty]
    apply parallel_call_bind (parallel_memory _ _ (issues_parallel s.ids hsound _))
    intro existing existing'
    refine parallel_of_imp (fun _ _ h => h.2.1) fun ⟨hexisting, hsame⟩ => ?_
    rw [hsame, hexisting]
    have htargets := targeted_tasks s (m := { start with issues }) horderly.keys
      (hids past issues hissues)
    refine parallel_mono (R := Level (Abreast start (s.tasks { start with issues }))) ?_ ?_
      fun _ _ _ _ h => h
    · refine parallel_call_bind (parallel_forM _ fun j => parallel_call_emit _ _ _) fun _ _ => ?_
      have hwork := workOnAll_parallel (a := a) hsound hfresh {} horderly htargets
      apply parallel_call_bind (parallel_lift hwork)
      apply parallel_of_same
      intro report
      refine parallel_call_bind (parallel_call_emit _ _ _) fun _ _ => ?_
      exact parallel_call_pure fun _ _ h => ⟨rfl, h⟩
    · intro _ _ h
      refine level_mono (fun m n ⟨_, hm, hn⟩ => ?_) h
      exact abreast_onlyRead (abreast_start horderly htargets.there) hm hn

/-- A dry run has the result of a run that writes, asks GitHub the same questions in the same order,
and does nothing to the project. -/
theorem dryRun_agrees {w : World Site} (hsound : ¬MayFail s.rules) (hfresh : Fresh s.rules)
    (horderly : Orderly w.state.memory.project)
    (hids : ∀ past issues, a.issues past s.repo s.since = .ok issues →
      (issues.map GitHub.Issue.id).Nodup) :
    ∃ r v v', (s.passOn a true).run.run w = (r, v) ∧ (s.passOn a false).run.run w = (r, v') ∧
      v.state.asked = v'.state.asked ∧ ∃ calls, v.state.memory = { w.state.memory with calls } := by
  have hruns := run_parallel hsound hfresh horderly hids w w ⟨rfl, rfl, rfl⟩
  rcases hdry : (s.passOn a true).run.run w with ⟨r, v⟩
  rcases hwet : (s.passOn a false).run.run w with ⟨r', v'⟩
  rw [hdry, hwet] at hruns
  cases hruns with
  | ok h =>
    obtain ⟨rfl, hasked, habreast⟩ := h
    exact ⟨_, v, v', rfl, rfl, hasked, habreast.unwritten⟩
  | error h =>
    obtain ⟨rfl, hasked, habreast⟩ := h
    exact ⟨_, v, v', rfl, rfl, hasked, habreast.unwritten⟩

/-- Two issues, a comment, and no users. -/
def sampleAnswers : Answers where
  issues _ _ _ := .ok [discussed, quiet]
  comments _ _ _ _ := .ok [remark]
  user _ login := .error (Failure.of (.other login))

/-- Without the author of a comment, both runs fail on its issue and go on with the other one. -/
theorem dryRun_agrees_without_users :
    ∃ v v', ((sampleSetting fun _ _ => false).passOn sampleAnswers true).run.run
        ⟨⟨[], sampleMemory⟩, []⟩ =
          (.ok { created := 1, updated := 1, failed := 1, failedIssues := [1] }, v) ∧
      ((sampleSetting fun _ _ => false).passOn sampleAnswers false).run.run
        ⟨⟨[], sampleMemory⟩, []⟩ =
          (.ok { created := 1, updated := 1, failed := 1, failedIssues := [1] }, v') ∧
      v.state.asked = v'.state.asked ∧ ∃ calls, v.state.memory = { sampleMemory with calls } := by
  let s := sampleSetting fun _ _ => false
  have hsound : ¬MayFail s.rules := by
    rintro ⟨m, name, hfails⟩
    cases hfails
  have hids : ∀ past issues, sampleAnswers.issues past s.repo s.since = .ok issues →
      (issues.map GitHub.Issue.id).Nodup := by
    intro past issues hissues
    obtain rfl := Except.ok.inj hissues
    decide
  have hreport : ((s.passOn sampleAnswers true).run.run ⟨⟨[], sampleMemory⟩, []⟩).1 =
      .ok { created := 1, updated := 1, failed := 1, failedIssues := [1] } := by
    decide +kernel
  obtain ⟨r, v, v', hdry, hwet, hasked, hkept⟩ := dryRun_agrees (w := ⟨⟨[], sampleMemory⟩, []⟩)
    hsound (fresh_unusedNames _) sample_orderly hids
  rw [hdry] at hreport
  subst hreport
  exact ⟨v, v', hdry, hwet, hasked, hkept⟩

end IssueBridge.Proofs
