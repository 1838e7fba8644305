import IssueBridge.Pass.Run
import IssueBridge.Proofs.CallCourse

/-!
# What a pass leaves alone

A pass acts on its world through its collaborators only: a part of the state that none of their
calls changes is the same after the pass.
-/

namespace IssueBridge.Proofs

variable {σ τ : Type}

/-- No call of the two collaborators changes a part of the state. -/
structure Confined (part : σ → τ) (p : Pass σ) : Prop where
  listIssues : ∀ repo since, Keeps part (p.source.issues repo since).run
  listComments : ∀ repo number since, Keeps part (p.source.comments repo number since).run
  user : ∀ login, Keeps part (p.source.user login).run
  issues : ∀ numbers, Keeps part (p.target.issues numbers).run
  issue : ∀ key, Keeps part (p.target.issue key).run
  create : ∀ fields, Keeps part (p.target.create fields).run
  update : ∀ key fields, Keeps part (p.target.update key fields).run
  addComment : ∀ key body, Keeps part (p.target.addComment key body).run
  editComment : ∀ key id body, Keeps part (p.target.editComment key id body).run

variable {part : σ → τ} {p : Pass σ}

lemma writeIssue_keeps (h : Confined part p) (a : IssueTask) : Keeps part (p.writeIssue a).run := by
  cases a with
  | create g =>
    unfold Pass.writeIssue
    refine keeps_call_bind (keeps_within _ (h.create _)) fun created => ?_
    exact keeps_call_bind (keeps_call_emit part _) fun _ => keeps_call_pure part _
  | update g j =>
    unfold Pass.writeIssue
    dsimp only
    by_cases hold : isOutdated g j p.ids = true
    · rw [if_pos hold]
      refine keeps_call_bind (keeps_within _ (h.update _ _)) fun _ => ?_
      exact keeps_call_bind (keeps_call_emit part _) fun _ => keeps_call_pure part _
    · rw [if_neg hold]
      exact keeps_call_pure part _

lemma readBack_keeps (h : Confined part p) (change : IssueChange) (j : Jira.Issue) :
    Keeps part (p.readBack change j).run := by
  unfold Pass.readBack
  by_cases hdry : change = .created ∧ p.target.dryRun = true
  · rw [if_pos hdry]
    exact keeps_call_pure part j
  · rw [if_neg hdry]
    exact keeps_within _ (h.issue _)

lemma lookUp_keeps (h : Confined part p) (known : Dictionary GitHub.User) (login : String) :
    Keeps part (p.lookUp known login).run := by
  unfold Pass.lookUp
  cases known.get? login with
  | some user => exact keeps_call_pure part _
  | none => exact keeps_call_bind (keeps_within _ (h.user login)) fun _ => keeps_call_pure part _

lemma writeComment_keeps (h : Confined part p) (key : String) (known : Dictionary GitHub.User)
    (w : CommentWrite) : Keeps part (p.writeComment key known w).run := by
  unfold Pass.writeComment
  refine keeps_call_bind (lookUp_keeps h known _) fun found => ?_
  cases w with
  | create c =>
    exact keeps_call_bind (keeps_within _ (h.addComment _ _)) fun _ => keeps_call_pure part _
  | edit c t =>
    exact keeps_call_bind (keeps_within _ (h.editComment _ _ _)) fun _ => keeps_call_pure part _

lemma writeComments_keeps (h : Confined part p) (key : String) (known : Dictionary GitHub.User)
    (ws : List CommentWrite) : Keeps part (p.writeComments key known ws) := by
  induction ws generalizing known with
  | nil => exact keeps_pure part _
  | cons w rest ih =>
    rw [Pass.writeComments]
    refine keeps_bind (writeComment_keeps h key known w) fun result => ?_
    cases result with
    | error e => exact keeps_pure part _
    | ok known => exact keeps_bind (ih known) fun _ => keeps_pure part _

lemma planComments_keeps (h : Confined part p) (g : GitHub.Issue) (j : Jira.Issue) :
    Keeps part (p.planComments g j).run := by
  unfold Pass.planComments
  refine keeps_call_bind (keeps_within _ (h.listComments _ _ _)) fun comments => ?_
  exact keeps_within _ (keeps_ofExcept part _)

lemma workOnComments_keeps (h : Confined part p) (g : GitHub.Issue) (j : Jira.Issue) :
    Keeps part (p.workOnComments g j) := by
  unfold Pass.workOnComments
  by_cases hzero : g.comments = 0
  · rw [if_pos hzero]
    exact keeps_pure part _
  · rw [if_neg hzero]
    refine keeps_bind (planComments_keeps h g j) fun plan => ?_
    cases plan with
    | error e => exact keeps_pure part _
    | ok plan => exact writeComments_keeps h _ _ _

lemma workOn_keeps (h : Confined part p) (a : IssueTask) : Keeps part (p.workOn a) := by
  unfold Pass.workOn
  refine keeps_bind (writeIssue_keeps h a) fun written => ?_
  cases written with
  | error e => exact keeps_pure part _
  | ok written =>
    refine keeps_bind (readBack_keeps h _ _) fun current => ?_
    cases current with
    | error e => exact keeps_pure part _
    | ok current => exact keeps_bind (workOnComments_keeps h _ _) fun _ => keeps_pure part _

lemma workOnAll_keeps (h : Confined part p) (report : Report) (tasks : List IssueTask) :
    Keeps part (p.workOnAll report tasks) := by
  induction tasks generalizing report with
  | nil => exact keeps_pure part _
  | cons a rest ih =>
    rw [Pass.workOnAll]
    refine keeps_bind (workOn_keeps h a) fun outcome => ?_
    cases outcome.failure with
    | none => exact ih _
    | some e => exact keeps_bind (keeps_emit part _) fun _ => ih _

lemma forM_emit_keeps (part : σ → τ) {α : Type} (event : α → Event) (items : List α) :
    Keeps part (items.forM fun i => (Call.emit (event i) : Call σ Unit)).run := by
  induction items with
  | nil => exact keeps_call_pure part _
  | cons i rest ih => exact keeps_call_bind (keeps_call_emit part _) fun _ => ih

/-- A whole pass is confined to what its collaborators change. -/
theorem run_keeps (h : Confined part p) : Keeps part p.run.run := by
  unfold Pass.run
  refine keeps_call_bind (keeps_within _ (h.listIssues _ _)) fun issues => ?_
  by_cases hempty : issues.isEmpty = true
  · rw [if_pos hempty]
    exact keeps_call_bind (keeps_call_emit part _) fun _ => keeps_call_pure part _
  · rw [if_neg hempty]
    refine keeps_call_bind (keeps_within _ (h.issues _)) fun existing => ?_
    refine keeps_call_bind (forM_emit_keeps part _ _) fun _ => ?_
    refine keeps_call_bind (workOnAll_keeps h _ _) fun report => ?_
    exact keeps_call_bind (keeps_call_emit part _) fun _ => keeps_call_pure part _

end IssueBridge.Proofs
