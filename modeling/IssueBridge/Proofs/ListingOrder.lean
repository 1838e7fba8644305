import IssueBridge.Proofs.Surroundings
import IssueBridge.Proofs.TaskResults
import Mathlib.Data.List.Forall2
import Mathlib.Data.List.Perm.Basic

/-!
# The order of a listing

Each task reads and writes an issue of its own, and a report adds up what becomes of the tasks. So a
pass over the same issues in another order counts the same and leaves the same project, apart from
the names and the order of new issues.
-/

namespace IssueBridge.Proofs

open IssuePlan (creations)

variable {s : Setting} {m : Memory} {g : GitHub.Issue} {j j' : Jira.Issue} {w v : World Memory}
  {a : IssueTask} {tasks tasks' rest : List IssueTask}
  {project project' project'' new : List Jira.Issue} {t : Jira.Issue → Jira.Issue}
  {report report' : Report}

/-! ## Runs of tasks -/

/-- The report on tasks, after another one. -/
def reportOn (s : Setting) (m : Memory) (report : Report) (tasks : List IssueTask) : Report :=
  tasks.foldl (fun r a => r.add a.source.number (taskOutcome s m a)) report

/-- What tasks make of a project, one after another. -/
inductive PerformedAll (s : Setting) (m : Memory) :
    List IssueTask → List Jira.Issue → List Jira.Issue → Prop
  | nil (project : List Jira.Issue) : PerformedAll s m [] project project
  | cons {a : IssueTask} {rest : List IssueTask} {project project' project'' : List Jira.Issue}
      (hone : Performed s m project project' a) (hrest : PerformedAll s m rest project' project'') :
      PerformedAll s m (a :: rest) project project''

lemma add_wordless (r : Report) (number : UInt64) (o : IssueOutcome) :
    r.add number (wordlessOutcome o) = r.add number o := by
  unfold Report.add wordlessOutcome
  cases o.failure <;> rfl

lemma ahead_of_targeted (h : Targeted (a :: rest) project) : Ahead a project := by
  rintro g j rfl
  exact h.there g j List.mem_cons_self

lemma targeted_performed (htargets : Targeted (a :: rest) project)
    (h : Performed s m project project' a) : Targeted rest project' := by
  cases a with
  | update g j =>
    obtain ⟨j', hcomments, rfl⟩ := h
    exact targeted_replaced htargets ((key_withComments hcomments).trans (key_upToDate s g j))
  | create g =>
    obtain ⟨key, j', -, -, rfl⟩ := h
    exact targeted_append (targeted_tail htargets) j'

lemma orderly_performedAll (horderly : Orderly project) (htargets : Targeted tasks project)
    (h : PerformedAll s m tasks project project') : Orderly project' := by
  induction h with
  | nil => exact horderly
  | cons hone _ ih =>
    exact ih (orderly_performed horderly (ahead_of_targeted htargets) hone)
      (targeted_performed htargets hone)

/-- Work on all tasks comes to the sum of what the single ones come to. -/
lemma workOnAll_exact (h : OnlyLookupsFail s.rules) (hfresh : Fresh s.rules)
    (hrepo : repository w.state = repository m) (horderly : Orderly w.state.project)
    (htargets : Targeted tasks w.state.project)
    (hrun : s.pass.workOnAll report tasks w = (report', v)) :
    report' = reportOn s m report tasks ∧
      (s.dryRun = false → PerformedAll s m tasks w.state.project v.state.project) := by
  induction tasks generalizing report w with
  | nil =>
    obtain ⟨rfl, rfl⟩ := action_pure hrun
    exact ⟨rfl, fun _ => .nil _⟩
  | cons a rest ih =>
    obtain ⟨o, w₁, w₂, hone, hstate, hall⟩ := workOnAll_cons hrun
    have hahead := ahead_of_targeted htargets
    obtain ⟨houtcome, hwet⟩ := workOn_exact h hfresh hrepo horderly hahead hone
    have hrepo₂ : repository w₂.state = repository m := by
      have hkeeps := workOn_keeps (repository_confined s) a w
      rw [hone] at hkeeps
      rw [hstate]
      exact hkeeps.trans hrepo
    have hready : Orderly w₂.state.project ∧ Targeted rest w₂.state.project := by
      rw [hstate]
      cases hdry : s.dryRun with
      | true =>
        have hkeeps := workOn_keeps (project_confined s hdry) a w
        rw [hone] at hkeeps
        rw [hkeeps]
        exact ⟨horderly, targeted_tail htargets⟩
      | false =>
        exact ⟨orderly_performed horderly hahead (hwet hdry),
          targeted_performed htargets (hwet hdry)⟩
    obtain ⟨hreport, hrest⟩ := ih hrepo₂ hready.1 hready.2 hall
    refine ⟨?_, fun hwrite => .cons (hwet hwrite) (hstate ▸ hrest hwrite)⟩
    rw [hreport, ← add_wordless, houtcome]
    rfl

/-- Where only lookups fail, a pass comes to a report. -/
theorem run_exact (h : OnlyLookupsFail s.rules) (hfresh : Fresh s.rules)
    (horderly : Orderly w.state.project) (hdistinct : (w.state.issues.map GitHub.Issue.id).Nodup)
    {r : Except Failure Report} (hrun : s.pass.run.run w = (r, v)) :
    r = .ok (reportOn s w.state {} (s.tasks w.state)) ∧
      (s.dryRun = false →
        PerformedAll s w.state (s.tasks w.state) w.state.project v.state.project) := by
  have hlisting : ∀ {w v : World Memory} {r : Except Failure (List GitHub.Issue)},
      (s.pass.source.issues s.repo s.since).run w = (r, v) →
        OnlyRead w.state v.state ∧ (r = .ok w.state.issues ∨ ∃ e, r = .error e ∧ False) := by
    intro w v r hone
    have hcalm : s.pass.source.issues s.repo s.since = s.calm.pass.source.issues s.repo s.since :=
      listIssues_calm h s.repo s.since
    rw [hcalm] at hone
    obtain ⟨hread, hok | ⟨e, -, hfail⟩⟩ := listIssues_course hone
    · exact ⟨hread, Or.inl hok⟩
    · exact absurd hfail (not_mayFail_calm s.rules)
  have hmirrors : ∀ {w v : World Memory} {numbers : List Int64}
      {r : Except Failure (List Jira.Issue)}, (s.pass.target.issues numbers).run w = (r, v) →
        OnlyRead w.state v.state ∧
          (r = .ok (w.state.listed s.rules.listAll s.ids numbers) ∨ ∃ e, r = .error e ∧ False) := by
    intro w v numbers r hone
    rw [passTarget_calm h] at hone
    obtain ⟨hread, hok | ⟨e, -, hfail⟩⟩ := issues_course hone
    · exact ⟨hread, Or.inl hok⟩
    · exact absurd hfail (not_mayFail_calm s.rules)
  rcases run_course_of hlisting hmirrors hrun with
    ⟨e, -, -, hfalse⟩ | ⟨w₁, w₂, report, hread, hwork, rfl, hstate⟩
  · exact hfalse.elim
  · have hproject := project_onlyRead hread
    have htargets := targeted_tasks s horderly.keys hdistinct
    rw [← hproject] at horderly htargets ⊢
    obtain ⟨rfl, hwet⟩ := workOnAll_exact h hfresh (repository_onlyRead hread) horderly htargets
      hwork
    rw [hstate]
    exact ⟨rfl, hwet⟩

/-! ## What tasks leave -/

/-- What becomes of the issues of a project, and the new ones. -/
structure Left (s : Setting) (m : Memory) (tasks : List IssueTask) (project : List Jira.Issue)
    (t : Jira.Issue → Jira.Issue) (new : List Jira.Issue) : Prop where
  updated : ∀ g j, .update g j ∈ tasks → WithComments s m g (upToDate s g j) (t j)
  kept : ∀ i ∈ project, (∀ g, .update g i ∉ tasks) → t i = i
  created : List.Forall₂ (fun g j => ∃ key,
    WithComments s m g (newIssue g s.ids s.issueType (s.now g) key) j) (creations tasks) new

lemma left_update (horderly : Orderly project) (htargets : Targeted (.update g j :: rest) project)
    (hj' : WithComments s m g (upToDate s g j) j')
    (h : Left s m rest (replaced j' project) t new) :
    Left s m (.update g j :: rest) project (fun i => t (if i.key = j'.key then j' else i)) new where
  updated := by
    have hkey : j'.key = j.key := (key_withComments hj').trans (key_upToDate s g j)
    have hj : j ∈ project := htargets.there g j List.mem_cons_self
    intro g' i hi
    rcases List.mem_cons.mp hi with heq | hi
    · obtain ⟨rfl, rfl⟩ := IssueTask.update.inj heq
      have huntouched : t j' = j' := by
        apply h.kept j' (mem_replaced_self hj hkey.symm)
        intro g' hg'
        exact key_ne_of_targeted htargets hg' hkey
      rw [if_pos hkey.symm, huntouched]
      exact hj'
    · rw [if_neg fun heq => key_ne_of_targeted htargets hi (heq.trans hkey)]
      exact h.updated g' i hi
  kept := by
    have hkey : j'.key = j.key := (key_withComments hj').trans (key_upToDate s g j)
    have hj : j ∈ project := htargets.there g j List.mem_cons_self
    intro i hi hnone
    have hne : i.key ≠ j'.key := by
      intro heq
      obtain rfl := eq_of_key_eq horderly.keys hi hj (heq.trans hkey)
      exact hnone g List.mem_cons_self
    rw [if_neg hne]
    exact h.kept i (mem_replaced_of_ne hi hne) fun g' hg' => hnone g' (List.mem_cons_of_mem _ hg')
  created := h.created

lemma left_create {key : String} (htargets : Targeted (.create g :: rest) project)
    (hkey : key ∉ project.map Jira.Issue.key)
    (hj' : WithComments s m g (newIssue g s.ids s.issueType (s.now g) key) j')
    (h : Left s m rest (project ++ [j']) t new) :
    Left s m (.create g :: rest) project t (t j' :: new) where
  updated := by
    intro g' i hi
    rcases List.mem_cons.mp hi with heq | hi
    · cases heq
    · exact h.updated g' i hi
  kept := by
    intro i hi hnone
    exact h.kept i (List.mem_append_left _ hi) fun g' hg' => hnone g' (List.mem_cons_of_mem _ hg')
  created := by
    have huntouched : t j' = j' := by
      apply h.kept j' (List.mem_append_right _ (List.mem_singleton_self j'))
      intro g' hg'
      apply hkey
      have hsame : j'.key = key := key_withComments hj'
      rw [← hsame]
      exact List.mem_map_of_mem ((targeted_tail htargets).there g' j' hg')
    rw [huntouched]
    exact List.Forall₂.cons ⟨key, hj'⟩ h.created

/-- Every issue of a project has its own place afterwards, and new ones stand behind them. -/
theorem exists_left (horderly : Orderly project) (htargets : Targeted tasks project)
    (h : PerformedAll s m tasks project project') :
    ∃ t new, Left s m tasks project t new ∧ project' = project.map t ++ new := by
  induction h with
  | nil project =>
    refine ⟨id, [], ⟨fun g j hj => ?_, fun _ _ _ => rfl, List.Forall₂.nil⟩, by simp⟩
    cases hj
  | @cons a rest project project₁ project' hone hrest ih =>
    have hahead := ahead_of_targeted htargets
    obtain ⟨t, new, hleft, rfl⟩ :=
      ih (orderly_performed horderly hahead hone) (targeted_performed htargets hone)
    cases a with
    | update g j =>
      obtain ⟨j', hj', rfl⟩ := hone
      refine ⟨_, new, left_update horderly htargets hj' hleft, ?_⟩
      simp [replaced]
    | create g =>
      obtain ⟨key, j', hkey, hj', rfl⟩ := hone
      refine ⟨t, _, left_create htargets hkey hj' hleft, ?_⟩
      simp

/-! ## Two orders -/

/-- Two issues differ in nothing but their names and those of comments other than given ones. -/
structure SameButNames (kept : List String) (i i' : Jira.Issue) : Prop where
  summary : i.summary = i'.summary
  description : i.description = i'.description
  issueType : i.issueType = i'.issueType
  custom : i.custom = i'.custom
  comments : Twins kept i.comments i'.comments

/-- Two issues have the same names. -/
def SameNames (i j : Jira.Issue) : Prop :=
  j.id = i.id ∧ j.key = i.key

/-- What two runs make of one project: its issues are the same afterwards but for the names of new
comments, and the new issues are the same but for their names and their order. -/
def SameStore (project project' project'' : List Jira.Issue) : Prop :=
  ∃ t t' new new', project' = project.map t ++ new ∧ project'' = project.map t' ++ new' ∧
    (∀ j ∈ project, SameNames j (t j) ∧ SameNames j (t' j) ∧
      SameButNames (j.comments.map Jira.Comment.id) (t j) (t' j)) ∧
    ∃ sorted, List.Forall₂ (SameButNames []) new sorted ∧ sorted.Perm new'

/-- Two reports count the same, and tell of the same failures in some order. -/
structure SameCounts (r r' : Report) : Prop where
  created : r.created = r'.created
  updated : r.updated = r'.updated
  unchanged : r.unchanged = r'.unchanged
  failed : r.failed = r'.failed
  failedIssues : r.failedIssues.Perm r'.failedIssues
  commentsCreated : r.commentsCreated = r'.commentsCreated
  commentsUpdated : r.commentsUpdated = r'.commentsUpdated

lemma sameCounts_refl (r : Report) : SameCounts r r :=
  ⟨rfl, rfl, rfl, rfl, List.Perm.refl _, rfl, rfl⟩

lemma sameCounts_trans {r r' r'' : Report} (h : SameCounts r r') (h' : SameCounts r' r'') :
    SameCounts r r'' :=
  ⟨h.created.trans h'.created, h.updated.trans h'.updated, h.unchanged.trans h'.unchanged,
    h.failed.trans h'.failed, h.failedIssues.trans h'.failedIssues,
    h.commentsCreated.trans h'.commentsCreated, h.commentsUpdated.trans h'.commentsUpdated⟩

lemma sameCounts_add {r r' : Report} (h : SameCounts r r') (number : UInt64) (o : IssueOutcome) :
    SameCounts (r.add number o) (r'.add number o) where
  created := by simp [Report.add, h.created]
  updated := by simp [Report.add, h.updated]
  unchanged := by simp [Report.add, h.unchanged]
  failed := by simp [Report.add, h.failed]
  failedIssues := h.failedIssues.append_right _
  commentsCreated := by simp [Report.add, h.commentsCreated]
  commentsUpdated := by simp [Report.add, h.commentsUpdated]

lemma sameCounts_swap (r : Report) (number number' : UInt64) (o o' : IssueOutcome) :
    SameCounts ((r.add number o).add number' o') ((r.add number' o').add number o) where
  created := by simp only [Report.add]; omega
  updated := by simp only [Report.add]; omega
  unchanged := by simp only [Report.add]; omega
  failed := by simp only [Report.add]; omega
  failedIssues := by
    simp only [Report.add, List.append_assoc]
    exact List.perm_append_comm.append_left _
  commentsCreated := by simp only [Report.add]; omega
  commentsUpdated := by simp only [Report.add]; omega

lemma reportOn_same {r r' : Report} (h : SameCounts r r') (tasks : List IssueTask) :
    SameCounts (reportOn s m r tasks) (reportOn s m r' tasks) := by
  induction tasks generalizing r r' with
  | nil => exact h
  | cons a rest ih => exact ih (sameCounts_add h _ _)

/-- Tasks in another order come to the same counts. -/
lemma reportOn_perm (hperm : tasks.Perm tasks') (r : Report) :
    SameCounts (reportOn s m r tasks) (reportOn s m r tasks') := by
  induction hperm generalizing r with
  | nil => exact sameCounts_refl r
  | cons a _ ih => exact ih _
  | swap a b rest => exact reportOn_same (sameCounts_swap r _ _ _ _) rest
  | trans _ _ ih ih' => exact sameCounts_trans (ih r) (ih' r)

lemma sameButNames_refl (kept : List String) (i : Jira.Issue) : SameButNames kept i i :=
  ⟨rfl, rfl, rfl, rfl, twins_refl kept i.comments⟩

lemma sameStore_refl (project : List Jira.Issue) : SameStore project project project := by
  refine ⟨id, id, [], [], by simp, by simp, fun j _ => ?_, [], List.Forall₂.nil, List.Perm.nil⟩
  exact ⟨⟨rfl, rfl⟩, ⟨rfl, rfl⟩, sameButNames_refl _ j⟩

lemma edit_mem_commentsWritten {held : List Jira.Comment} {c : GitHub.Comment} {x : Jira.Comment}
    (h : .edit c x ∈ commentsWritten s m g held) : x ∈ held := by
  have hasked : .edit c x ∈ (asked? m g held).getD [] := (List.takeWhile_prefix _).subset h
  unfold asked? at hasked
  split at hasked
  · cases hasked
  · split at hasked
    · rename_i p hp
      exact mem_held_of_edit hp hasked
    · cases hasked

/-- What a task leaves is determined but for names. -/
lemma sameButNames_of_withComments {i i' k k' : Jira.Issue} (hsummary : i.summary = i'.summary)
    (hdescription : i.description = i'.description) (htype : i.issueType = i'.issueType)
    (hcustom : i.custom = i'.custom) (hcomments : i.comments = i'.comments)
    (h : WithComments s m g i k) (h' : WithComments s m g i' k') :
    SameButNames (i.comments.map Jira.Comment.id) k k' := by
  obtain ⟨held, hposted, rfl⟩ := h
  obtain ⟨held', hposted', rfl⟩ := h'
  rw [← hcomments] at hposted'
  refine ⟨hsummary, hdescription, htype, hcustom, ?_⟩
  apply twins_posted _ (twins_refl _ i.comments) (fun _ hid => hid) (fun _ hid => hid) hposted
    hposted'
  intro c x hx
  exact List.mem_map_of_mem (edit_mem_commentsWritten hx)

lemma sameNames_of_withComments (h : WithComments s m g (upToDate s g j) j') : SameNames j j' :=
  ⟨(id_withComments h).trans (id_upToDate s g j), (key_withComments h).trans (key_upToDate s g j)⟩

/-- Tasks in another order make the same of a project. -/
lemma sameStore_of_perm (horderly : Orderly project) (htargets : Targeted tasks project)
    (htargets' : Targeted tasks' project) (hperm : tasks.Perm tasks')
    (h : PerformedAll s m tasks project project') (h' : PerformedAll s m tasks' project project'') :
    SameStore project project' project'' := by
  obtain ⟨t, new, hleft, rfl⟩ := exists_left horderly htargets h
  obtain ⟨t', new', hleft', rfl⟩ := exists_left horderly htargets' h'
  refine ⟨t, t', new, new', rfl, rfl, fun j hj => ?_, ?_⟩
  · by_cases htask : ∃ g, .update g j ∈ tasks
    · obtain ⟨g, hg⟩ := htask
      have ht := hleft.updated g j hg
      have ht' := hleft'.updated g j (hperm.subset hg)
      refine ⟨sameNames_of_withComments ht, sameNames_of_withComments ht', ?_⟩
      have hsame := sameButNames_of_withComments rfl rfl rfl rfl rfl ht ht'
      rw [comments_upToDate] at hsame
      exact hsame
    · have hnone : ∀ g, .update g j ∉ tasks := fun g hg => htask ⟨g, hg⟩
      rw [hleft.kept j hj hnone, hleft'.kept j hj fun g hg => hnone g (hperm.symm.subset hg)]
      exact ⟨⟨rfl, rfl⟩, ⟨rfl, rfl⟩, sameButNames_refl _ j⟩
  · have hcreations : (creations tasks).Perm (creations tasks') := hperm.filterMap _
    obtain ⟨sorted, hsorted, hreordered⟩ := List.perm_comp_forall₂ hcreations hleft'.created
    refine ⟨sorted, forall₂_join ?_ hleft.created hsorted, hreordered⟩
    rintro g i i' ⟨key, hi⟩ ⟨key', hi'⟩
    have hsame := sameButNames_of_withComments ?_ ?_ ?_ ?_ ?_ hi hi'
    · exact hsame
    all_goals rfl

/-! ## Passes -/

/-- The issues that a pass finds in the project do not depend on the order of the listing. -/
lemma listed_perm (listAll : Bool) (ids : Jira.FieldNumbers) {numbers numbers' : List Int64}
    (hperm : numbers.Perm numbers') :
    m.listed listAll ids numbers = m.listed listAll ids numbers' := by
  unfold Memory.listed
  congr 1
  funext j
  congr 1
  split
  · rw [Bool.eq_iff_iff, List.contains_iff_mem, List.contains_iff_mem]
    exact hperm.mem_iff
  · rfl

/-- What tasks make of a project depends on their own issues only. -/
lemma performedAll_relisted {issues' : List GitHub.Issue}
    (h : PerformedAll s { m with issues := issues' } tasks project project') :
    PerformedAll s m tasks project project' := by
  induction h with
  | nil => exact .nil _
  | cons hone _ ih => exact .cons hone ih

lemma tasks_perm {issues' : List GitHub.Issue} (hperm : m.issues.Perm issues') :
    (s.tasks m).Perm (s.tasks { m with issues := issues' }) := by
  have hlisted := listed_perm (m := m) s.rules.listAll s.ids (hperm.map GitHub.Issue.id)
  unfold Setting.tasks
  rw [hlisted]
  exact hperm.map _

/-- Two passes over the same issues in different orders count the same and leave the same project,
where no call fails but lookups of users, which fail alike. -/
theorem listing_order (h : OnlyLookupsFail s.rules) (hfresh : Fresh s.rules)
    (horderly : Orderly m.project) (hdistinct : (m.issues.map GitHub.Issue.id).Nodup)
    {issues' : List GitHub.Issue} (hperm : m.issues.Perm issues') (log log' : List Event) :
    ∃ report report' v v', s.pass.run.run ⟨m, log⟩ = (.ok report, v) ∧
      s.pass.run.run ⟨{ m with issues := issues' }, log'⟩ = (.ok report', v') ∧
      SameCounts report report' ∧ Orderly v.state.project ∧ Orderly v'.state.project ∧
      SameStore m.project v.state.project v'.state.project := by
  have hdistinct' : (issues'.map GitHub.Issue.id).Nodup :=
    (hperm.map GitHub.Issue.id).nodup_iff.mp hdistinct
  have htargets := targeted_tasks s horderly.keys hdistinct
  have htargets' : Targeted (s.tasks { m with issues := issues' }) m.project :=
    targeted_tasks s horderly.keys hdistinct'
  rcases hrun : s.pass.run.run ⟨m, log⟩ with ⟨r, v⟩
  rcases hrun' : s.pass.run.run ⟨{ m with issues := issues' }, log'⟩ with ⟨r', v'⟩
  obtain ⟨rfl, hwet⟩ := run_exact h hfresh horderly hdistinct hrun
  obtain ⟨rfl, hwet'⟩ := run_exact h hfresh horderly hdistinct' hrun'
  refine ⟨_, _, v, v', rfl, rfl, reportOn_perm (tasks_perm hperm) {}, ?_⟩
  cases hdry : s.dryRun with
  | true =>
    have hkept : v.state.project = m.project := by
      have hkeeps := run_keeps (project_confined s hdry) ⟨m, log⟩
      rw [hrun] at hkeeps
      exact hkeeps
    have hkept' : v'.state.project = m.project := by
      have hkeeps := run_keeps (project_confined s hdry) ⟨{ m with issues := issues' }, log'⟩
      rw [hrun'] at hkeeps
      exact hkeeps
    rw [hkept, hkept']
    exact ⟨horderly, horderly, sameStore_refl m.project⟩
  | false =>
    have hperformed := hwet hdry
    have hperformed' := performedAll_relisted (hwet' hdry)
    exact ⟨orderly_performedAll horderly htargets hperformed,
      orderly_performedAll horderly htargets' hperformed',
      sameStore_of_perm horderly htargets htargets' (tasks_perm hperm) hperformed hperformed'⟩

/-- The only author cannot be looked up, so the work on one issue fails in both orders. -/
theorem listing_order_reversed :
    let s := sampleSetting fun _ name => name == "gh user bob"
    ∃ v v', s.pass.run.run ⟨sampleMemory, []⟩ =
        (.ok { created := 1, updated := 1, failed := 1, failedIssues := [1] }, v) ∧
      s.pass.run.run ⟨{ sampleMemory with issues := [quiet, discussed] }, []⟩ =
        (.ok { created := 1, updated := 1, failed := 1, failedIssues := [1] }, v') ∧
      Orderly v.state.project ∧ Orderly v'.state.project ∧
      SameStore sampleMemory.project v.state.project v'.state.project := by
  intro s
  have hlookups : OnlyLookupsFail s.rules := by
    refine ⟨fun m name hfails => ?_, fun _ _ _ _ => rfl⟩
    have hname : name = "gh user bob" := beq_iff_eq.mp hfails
    rw [hname]
    decide
  have hreport : (s.pass.run.run ⟨sampleMemory, []⟩).1 =
      .ok { created := 1, updated := 1, failed := 1, failedIssues := [1] } := by
    decide +kernel
  have hreport' : (s.pass.run.run ⟨{ sampleMemory with issues := [quiet, discussed] }, []⟩).1 =
      .ok { created := 1, updated := 1, failed := 1, failedIssues := [1] } := by
    decide +kernel
  obtain ⟨report, report', v, v', hrun, hrun', -, horderly, horderly', hsame⟩ :=
    listing_order hlookups (fresh_unusedNames _) sample_orderly (by decide)
      (List.Perm.swap quiet discussed []) [] []
  rw [hrun] at hreport
  rw [hrun'] at hreport'
  obtain rfl := Except.ok.inj hreport
  obtain rfl := Except.ok.inj hreport'
  exact ⟨v, v', hrun, hrun', horderly, horderly', hsame⟩

end IssueBridge.Proofs
