import IssueBridge.Proofs.IssueWork
import Mathlib.Tactic.ByContra

/-!
# Work on all issues of a pass

The tasks of a pass are for different issues of the project, so what one of them does is not touched
by the others. A pass turns every issue that a task is for into one on which the work was done,
keeps all others as they are, and adds the new issues at the end.
-/

namespace IssueBridge.Proofs

open IssuePlan (creations)

variable {s : Setting} {m : Memory} {g : GitHub.Issue} {i j j' : Jira.Issue}
  {w v : World Memory} {a : IssueTask} {tasks rest : List IssueTask}
  {project new : List Jira.Issue} {failed born : List GitHub.Issue} {t : Jira.Issue → Jira.Issue}

/-- The tasks are for different issues of a project. -/
structure Targeted (tasks : List IssueTask) (project : List Jira.Issue) : Prop where
  there : ∀ g j, .update g j ∈ tasks → j ∈ project
  keys : tasks.Pairwise fun a b => ∀ g j g' j', a = .update g j → b = .update g' j' →
    j.key ≠ j'.key

/-- Work on an issue was done, all of it unless it failed. -/
def Worked (s : Setting) (m : Memory) (failed : List GitHub.Issue) (g : GitHub.Issue)
    (j j' : Jira.Issue) : Prop :=
  Advanced s.ids s.issueType m g j j' ∧ (g ∉ failed → Finished s.ids s.issueType m g j j')

/-- An issue is worked on if a task is for it, and kept otherwise. -/
def Treated (s : Setting) (m : Memory) (failed : List GitHub.Issue) (tasks : List IssueTask)
    (i i' : Jira.Issue) : Prop :=
  (∀ g, .update g i ∈ tasks → Worked s m failed g i i') ∧
    ((∀ g, .update g i ∉ tasks) → i' = i)

/-- Something stands in the way of the task for a GitHub issue. -/
def TaskHindered (s : Setting) (m : Memory) (tasks : List IssueTask) (g : GitHub.Issue) : Prop :=
  (∃ j, .update g j ∈ tasks ∧ CommentsHindered s m g j.comments) ∨
    (.create g ∈ tasks ∧ CommentsHindered s m g [])

/-- What tasks make of a project: what becomes of each of its issues, which GitHub issues get new
ones, and these new ones. -/
structure Brought (s : Setting) (m : Memory) (tasks : List IssueTask) (failed : List GitHub.Issue)
    (project : List Jira.Issue) (t : Jira.Issue → Jira.Issue) (born : List GitHub.Issue)
    (new : List Jira.Issue) : Prop where
  treated : ∀ i ∈ project, Treated s m failed tasks i (t i)
  among : born.Sublist (creations tasks)
  complete : ∀ g ∈ creations tasks, g ∉ failed → g ∈ born
  created : List.Forall₂ (fun g j => ∃ key,
    Worked s m failed g (newIssue g s.ids s.issueType (s.now g) key) j) born new
  hindered : ∀ g ∈ failed, TaskHindered s m tasks g

/-- The GitHub issue of a task that failed. -/
def failureOf (g : GitHub.Issue) (o : IssueOutcome) : List GitHub.Issue :=
  if o.failure.isSome then [g] else []

lemma mem_failureOf {g g' : GitHub.Issue} {o : IssueOutcome} :
    g' ∈ failureOf g o ↔ o.failure ≠ none ∧ g' = g := by
  unfold failureOf
  cases o.failure with
  | none => simp
  | some e => simp

lemma failureOf_eq_nil {o : IssueOutcome} (h : o.failure = none) : failureOf g o = [] := by
  unfold failureOf
  rw [h]
  rfl

lemma worked_mono {failed' : List GitHub.Issue} (hsub : ∀ x ∈ failed, x ∈ failed')
    (h : Worked s m failed g j j') : Worked s m failed' g j j' :=
  ⟨h.1, fun hg => h.2 fun hmem => hg (hsub g hmem)⟩

lemma hindered_cons (a : IssueTask) (h : TaskHindered s m rest g) :
    TaskHindered s m (a :: rest) g := by
  rcases h with ⟨j, hj, hcomments⟩ | ⟨hg, hcomments⟩
  · exact Or.inl ⟨j, List.mem_cons_of_mem a hj, hcomments⟩
  · exact Or.inr ⟨List.mem_cons_of_mem a hg, hcomments⟩

lemma treated_cons {front : List GitHub.Issue} (ha : ∀ g, a ≠ .update g i) {i' : Jira.Issue}
    (h : Treated s m failed rest i i') : Treated s m (front ++ failed) (a :: rest) i i' := by
  refine ⟨fun g hg => ?_, fun hnone => ?_⟩
  · rcases List.mem_cons.mp hg with heq | hg
    · exact absurd heq.symm (ha g)
    · exact worked_mono (fun x hx => List.mem_append_right _ hx) (h.1 g hg)
  · exact h.2 fun g hg => hnone g (List.mem_cons_of_mem a hg)

lemma new_mono {front : List GitHub.Issue}
    (h : List.Forall₂ (fun g j => ∃ key,
      Worked s m failed g (newIssue g s.ids s.issueType (s.now g) key) j) born new) :
    List.Forall₂ (fun g j => ∃ key,
      Worked s m (front ++ failed) g (newIssue g s.ids s.issueType (s.now g) key) j) born new := by
  refine List.Forall₂.imp (fun g j hj => ?_) h
  obtain ⟨key, hkey⟩ := hj
  exact ⟨key, worked_mono (fun x hx => List.mem_append_right _ hx) hkey⟩

lemma exists_right_of_forall₂ {α β : Type} {R : α → β → Prop} {as : List α} {bs : List β}
    (h : List.Forall₂ R as bs) {a : α} (ha : a ∈ as) : ∃ b ∈ bs, R a b := by
  induction h with
  | nil => cases ha
  | @cons c d cs ds hcd hrest ih =>
    rcases List.mem_cons.mp ha with rfl | ha
    · exact ⟨d, List.mem_cons_self, hcd⟩
    · obtain ⟨b, hb, hab⟩ := ih ha
      exact ⟨b, List.mem_cons_of_mem d hb, hab⟩

lemma exists_left_of_forall₂ {α β : Type} {R : α → β → Prop} {as : List α} {bs : List β}
    (h : List.Forall₂ R as bs) {b : β} (hb : b ∈ bs) : ∃ a ∈ as, R a b :=
  exists_right_of_forall₂ (R := flip R) (List.Forall₂.flip h) hb

lemma forall₂_imp_of_mem {α β : Type} {R S : α → β → Prop} {as : List α} {bs : List β}
    (hRS : ∀ a ∈ as, ∀ b ∈ bs, R a b → S a b) (h : List.Forall₂ R as bs) :
    List.Forall₂ S as bs := by
  induction h with
  | nil => exact List.Forall₂.nil
  | @cons a b as bs hab hrest ih =>
    refine List.Forall₂.cons (hRS a List.mem_cons_self b List.mem_cons_self hab) (ih ?_)
    exact fun a' ha' b' hb' => hRS a' (List.mem_cons_of_mem a ha') b' (List.mem_cons_of_mem b hb')

lemma forall₂_join {α β : Type} {R : α → β → Prop} {S : β → β → Prop} {as : List α}
    {bs bs' : List β} (hRS : ∀ a b b', R a b → R a b' → S b b') (h : List.Forall₂ R as bs)
    (h' : List.Forall₂ R as bs') : List.Forall₂ S bs bs' := by
  induction h generalizing bs' with
  | nil =>
    cases h'
    exact List.Forall₂.nil
  | cons hab _ ih =>
    cases h' with
    | cons hab' hrest' => exact List.Forall₂.cons (hRS _ _ _ hab hab') (ih hrest')

lemma targeted_tail (h : Targeted (a :: rest) project) : Targeted rest project :=
  ⟨fun g j hj => h.there g j (List.mem_cons_of_mem a hj), (List.pairwise_cons.mp h.keys).2⟩

lemma targeted_append (h : Targeted tasks project) (j : Jira.Issue) :
    Targeted tasks (project ++ [j]) :=
  ⟨fun g i hi => List.mem_append_left _ (h.there g i hi), h.keys⟩

lemma key_ne_of_targeted (h : Targeted (.update g j :: rest) project) {g' : GitHub.Issue}
    (hi : .update g' i ∈ rest) : i.key ≠ j.key :=
  fun heq => (List.pairwise_cons.mp h.keys).1 _ hi g j g' i rfl rfl heq.symm

lemma targeted_replaced (h : Targeted (.update g j :: rest) project) (hkey : j'.key = j.key) :
    Targeted rest (replaced j' project) := by
  refine ⟨fun g' i hi => ?_, (List.pairwise_cons.mp h.keys).2⟩
  refine mem_replaced_of_ne (h.there g' i (List.mem_cons_of_mem _ hi)) ?_
  rw [hkey]
  exact key_ne_of_targeted h hi

/-- The first task renews an issue, and the other tasks do not touch it. -/
lemma brought_update {o : IssueOutcome} (horderly : Orderly project)
    (htargets : Targeted (.update g j :: rest) project) (hkey : j'.key = j.key)
    (hadvanced : Advanced s.ids s.issueType m g j j')
    (hfinished : o.failure = none → Finished s.ids s.issueType m g j j')
    (hhindered : o.failure ≠ none → CommentsHindered s m g j.comments)
    (h : Brought s m rest failed (replaced j' project) t born new) :
    Brought s m (.update g j :: rest) (failureOf g o ++ failed) project
      (fun i => t (if i.key = j'.key then j' else i)) born new where
  treated := by
    intro i hi
    have hj : j ∈ project := htargets.there g j List.mem_cons_self
    by_cases hik : i.key = j'.key
    · obtain rfl := eq_of_key_eq horderly.keys hi hj (hik.trans hkey)
      rw [if_pos hik]
      have huntouched : t j' = j' := by
        refine (h.treated j' (mem_replaced_self hi hik)).2 fun g' hg' => ?_
        exact key_ne_of_targeted htargets hg' hkey
      rw [huntouched]
      refine ⟨fun g' hg' => ?_, fun hnone => absurd List.mem_cons_self (hnone g)⟩
      rcases List.mem_cons.mp hg' with heq | hg'
      · obtain ⟨rfl, -⟩ := IssueTask.update.inj heq
        refine ⟨hadvanced, fun hg => hfinished ?_⟩
        by_contra hne
        exact hg (List.mem_append_left _ (mem_failureOf.mpr ⟨hne, rfl⟩))
      · exact absurd rfl (key_ne_of_targeted htargets hg')
    · rw [if_neg hik]
      refine treated_cons (fun g' heq => hik ?_) (h.treated i (mem_replaced_of_ne hi hik))
      rw [← (IssueTask.update.inj heq).2, hkey]
  among := h.among
  complete := fun g' hg' hnot => h.complete g' hg' fun hmem => hnot (List.mem_append_right _ hmem)
  created := new_mono h.created
  hindered := by
    intro g' hg'
    rcases List.mem_append.mp hg' with hg' | hg'
    · obtain ⟨hne, rfl⟩ := mem_failureOf.mp hg'
      exact Or.inl ⟨j, List.mem_cons_self, hhindered hne⟩
    · exact hindered_cons _ (h.hindered g' hg')

/-- The first task fails to create an issue. -/
lemma brought_create_failed {o : IssueOutcome} (hfailure : o.failure ≠ none)
    (hhindered : CommentsHindered s m g []) (h : Brought s m rest failed project t born new) :
    Brought s m (.create g :: rest) (failureOf g o ++ failed) project t born new where
  treated := fun i hi => treated_cons (fun _ heq => by cases heq) (h.treated i hi)
  among := h.among.cons g
  complete := by
    intro g' hg' hnot
    rcases List.mem_cons.mp hg' with rfl | hg'
    · exact absurd (List.mem_append_left _ (mem_failureOf.mpr ⟨hfailure, rfl⟩)) hnot
    · exact h.complete g' hg' fun hmem => hnot (List.mem_append_right _ hmem)
  created := new_mono h.created
  hindered := by
    intro g' hg'
    rcases List.mem_append.mp hg' with hg' | hg'
    · obtain ⟨-, rfl⟩ := mem_failureOf.mp hg'
      exact Or.inr ⟨List.mem_cons_self, hhindered⟩
    · exact hindered_cons _ (h.hindered g' hg')

/-- The first task creates an issue, and the other tasks do not touch it. -/
lemma brought_create {o : IssueOutcome} {key : String} (huntouched : t j' = j')
    (hadvanced : Advanced s.ids s.issueType m g (newIssue g s.ids s.issueType (s.now g) key) j')
    (hfinished : o.failure = none →
      Finished s.ids s.issueType m g (newIssue g s.ids s.issueType (s.now g) key) j')
    (hhindered : o.failure ≠ none → CommentsHindered s m g [])
    (h : Brought s m rest failed (project ++ [j']) t born new) :
    Brought s m (.create g :: rest) (failureOf g o ++ failed) project t (g :: born)
      (t j' :: new) where
  treated := by
    intro i hi
    exact treated_cons (fun _ heq => by cases heq) (h.treated i (List.mem_append_left _ hi))
  among := h.among.cons_cons g
  complete := by
    intro g' hg' hnot
    rcases List.mem_cons.mp hg' with rfl | hg'
    · exact List.mem_cons_self
    · refine List.mem_cons_of_mem g (h.complete g' hg' fun hmem => hnot ?_)
      exact List.mem_append_right _ hmem
  created := by
    refine List.Forall₂.cons ⟨key, ?_⟩ (new_mono h.created)
    rw [huntouched]
    refine ⟨hadvanced, fun hg => hfinished ?_⟩
    by_contra hne
    exact hg (List.mem_append_left _ (mem_failureOf.mpr ⟨hne, rfl⟩))
  hindered := by
    intro g' hg'
    rcases List.mem_append.mp hg' with hg' | hg'
    · obtain ⟨hne, rfl⟩ := mem_failureOf.mp hg'
      exact Or.inr ⟨List.mem_cons_self, hhindered hne⟩
    · exact hindered_cons _ (h.hindered g' hg')

lemma failedIssues_add (report : Report) (g : GitHub.Issue) (o : IssueOutcome) :
    (report.add g.number o).failedIssues =
      report.failedIssues ++ (failureOf g o).map GitHub.Issue.number := by
  unfold Report.add failureOf
  cases o.failure with
  | none => rfl
  | some e => rfl

lemma workOnAll_cons {report report' : Report}
    (h : s.pass.workOnAll report (a :: rest) w = (report', v)) :
    ∃ o w₁ w₂, s.pass.workOn a w = (o, w₁) ∧ w₂.state = w₁.state ∧
      s.pass.workOnAll (report.add a.source.number o) rest w₂ = (report', v) := by
  rw [Pass.workOnAll] at h
  obtain ⟨o, w₁, hone, hrest⟩ := action_bind h
  cases hfailure : o.failure with
  | none =>
    rw [hfailure] at hrest
    exact ⟨o, w₁, w₁, hone, rfl, hrest⟩
  | some e =>
    rw [hfailure] at hrest
    obtain ⟨_, w₂, hemit, hall⟩ := action_bind hrest
    obtain ⟨-, rfl⟩ := Prod.mk.inj hemit
    exact ⟨o, w₁, { w₁ with log := w₁.log ++ [.issueFailed a.source.number e] }, hone, rfl, hall⟩

/-- What the work on a list of tasks makes of the project. -/
theorem workOnAll_course {report report' : Report} (hids : Function.Injective s.ids.number)
    (hwrite : s.dryRun = false) (hfresh : Fresh s.rules)
    (hrepo : repository w.state = repository m) (horderly : Orderly w.state.project)
    (htargets : Targeted tasks w.state.project)
    (h : s.pass.workOnAll report tasks w = (report', v)) :
    ∃ failed t born new, Brought s m tasks failed w.state.project t born new ∧
      v.state.project = w.state.project.map t ++ new ∧ Orderly v.state.project ∧
      report'.failedIssues = report.failedIssues ++ failed.map GitHub.Issue.number := by
  induction tasks generalizing report w with
  | nil =>
    obtain ⟨rfl, rfl⟩ := action_pure h
    refine ⟨[], id, [], [], ⟨fun i _ => ⟨fun g hg => ?_, fun _ => rfl⟩, List.Sublist.refl _,
      fun g hg => ?_, List.Forall₂.nil, fun g hg => ?_⟩, by simp, horderly, by simp⟩
    · cases hg
    · cases hg
    · cases hg
  | cons a rest ih =>
    obtain ⟨o, w₁, w₂, hone, hstate₂, hall⟩ := workOnAll_cons h
    have hrepo₂ : repository w₂.state = repository m := by
      have hkeeps := workOn_keeps (repository_confined s) a w
      rw [hone] at hkeeps
      rw [hstate₂]
      exact hkeeps.trans hrepo
    have hfailures : ∀ failed : List GitHub.Issue,
        (report.add a.source.number o).failedIssues ++ failed.map GitHub.Issue.number =
          report.failedIssues ++ (failureOf a.source o ++ failed).map GitHub.Issue.number := by
      intro failed
      rw [failedIssues_add, List.map_append, List.append_assoc]
    cases a with
    | update g j =>
      have hj := htargets.there g j List.mem_cons_self
      obtain ⟨j', hadvanced, hstate, hfinished, hhindered⟩ :=
        workOn_update_course hwrite hfresh hrepo horderly hj hone
      have hkey := key_advanced hadvanced
      rw [← hstate₂] at hstate
      have horderly₂ : Orderly w₂.state.project := by
        rw [hstate]
        exact orderly_replaced horderly (nodup_advanced hadvanced (horderly.comments j hj))
      have htargets₂ : Targeted rest w₂.state.project := by
        rw [hstate]
        exact targeted_replaced htargets hkey
      obtain ⟨failed, t, born, new, hbrought, hproject, horderly', hreport⟩ :=
        ih hrepo₂ horderly₂ htargets₂ hall
      rw [hstate] at hbrought hproject
      refine ⟨_, _, _, _, brought_update horderly htargets hkey hadvanced hfinished hhindered
        hbrought, ?_, horderly', hreport.trans (hfailures failed)⟩
      rw [hproject]
      unfold replaced
      rw [List.map_map]
      rfl
    | create g =>
      rcases workOn_create_course hids hwrite hfresh hrepo horderly hone with
        ⟨key, j', hkey, hadvanced, hstate, hfinished, hhindered⟩ | ⟨hfailure, hstate, hfail⟩
      · rw [← hstate₂] at hstate
        have hkey' : j'.key = key := key_advanced hadvanced
        have horderly₂ : Orderly w₂.state.project := by
          rw [hstate]
          refine orderly_append horderly ?_ (nodup_advanced hadvanced List.nodup_nil)
          rw [hkey']
          exact hkey
        have htargets₂ : Targeted rest w₂.state.project := by
          rw [hstate]
          exact targeted_append (targeted_tail htargets) j'
        obtain ⟨failed, t, born, new, hbrought, hproject, horderly', hreport⟩ :=
          ih hrepo₂ horderly₂ htargets₂ hall
        rw [hstate] at hbrought hproject
        have huntouched : t j' = j' := by
          refine (hbrought.treated j' (List.mem_append_right _ (List.mem_singleton_self j'))).2 ?_
          intro g' hg'
          refine hkey ?_
          rw [← hkey']
          exact List.mem_map_of_mem ((targeted_tail htargets).there g' j' hg')
        refine ⟨_, t, g :: born, t j' :: new, brought_create huntouched hadvanced hfinished
          hhindered hbrought, ?_, horderly', hreport.trans (hfailures failed)⟩
        rw [hproject, List.map_append, List.append_assoc]
        rfl
      · rw [← hstate₂] at hstate
        have horderly₂ : Orderly w₂.state.project := by
          rw [hstate]
          exact horderly
        have htargets₂ : Targeted rest w₂.state.project := by
          rw [hstate]
          exact targeted_tail htargets
        obtain ⟨failed, t, born, new, hbrought, hproject, horderly', hreport⟩ :=
          ih hrepo₂ horderly₂ htargets₂ hall
        rw [hstate] at hbrought hproject
        exact ⟨_, t, born, new, brought_create_failed hfailure (Or.inl hfail) hbrought, hproject,
          horderly', hreport.trans (hfailures failed)⟩

end IssueBridge.Proofs
