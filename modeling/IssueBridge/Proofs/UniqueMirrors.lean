import IssueBridge.Proofs.CommentCarriers
import IssueBridge.Proofs.PassCourse
import IssueBridge.Proofs.Surroundings

/-!
# No second mirror

No pass makes a second Jira issue for a GitHub issue or a second comment for a GitHub comment,
wherever it stops and whatever earlier passes left behind.
-/

namespace IssueBridge.Proofs

open IssuePlan (githubId? creations)

variable {s : Setting} {m m₀ : Memory} {g : GitHub.Issue} {i j : Jira.Issue} {w v : World Memory}
  {ids : Jira.FieldNumbers} {issueType : String} {n : Int64} {tasks : List IssueTask}
  {project new : List Jira.Issue} {failed born : List GitHub.Issue} {t : Jira.Issue → Jira.Issue}

/-- How many issues of a project stand for a GitHub issue. -/
def mirrorCount (ids : Jira.FieldNumbers) (n : Int64) (project : List Jira.Issue) : Nat :=
  project.countP fun j => githubId? ids j == some n

/-- No issue has two comments that carry a number. -/
def OneComment (n : Int64) (project : List Jira.Issue) : Prop :=
  ∀ j ∈ project, j.comments.countP (carries n) ≤ 1

/-! ## One pass -/

lemma treated_cases {i' : Jira.Issue} (h : Treated s m failed tasks i i') :
    (∃ g, .update g i ∈ tasks ∧ Advanced s.ids s.issueType m g i i') ∨ i' = i := by
  by_cases htask : ∃ g, .update g i ∈ tasks
  · obtain ⟨g, hg⟩ := htask
    exact Or.inl ⟨g, hg, (h.1 g hg).1⟩
  · exact Or.inr (h.2 fun g hg => htask ⟨g, hg⟩)

lemma githubId?_treated (hids : Function.Injective s.ids.number) {i' : Jira.Issue}
    (h : Treated s m failed tasks i i') : githubId? s.ids i' = githubId? s.ids i := by
  rcases treated_cases h with ⟨g, -, hadvanced⟩ | rfl
  · exact githubId?_advanced hids hadvanced
  · rfl

lemma task_of_born (h : Brought s m (s.tasks m) failed m.project t born new) (hg : g ∈ born) :
    g ∈ m.issues ∧ ∀ j ∈ m.project, githubId? s.ids j ≠ some g.id :=
  mem_tasks_create (mem_creations.mp (h.among.subset hg))

lemma mirrorCount_map (hids : Function.Injective s.ids.number)
    (h : Brought s m tasks failed project t born new) (n : Int64) :
    mirrorCount s.ids n (project.map t) = mirrorCount s.ids n project := by
  unfold mirrorCount
  rw [List.countP_map]
  refine List.countP_congr fun i hi => ?_
  rw [Function.comp_apply, githubId?_treated hids (h.treated i hi)]

/-- New issues stand for the GitHub issues that they were made for. -/
lemma mirrorCount_new (hids : Function.Injective s.ids.number)
    (hsmall : ∀ g ∈ born, g.id.toInt.natAbs ≤ 2 ^ 53)
    (h : List.Forall₂ (fun g j => ∃ key,
      Worked s m failed g (newIssue g s.ids s.issueType (s.now g) key) j) born new) (n : Int64) :
    mirrorCount s.ids n new = born.countP fun g => g.id == n := by
  induction h with
  | nil => rfl
  | @cons g j born new hgj hrest ih =>
    obtain ⟨key, hworked⟩ := hgj
    have hid : githubId? s.ids j = some g.id := by
      rw [githubId?_advanced hids hworked.1]
      exact githubId?_newIssue hids (hsmall g List.mem_cons_self) _ _ key
    have hborn := ih fun g' hg' => hsmall g' (List.mem_cons_of_mem g hg')
    unfold mirrorCount at hborn ⊢
    rw [List.countP_cons, List.countP_cons, hborn, hid]
    simp

lemma mirrorCount_le_one (hids : Function.Injective s.ids.number) (hnumbered : Numbered m)
    (h : Brought s m (s.tasks m) failed m.project t born new)
    (hone : mirrorCount s.ids n m.project ≤ 1) :
    mirrorCount s.ids n (m.project.map t ++ new) ≤ 1 := by
  have hcount : mirrorCount s.ids n (m.project.map t ++ new) =
      mirrorCount s.ids n m.project + born.countP fun g => g.id == n := by
    have hnew := mirrorCount_new hids
      (fun g hg => hnumbered.small g (task_of_born h hg).1) h.created n
    rw [← mirrorCount_map hids h n, ← hnew]
    exact List.countP_append
  by_cases hborn : ∃ g ∈ born, g.id = n
  · obtain ⟨g, hg, rfl⟩ := hborn
    have hzero : mirrorCount s.ids g.id m.project = 0 := by
      refine List.countP_eq_zero.mpr fun j hj hid => ?_
      exact (task_of_born h hg).2 j hj (by simpa using hid)
    have hle : born.countP (fun g' => g'.id == g.id) ≤ 1 := by
      have hsub := h.among.trans (creations_sublist s m)
      have hnodup : (born.map GitHub.Issue.id).Nodup :=
        hnumbered.issues.sublist (hsub.map _)
      have hcountP := List.nodup_iff_count_le_one.mp hnodup g.id
      rw [List.count, List.countP_map] at hcountP
      exact hcountP
    omega
  · have hzero : born.countP (fun g => g.id == n) = 0 := by
      refine List.countP_eq_zero.mpr fun g hg hid => hborn ⟨g, hg, ?_⟩
      simpa using hid
    omega

lemma countP_partlyPosted {held held' : List Jira.Comment}
    (hsource : Distinct (listedComments m g)) (hheld : (held.map Jira.Comment.id).Nodup)
    (h : PartlyPosted m g held held') (hone : held.countP (carries n) ≤ 1) :
    held'.countP (carries n) ≤ 1 := by
  rcases h with rfl | ⟨-, p, done, rest, hp, hw, hposted⟩
  · exact hone
  · exact countP_carries_le_one hsource hheld hp hw hposted hone

lemma countP_advanced (hsource : Distinct (listedComments m g))
    (hi : (i.comments.map Jira.Comment.id).Nodup) (h : Advanced ids issueType m g i j)
    (hone : i.comments.countP (carries n) ≤ 1) : j.comments.countP (carries n) ≤ 1 := by
  obtain ⟨k, held, -, hheld, rfl⟩ := h
  exact countP_partlyPosted hsource hi hheld hone

lemma oneComment_brought (hnumbered : Numbered m) (horderly : Orderly m.project)
    (h : Brought s m (s.tasks m) failed m.project t born new) (hone : OneComment n m.project) :
    OneComment n (m.project.map t ++ new) := by
  intro j hj
  rcases List.mem_append.mp hj with hj | hj
  · obtain ⟨i, hi, rfl⟩ := List.mem_map.mp hj
    rcases treated_cases (h.treated i hi) with ⟨g, hg, hadvanced⟩ | heq
    · exact countP_advanced (hnumbered.comments g (mem_tasks_update hg).1)
        (horderly.comments i hi) hadvanced (hone i hi)
    · rw [heq]
      exact hone i hi
  · obtain ⟨g, hg, key, hworked⟩ := exists_left_of_forall₂ h.created hj
    exact countP_advanced (i := newIssue g s.ids s.issueType (s.now g) key)
      (hnumbered.comments g (task_of_born h hg).1) List.nodup_nil hworked.1 (Nat.zero_le 1)

/-- Whatever a pass meets, it keeps a project orderly and makes no second mirror. -/
theorem run_keeps_unique {r : Except Failure Report} (hids : Function.Injective s.ids.number)
    (hfresh : Fresh s.rules) (hnumbered : Numbered w.state) (horderly : Orderly w.state.project)
    (h : s.pass.run.run w = (r, v)) :
    Orderly v.state.project ∧
      (∀ n, mirrorCount s.ids n w.state.project ≤ 1 → mirrorCount s.ids n v.state.project ≤ 1) ∧
      ∀ n, OneComment n w.state.project → OneComment n v.state.project := by
  have hunchanged : v.state.project = w.state.project → Orderly v.state.project ∧
      (∀ n, mirrorCount s.ids n w.state.project ≤ 1 → mirrorCount s.ids n v.state.project ≤ 1) ∧
      ∀ n, OneComment n w.state.project → OneComment n v.state.project := by
    intro hsame
    rw [hsame]
    exact ⟨horderly, fun _ hone => hone, fun _ hone => hone⟩
  by_cases hdry : s.dryRun = true
  · have hkeeps := run_keeps (project_confined s hdry) w
    rw [h] at hkeeps
    exact hunchanged hkeeps
  · cases r with
    | error e =>
      rcases run_course h with ⟨e, -, hread, -⟩ | ⟨w₁, w₂, report, -, -, hr, -⟩
      · exact hunchanged (project_onlyRead hread)
      · cases hr
    | ok report =>
      obtain ⟨failed, t, born, new, hbrought, hproject, horderly', -⟩ :=
        run_brought hids (Bool.eq_false_iff.mpr hdry) hfresh horderly hnumbered.issues h
      rw [hproject] at horderly' ⊢
      exact ⟨horderly', fun n hone => mirrorCount_le_one hids hnumbered hbrought hone,
        fun n hone => oneComment_brought hnumbered horderly hbrought hone⟩

/-! ## Any number of passes -/

/-- Passes over one project; between two of them GitHub may change in any way. -/
inductive Passes (ids : Jira.FieldNumbers) (m₀ : Memory) : Memory → Prop where
  | start : Passes ids m₀ m₀
  | pass {m : Memory} {s : Setting} {w v : World Memory} {r : Except Failure Report}
      (hpasses : Passes ids m₀ m) (hids : s.ids = ids) (hfresh : Fresh s.rules)
      (hproject : w.state.project = m.project) (hnumbered : Numbered w.state)
      (h : s.pass.run.run w = (r, v)) : Passes ids m₀ v.state

/-- After any number of passes there is no second mirror of any GitHub issue or comment that had
none in the beginning. -/
theorem passes_keep_unique (hids : Function.Injective ids.number) (horderly : Orderly m₀.project)
    (h : Passes ids m₀ m) :
    Orderly m.project ∧
      (∀ n, mirrorCount ids n m₀.project ≤ 1 → mirrorCount ids n m.project ≤ 1) ∧
      ∀ n, OneComment n m₀.project → OneComment n m.project := by
  induction h with
  | start => exact ⟨horderly, fun _ hone => hone, fun _ hone => hone⟩
  | @pass m s w v r hpasses hs hfresh hproject hnumbered hrun ih =>
    obtain ⟨horderly', hissues, hcomments⟩ := ih
    subst hs
    rw [← hproject] at horderly' hissues hcomments
    obtain ⟨horderly'', hissues', hcomments'⟩ :=
      run_keeps_unique hids hfresh hnumbered horderly' hrun
    exact ⟨horderly'', fun n hone => hissues' n (hissues n hone),
      fun n hone => hcomments' n (hcomments n hone)⟩

lemma passes_sampleRun (fails : Memory → String → Bool) (h : Passes sampleIds sampleMemory m) :
    Passes sampleIds sampleMemory (sampleRun fails m.project) := by
  have hnumbered : Numbered { sampleMemory with project := m.project } :=
    ⟨sample_snapshot.issues, sample_snapshot.small, sample_snapshot.comments⟩
  unfold sampleRun
  rcases hrun : (sampleSetting fails).pass.run.run
    ⟨{ sampleMemory with project := m.project }, []⟩ with ⟨r, v⟩
  exact Passes.pass (w := ⟨{ sampleMemory with project := m.project }, []⟩) h rfl
    (fresh_unusedNames fails) rfl hnumbered hrun

/-- A comment that one pass cannot add is not added twice by the next. -/
theorem resumed_unique :
    let interrupted := sampleRun (fun _ name => name == "comment A-1") sampleMemory.project
    let resumed := sampleRun (fun _ _ => false) interrupted.project
    mirrorCount sampleIds 7 resumed.project ≤ 1 ∧ OneComment 3 resumed.project := by
  intro interrupted resumed
  have hpasses : Passes sampleIds sampleMemory resumed :=
    passes_sampleRun _ (passes_sampleRun _ Passes.start)
  obtain ⟨-, hissues, hcomments⟩ := passes_keep_unique sampleIds_injective sample_orderly hpasses
  refine ⟨hissues 7 (by decide +kernel), hcomments 3 ?_⟩
  intro j hj
  obtain rfl := List.mem_singleton.mp hj
  exact Nat.zero_le 1

end IssueBridge.Proofs
