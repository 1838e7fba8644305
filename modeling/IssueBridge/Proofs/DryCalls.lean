import IssueBridge.Proofs.PassCourse
import IssueBridge.Proofs.Questions

/-!
# Calls of a dry run

The calls of a dry run to the project, beside those of a run that writes. The project of the second
run moves away from the start, but what tasks still ahead read of it stays.
-/

namespace IssueBridge.Proofs

variable {start m m' n n' : Memory} {tasks rest : List IssueTask}
  {rules : Memory.Rules} {ids : Jira.FieldNumbers} {g : GitHub.Issue} {i i' j : Jira.Issue}
  {key : String} {held : List String}

/-- Nothing but calls happened since the start. -/
def Unwritten (start m : Memory) : Prop :=
  ∃ calls, m = { start with calls }

/-- A dry run and a run that writes, on the way from one start: the issues that tasks are for still
have the comments that they had. -/
structure Abreast (start : Memory) (tasks : List IssueTask) (m n : Memory) : Prop where
  unwritten : Unwritten start m
  orderly : Orderly n.project
  waiting : ∀ g j, .update g j ∈ tasks → ∃ i ∈ n.project, i.key = j.key ∧ i.comments = j.comments

/-- The run that writes is at work on the issue of a key, which has certain comments. -/
structure Facing (start : Memory) (rest : List IssueTask) (key : String) (held : List String)
    (m n : Memory) : Prop extends Abreast start rest m n where
  aside : ∀ g j, .update g j ∈ rest → j.key ≠ key
  there : ∃ i ∈ n.project, i.key = key ∧ held ⊆ i.comments.map Jira.Comment.id

/-- A new issue in two runs, of which one only tells it. -/
structure Created (start : Memory) (rest : List IssueTask) (i j : Jira.Issue) (m n : Memory) : Prop
    extends Facing start rest j.key [] m n where
  told : i.comments = []
  bare : j.comments = []
  made : j ∈ n.project

/-- The issue that two runs read back. Its key may be another one as long as it has no comments. -/
structure Current (start : Memory) (rest : List IssueTask) (i j : Jira.Issue) (m n : Memory) : Prop
    extends Facing start rest j.key (j.comments.map Jira.Comment.id) m n where
  comments : i.comments = j.comments
  named : i.key = j.key ∨ j.comments = []

lemma unwritten_noted (name : String) (h : Unwritten start m) : Unwritten start (noted name m) := by
  obtain ⟨calls, rfl⟩ := h
  exact ⟨_, rfl⟩

lemma unwritten_onlyRead (h : Unwritten start m) (hread : OnlyRead m m') : Unwritten start m' := by
  obtain ⟨calls, rfl⟩ := h
  obtain ⟨names, rfl, -⟩ := hread
  exact ⟨_, rfl⟩

lemma abreast_start (horderly : Orderly start.project)
    (hthere : ∀ g j, .update g j ∈ tasks → j ∈ start.project) : Abreast start tasks start start :=
  ⟨⟨start.calls, rfl⟩, horderly, fun g j hj => ⟨j, hthere g j hj, rfl, rfl⟩⟩

lemma abreast_onlyRead (h : Abreast start tasks m n) (hm : OnlyRead m m') (hn : OnlyRead n n') :
    Abreast start tasks m' n' := by
  refine ⟨unwritten_onlyRead h.unwritten hm, ?_, ?_⟩
  · rw [project_onlyRead hn]
    exact h.orderly
  · rw [project_onlyRead hn]
    exact h.waiting

lemma abreast_tail {b : IssueTask} (h : Abreast start (b :: rest) m n) : Abreast start rest m n :=
  ⟨h.unwritten, h.orderly, fun g j hj => h.waiting g j (List.mem_cons_of_mem b hj)⟩

/-- A write to an issue does not matter to tasks for which it has the comments that they expect. -/
lemma abreast_replaced (h : Abreast start tasks m n) (hm : Unwritten start m')
    (hn : n'.project = replaced i n.project) (hids : (i.comments.map Jira.Comment.id).Nodup)
    (hcomments : ∀ g j, .update g j ∈ tasks → j.key = i.key → i.comments = j.comments) :
    Abreast start tasks m' n' := by
  refine ⟨hm, ?_, fun g j hj => ?_⟩
  · rw [hn]
    exact orderly_replaced h.orderly hids
  · obtain ⟨k, hk, hkey, hkept⟩ := h.waiting g j hj
    rw [hn]
    by_cases hik : k.key = i.key
    · exact ⟨i, mem_replaced_self hk hik, hik.symm.trans hkey,
        hcomments g j hj (hkey.symm.trans hik)⟩
    · exact ⟨k, mem_replaced_of_ne hk hik, hkey, hkept⟩

lemma facing_replaced (i' : Jira.Issue) (h : Facing start rest key held m n)
    (hm : Unwritten start m') (hi : i ∈ n.project) (hkey : i.key = key) (hi' : i'.key = key)
    (hn : n'.project = replaced i' n.project) (hids : (i'.comments.map Jira.Comment.id).Nodup)
    (hmore : i.comments.map Jira.Comment.id ⊆ i'.comments.map Jira.Comment.id) :
    Facing start rest key held m' n' := by
  refine ⟨abreast_replaced h.toAbreast hm hn hids ?_, h.aside, ?_⟩
  · intro g j hj hjk
    exact absurd (hjk.trans hi') (h.aside g j hj)
  · obtain ⟨k, hk, hkk, hheld⟩ := h.there
    obtain rfl := eq_of_key_eq h.orderly.keys hk hi (hkk.trans hkey.symm)
    rw [hn]
    exact ⟨i', mem_replaced_self hi (hkey.trans hi'.symm), hi', List.Subset.trans hheld hmore⟩

/-! ## Calls -/

variable (ids)

/-- A call without an effect, where no call fails. -/
lemma run_call_idle {α : Type} {name : String} {effect : Memory → Except Cause (α × Memory)}
    (hsound : ¬MayFail rules) (value : Memory → α) (heffect : ∀ m, effect m = .ok (value m, m))
    (w : World Memory) :
    (Memory.call rules name effect).run w =
      (.ok (value (noted name w.state)), ⟨noted name w.state, w.log⟩) := by
  rw [run_call, if_neg fun hfails => hsound ⟨_, _, hfails⟩, heffect]

lemma issues_parallel (hsound : ¬MayFail rules) (numbers : List Int64) :
    Parallel (fun m n => m = start ∧ n = start) ((Memory.target rules ids true).issues numbers).run
      ((Memory.target rules ids false).issues numbers).run
      (Both (fun a b m n => (a = start.listed rules.listAll ids numbers ∧ b = a) ∧
        OnlyRead start m ∧ OnlyRead start n) Never) := by
  rintro w v ⟨hw, hv⟩
  rcases hdry : ((Memory.target rules ids true).issues numbers).run w with ⟨r, w'⟩
  rcases hwet : ((Memory.target rules ids false).issues numbers).run v with ⟨r', v'⟩
  obtain ⟨hread, rfl | ⟨e, -, hfail⟩⟩ := issues_course hdry
  · obtain ⟨hread', rfl | ⟨e, -, hfail⟩⟩ := issues_course hwet
    · rw [hw] at hread ⊢
      rw [hv] at hread' ⊢
      exact .ok ⟨⟨rfl, rfl⟩, hread, hread'⟩
    · exact absurd hfail hsound
  · exact absurd hfail hsound

lemma update_parallel (hsound : ¬MayFail rules) (hj : .update g j ∈ tasks) (fields : Jira.Draft) :
    Parallel (Abreast start tasks) ((Memory.target rules ids true).update j.key fields).run
      ((Memory.target rules ids false).update j.key fields).run
      (Both (fun _ _ => Abreast start tasks) Never) := by
  intro w v h
  have hdry : ((Memory.target rules ids true).update j.key fields).run w =
      (.ok (), ⟨noted ("update " ++ j.key) w.state, w.log⟩) :=
    run_call_idle hsound _ (fun _ => rfl) w
  rw [hdry]
  rcases hrun : ((Memory.target rules ids false).update j.key fields).run v with ⟨r, v'⟩
  rcases update_course h.orderly.keys hrun with
    ⟨rfl, i, hi, hkey, hstate⟩ | ⟨e, -, -, hfail | habsent⟩
  · -- new fields, but the comments that the tasks expect
    refine .ok (abreast_replaced h (unwritten_noted _ h.unwritten) hstate
      (h.orderly.comments i hi) fun g' j' hj' hjk => ?_)
    obtain ⟨k, hk, hkk, hkept⟩ := h.waiting g' j' hj'
    rw [← hkept, eq_of_key_eq h.orderly.keys hk hi (hkk.trans hjk)]
    rfl
  · exact absurd hfail hsound
  · obtain ⟨i, hi, hkey, -⟩ := h.waiting g j hj
    exact absurd hkey (habsent i hi)

lemma create_parallel (hsound : ¬MayFail rules) (hfresh : Fresh rules) (fields : Jira.Draft) :
    Parallel (Abreast start rest) ((Memory.target rules ids true).create fields).run
      ((Memory.target rules ids false).create fields).run (Both (Created start rest) Never) := by
  intro w v h
  have hdry : ((Memory.target rules ids true).create fields).run w =
      (.ok { fields.toIssue with key := "PROJ-?" },
        ⟨noted ("create " ++ fields.summary) w.state, w.log⟩) :=
    run_call_idle hsound _ (fun _ => rfl) w
  rw [hdry]
  rcases hrun : ((Memory.target rules ids false).create fields).run v with ⟨r, v'⟩
  rcases create_course hfresh hrun with ⟨j, rfl, hj, hkey, hstate⟩ | ⟨e, -, -, hfail⟩
  · have hempty : j.comments = [] := by rw [hj]; rfl
    have hmem : j ∈ v'.state.project := by simp [hstate]
    refine .ok ⟨⟨⟨unwritten_noted _ h.unwritten, ?_, ?_⟩, ?_, ?_⟩, rfl, hempty, hmem⟩
    · rw [hstate]
      exact orderly_append h.orderly hkey (by simp [hempty])
    · intro g k hk
      obtain ⟨i, hi, hik⟩ := h.waiting g k hk
      exact ⟨i, by simp [hstate, hi], hik⟩
    · intro g k hk hkj
      obtain ⟨i, hi, hik, -⟩ := h.waiting g k hk
      exact hkey (List.mem_map.mpr ⟨i, hi, hik.trans hkj⟩)
    · exact ⟨j, hmem, rfl, by simp⟩
  · exact absurd hfail hsound

lemma addComment_parallel (hsound : ¬MayFail rules) (hfresh : Fresh rules) (other body : String) :
    Parallel (Facing start rest key held) ((Memory.target rules ids true).addComment other body).run
      ((Memory.target rules ids false).addComment key body).run
      (Both (fun _ _ => Facing start rest key held) Never) := by
  intro w v h
  have hdry : ((Memory.target rules ids true).addComment other body).run w =
      (.ok ⟨rules.newCommentId (noted ("comment " ++ other) w.state) other, body⟩,
        ⟨noted ("comment " ++ other) w.state, w.log⟩) :=
    run_call_idle hsound (fun m => Jira.Comment.mk (rules.newCommentId m other) body)
      (fun _ => rfl) w
  rw [hdry]
  rcases hrun : ((Memory.target rules ids false).addComment key body).run v with ⟨r, v'⟩
  rcases addComment_course hfresh h.orderly.keys hrun with
    ⟨t, rfl, -, i, hi, hkey, hid, hstate⟩ | ⟨e, -, -, hfail | habsent⟩
  · refine .ok (facing_replaced { i with comments := i.comments ++ [t] } h
      (unwritten_noted _ h.unwritten) hi hkey hkey hstate ?_ ?_)
    · rw [List.map_append, List.map_singleton, ← List.concat_eq_append]
      exact (h.orderly.comments i hi).concat hid
    · rw [List.map_append]
      exact List.subset_append_left _ _
  · exact absurd hfail hsound
  · obtain ⟨i, hi, hkey, -⟩ := h.there
    exact absurd hkey (habsent i hi)

lemma editComment_parallel (hsound : ¬MayFail rules) (other body : String) {id : String}
    (hid : id ∈ held) :
    Parallel (Facing start rest key held)
      ((Memory.target rules ids true).editComment other id body).run
      ((Memory.target rules ids false).editComment key id body).run
      (Both (fun _ _ => Facing start rest key held) Never) := by
  intro w v h
  have hdry : ((Memory.target rules ids true).editComment other id body).run w =
      (.ok ⟨id, body⟩, ⟨noted ("edit " ++ other ++ "/" ++ id) w.state, w.log⟩) :=
    run_call_idle hsound _ (fun _ => rfl) w
  rw [hdry]
  rcases hrun : ((Memory.target rules ids false).editComment key id body).run v with ⟨r, v'⟩
  rcases editComment_course h.orderly hrun with
    ⟨t, rfl, i, hi, hkey, hstate⟩ | ⟨e, -, -, hfail | habsent⟩
  · refine .ok (facing_replaced { i with comments := rewritten id body i.comments } h
      (unwritten_noted _ h.unwritten) hi hkey hkey hstate ?_ ?_)
    · rw [map_id_rewritten]
      exact h.orderly.comments i hi
    · rw [map_id_rewritten]
      exact List.Subset.refl _
  · exact absurd hfail hsound
  · obtain ⟨i, hi, hkey, hheld⟩ := h.there
    obtain ⟨t, ht, htid⟩ := List.mem_map.mp (hheld hid)
    exact absurd htid (habsent i hi hkey t ht)

/-! ## Reading an issue back -/

lemma facing_onlyRead (h : Facing start rest key held m n) (hm : OnlyRead m m')
    (hn : OnlyRead n n') : Facing start rest key held m' n' := by
  refine ⟨abreast_onlyRead h.toAbreast hm hn, h.aside, ?_⟩
  rw [project_onlyRead hn]
  exact h.there

lemma find?_unwritten (hstart : (start.project.map Jira.Issue.key).Nodup) (hj : j ∈ start.project)
    (h : Unwritten start m) : m.find? j.key = some j := by
  obtain ⟨calls, rfl⟩ := h
  exact find?_key hstart hj

lemma run_issue (dryRun : Bool) (hsound : ¬MayFail rules) {w : World Memory}
    (h : w.state.find? key = some j) :
    ∃ w', ((Memory.target rules ids dryRun).issue key).run w = (.ok j, w') ∧
      OnlyRead w.state w'.state := by
  rcases hrun : ((Memory.target rules ids dryRun).issue key).run w with ⟨r, w'⟩
  obtain ⟨hread, ⟨i, rfl, hi⟩ | ⟨e, -, hfail | hnone⟩⟩ := issue_course hrun
  · rw [h] at hi
    obtain rfl := Option.some.inj hi
    exact ⟨w', rfl, hread⟩
  · exact absurd hfail hsound
  · rw [h] at hnone
    cases hnone

/-- The issue of a task, which the dry run finds as it was at the start. -/
lemma issue_parallel (hsound : ¬MayFail rules) (horderly : Orderly start.project)
    (htargets : Targeted (.update g j :: rest) start.project) :
    Parallel (Abreast start (.update g j :: rest)) ((Memory.target rules ids true).issue j.key).run
      ((Memory.target rules ids false).issue j.key).run (Both (Current start rest) Never) := by
  intro w v h
  obtain ⟨i, hi, hkey, hkept⟩ := h.waiting g j List.mem_cons_self
  have hfind : v.state.find? j.key = some i := by
    rw [← hkey]
    exact find?_key h.orderly.keys hi
  obtain ⟨w', hdry, hread⟩ := run_issue ids true hsound
    (find?_unwritten horderly.keys (htargets.there g j List.mem_cons_self) h.unwritten)
  obtain ⟨v', hwet, hread'⟩ := run_issue ids false hsound hfind
  rw [hdry, hwet]
  have habreast := abreast_onlyRead (abreast_tail h) hread hread'
  refine .ok ⟨⟨habreast, fun g' k hk => ?_, i, ?_, rfl, List.Subset.refl _⟩, hkept.symm,
    Or.inl hkey.symm⟩
  · rw [hkey]
    exact key_ne_of_targeted htargets hk
  · change i ∈ v'.state.project
    rw [project_onlyRead hread']
    exact hi

/-- The dry run does not look for an issue that it only told. -/
lemma told_parallel (hsound : ¬MayFail rules) (i j : Jira.Issue) :
    Parallel (Created start rest i j) (pure i : Call Memory Jira.Issue).run
      ((Memory.target rules ids false).issue j.key).run (Both (Current start rest) Never) := by
  intro w v h
  obtain ⟨v', hwet, hread⟩ := run_issue ids false hsound
    (find?_key h.orderly.keys h.made)
  rw [hwet]
  refine .ok ⟨?_, h.told.trans h.bare.symm, Or.inr h.bare⟩
  rw [h.bare]
  exact facing_onlyRead h.toFacing (onlyRead_refl _) hread

end IssueBridge.Proofs
