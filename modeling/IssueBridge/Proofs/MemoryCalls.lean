import IssueBridge.Proofs.KeyedProject
import IssueBridge.Proofs.PassFrame

/-!
# Calls of the collaborators in memory

What each call of the collaborators in memory does to the project. A call that fails does nothing
but leave its name.
-/

namespace IssueBridge.Proofs

/-- The memory with one more name among the calls made. -/
def noted (name : String) (m : Memory) : Memory :=
  { m with calls := m.calls ++ [name] }

/-- Names of new issues and comments were never given before. -/
structure Fresh (rules : Memory.Rules) : Prop where
  key : ∀ m, ∀ j ∈ m.project, j.key ≠ rules.newKey m
  comment : ∀ m key, ∀ j ∈ m.project, j.key = key → ∀ t ∈ j.comments,
    t.id ≠ rules.newCommentId m key

/-- The repository in a memory: all that a pass reads from GitHub. -/
def repository (m : Memory) :
    List GitHub.Issue × Dictionary (List GitHub.Comment) × Dictionary GitHub.User :=
  (m.issues, m.comments, m.users)

/-- The comments that are listed for an issue. -/
def listedComments (m : Memory) (g : GitHub.Issue) : List GitHub.Comment :=
  (m.comments.get? (toString g.number)).getD []

/-- What a pass over a memory is given. -/
structure Setting where
  rules : Memory.Rules
  ids : Jira.FieldNumbers
  dryRun : Bool
  repo : GitHub.Repo
  issueType : String
  now : GitHub.Issue → Instant
  since : Option Instant

/-- The pass over a memory. -/
def Setting.pass (s : Setting) : Pass Memory :=
  { source := Memory.source s.rules
    target := Memory.target s.rules s.ids s.dryRun
    ids := s.ids
    repo := s.repo
    issueType := s.issueType
    now := s.now
    since := s.since }

variable {α : Type} {rules : Memory.Rules} {ids : Jira.FieldNumbers} {name key id body : String}
  {w v : World Memory}

lemma run_call (rules : Memory.Rules) (name : String)
    (effect : Memory → Except Cause (α × Memory)) (w : World Memory) :
    (Memory.call rules name effect).run w =
      if rules.fails (noted name w.state) name then
        (.error (Failure.of (.other rules.fault)), ⟨noted name w.state, w.log⟩)
      else
        match effect (noted name w.state) with
        | .ok (value, m) => (.ok value, ⟨m, w.log⟩)
        | .error cause => (.error (Failure.of cause), ⟨noted name w.state, w.log⟩) := by
  change (let (r, m) := if rules.fails (noted name w.state) name then
      ((.error (Failure.of (.other rules.fault)) : Except Failure α), noted name w.state)
    else
      match effect (noted name w.state) with
      | .ok (value, m) => (.ok value, m)
      | .error cause => (.error (Failure.of cause), noted name w.state)
    (r, (⟨m, w.log⟩ : World Memory))) = _
  by_cases hfails : rules.fails (noted name w.state) name = true
  · rw [if_pos hfails, if_pos hfails]
  · rw [if_neg hfails, if_neg hfails]
    rcases effect (noted name w.state) with cause | ⟨value, m⟩
    · rfl
    · rfl

/-- A call succeeds with its effect, or fails without any. -/
lemma call_course {effect : Memory → Except Cause (α × Memory)} {r : Except Failure α}
    (h : (Memory.call rules name effect).run w = (r, v)) :
    (∃ a, r = .ok a ∧ effect (noted name w.state) = .ok (a, v.state)) ∨
      ∃ e, r = .error e ∧ v.state = noted name w.state ∧
        (rules.fails (noted name w.state) name = true ∨
          ∃ cause, effect (noted name w.state) = .error cause) := by
  rw [run_call] at h
  by_cases hfails : rules.fails (noted name w.state) name = true
  · rw [if_pos hfails, Prod.mk.injEq] at h
    obtain ⟨rfl, rfl⟩ := h
    exact Or.inr ⟨_, rfl, rfl, Or.inl hfails⟩
  · rw [if_neg hfails] at h
    rcases heffect : effect (noted name w.state) with cause | ⟨value, m⟩
    · rw [heffect, Prod.mk.injEq] at h
      obtain ⟨rfl, rfl⟩ := h
      exact Or.inr ⟨_, rfl, rfl, Or.inr ⟨cause, rfl⟩⟩
    · rw [heffect, Prod.mk.injEq] at h
      obtain ⟨rfl, rfl⟩ := h
      exact Or.inl ⟨value, rfl, rfl⟩

lemma keeps_memory_call {τ : Type} {part : Memory → τ}
    {effect : Memory → Except Cause (α × Memory)} (hnote : ∀ m, part (noted name m) = part m)
    (heffect : ∀ m a m', effect m = .ok (a, m') → part m' = part m) :
    Keeps part (Memory.call rules name effect).run := by
  intro w
  rcases hrun : (Memory.call rules name effect).run w with ⟨r, v⟩
  rcases call_course hrun with ⟨a, -, heq⟩ | ⟨e, -, heq, -⟩
  · exact (heffect _ _ _ heq).trans (hnote _)
  · change part v.state = _
    rw [heq]
    exact hnote _

/-- A call that only reads answers from the memory as it is, or fails. -/
lemma query_course {answer : Memory → Except Cause α} {r : Except Failure α}
    (h : (Memory.query rules name answer).run w = (r, v)) :
    v.state = noted name w.state ∧
      ((∃ a, r = .ok a ∧ answer (noted name w.state) = .ok a) ∨
        ∃ e, r = .error e ∧ (rules.fails (noted name w.state) name = true ∨
          ∃ cause, answer (noted name w.state) = .error cause)) := by
  rcases call_course h with ⟨a, hr, heffect⟩ | ⟨e, hr, hv, hwhy⟩
  · rcases hanswer : answer (noted name w.state) with cause | value
    · rw [hanswer] at heffect
      cases heffect
    · rw [hanswer] at heffect
      have hpair := Except.ok.inj heffect
      rw [Prod.mk.injEq] at hpair
      exact ⟨hpair.2.symm, Or.inl ⟨a, hr, by rw [hpair.1]⟩⟩
  · refine ⟨hv, Or.inr ⟨e, hr, ?_⟩⟩
    rcases hwhy with hfails | ⟨cause, hcause⟩
    · exact Or.inl hfails
    · refine Or.inr ⟨cause, ?_⟩
      rcases hanswer : answer (noted name w.state) with cause' | value
      · rw [hanswer] at hcause
        exact congrArg _ (Except.error.inj hcause)
      · rw [hanswer] at hcause
        cases hcause

/-! ## Reading -/

/-- The name of a call that writes to the project. -/
def isWrite (name : String) : Bool :=
  ["create ", "update ", "comment ", "edit "].any fun start =>
    start.toList.isPrefixOf name.toList

/-- A memory differs from another one only by the names of more calls, none of which writes. -/
def OnlyRead (m m' : Memory) : Prop :=
  ∃ names, m' = { m with calls := m.calls ++ names } ∧ ∀ n ∈ names, isWrite n = false

/-- Some call may fail. -/
def MayFail (rules : Memory.Rules) : Prop :=
  ∃ m name, rules.fails m name = true

lemma onlyRead_refl (m : Memory) : OnlyRead m m :=
  ⟨[], by simp, by simp⟩

lemma onlyRead_trans {m₁ m₂ m₃ : Memory} (h₁ : OnlyRead m₁ m₂) (h₂ : OnlyRead m₂ m₃) :
    OnlyRead m₁ m₃ := by
  obtain ⟨names₁, rfl, hnames₁⟩ := h₁
  obtain ⟨names₂, rfl, hnames₂⟩ := h₂
  refine ⟨names₁ ++ names₂, by simp, fun n hn => ?_⟩
  rcases List.mem_append.mp hn with hn | hn
  · exact hnames₁ n hn
  · exact hnames₂ n hn

lemma onlyRead_noted {name : String} (h : isWrite name = false) (m : Memory) :
    OnlyRead m (noted name m) :=
  ⟨[name], rfl, fun n hn => by rw [List.mem_singleton.mp hn, h]⟩

lemma project_onlyRead {m m' : Memory} (h : OnlyRead m m') : m'.project = m.project := by
  obtain ⟨names, rfl, -⟩ := h
  rfl

lemma repository_onlyRead {m m' : Memory} (h : OnlyRead m m') : repository m' = repository m := by
  obtain ⟨names, rfl, -⟩ := h
  rfl

lemma isWrite_append (start rest : String)
    (h : start.toList.head? = some 's' ∨ start.toList.head? = some 'g') :
    isWrite (start ++ rest) = false := by
  cases hstart : start.toList with
  | nil => simp [hstart] at h
  | cons c cs =>
    rw [hstart] at h
    simp only [List.head?_cons, Option.some.injEq] at h
    rcases h with rfl | rfl
    · simp [isWrite, String.toList_append, hstart, List.isPrefixOf]
    · simp [isWrite, String.toList_append, hstart, List.isPrefixOf]

lemma listIssues_course {repo : GitHub.Repo} {since : Option Instant}
    {r : Except Failure (List GitHub.Issue)}
    (h : ((Memory.source rules).issues repo since).run w = (r, v)) :
    OnlyRead w.state v.state ∧
      (r = .ok w.state.issues ∨ ∃ e, r = .error e ∧ MayFail rules) := by
  rcases call_bind h with ⟨_, u, hnote, hquery⟩ | ⟨e, hnote, -⟩
  · obtain ⟨-, rfl⟩ := Prod.mk.inj hnote
    obtain ⟨hv, hr⟩ := query_course hquery
    refine ⟨?_, ?_⟩
    · rw [hv]
      exact onlyRead_trans (onlyRead_noted (isWrite_append _ _ (by decide)) _)
        (onlyRead_noted (isWrite_append _ _ (by decide)) _)
    · rcases hr with ⟨a, hr, ha⟩ | ⟨e, hr, hfails | ⟨cause, hcause⟩⟩
      · exact Or.inl (by rw [hr, ← Except.ok.inj ha]; rfl)
      · exact Or.inr ⟨e, hr, _, _, hfails⟩
      · cases hcause
  · cases hnote

lemma listComments_course {repo : GitHub.Repo} {g : GitHub.Issue} {since : Option Instant}
    {r : Except Failure (List GitHub.Comment)}
    (h : ((Memory.source rules).comments repo g.number since).run w = (r, v)) :
    OnlyRead w.state v.state ∧
      (r = .ok (listedComments w.state g) ∨ ∃ e, r = .error e ∧ MayFail rules) := by
  rcases call_bind h with ⟨_, u, hnote, hquery⟩ | ⟨e, hnote, -⟩
  · obtain ⟨-, rfl⟩ := Prod.mk.inj hnote
    obtain ⟨hv, hr⟩ := query_course hquery
    refine ⟨?_, ?_⟩
    · rw [hv]
      exact onlyRead_trans (onlyRead_noted (isWrite_append _ _ (by decide)) _)
        (onlyRead_noted (isWrite_append _ _ (by decide)) _)
    · rcases hr with ⟨a, hr, ha⟩ | ⟨e, hr, hfails | ⟨cause, hcause⟩⟩
      · exact Or.inl (by rw [hr, ← Except.ok.inj ha]; rfl)
      · exact Or.inr ⟨e, hr, _, _, hfails⟩
      · cases hcause
  · cases hnote

lemma orAbsent_ok {what : String} {o : Option α} {a : α} (h : Memory.orAbsent what o = .ok a) :
    o = some a := by
  cases o with
  | none => cases h
  | some b => rw [Except.ok.inj h]

lemma orAbsent_error {what : String} {o : Option α} {cause : Cause}
    (h : Memory.orAbsent what o = .error cause) : o = none := by
  cases o with
  | none => rfl
  | some b => cases h

lemma user_course {login : String} {r : Except Failure GitHub.User}
    (h : ((Memory.source rules).user login).run w = (r, v)) :
    OnlyRead w.state v.state ∧
      ((∃ u, r = .ok u ∧ w.state.users.get? login = some u) ∨
        ∃ e, r = .error e ∧ (MayFail rules ∨ w.state.users.get? login = none)) := by
  obtain ⟨hv, hr⟩ := query_course h
  refine ⟨?_, ?_⟩
  · rw [hv]
    exact onlyRead_noted (isWrite_append _ _ (by decide)) _
  · rcases hr with ⟨u, hr, hu⟩ | ⟨e, hr, hfails | ⟨cause, hcause⟩⟩
    · exact Or.inl ⟨u, hr, orAbsent_ok hu⟩
    · exact Or.inr ⟨e, hr, Or.inl ⟨_, _, hfails⟩⟩
    · exact Or.inr ⟨e, hr, Or.inr (orAbsent_error hcause)⟩

lemma issues_course {dryRun : Bool} {numbers : List Int64} {r : Except Failure (List Jira.Issue)}
    (h : ((Memory.target rules ids dryRun).issues numbers).run w = (r, v)) :
    OnlyRead w.state v.state ∧
      (r = .ok (w.state.listed rules.listAll ids numbers) ∨ ∃ e, r = .error e ∧ MayFail rules) := by
  have hquery : (Memory.query rules "list" fun m =>
      .ok (m.listed rules.listAll ids numbers)).run w = (r, v) := h
  obtain ⟨hv, hr⟩ := query_course hquery
  refine ⟨?_, ?_⟩
  · rw [hv]
    exact onlyRead_noted (by decide) _
  · rcases hr with ⟨a, hr, ha⟩ | ⟨e, hr, hfails | ⟨cause, hcause⟩⟩
    · exact Or.inl (by rw [hr, ← Except.ok.inj ha]; rfl)
    · exact Or.inr ⟨e, hr, _, _, hfails⟩
    · cases hcause

lemma issue_course {dryRun : Bool} {r : Except Failure Jira.Issue}
    (h : ((Memory.target rules ids dryRun).issue key).run w = (r, v)) :
    OnlyRead w.state v.state ∧
      ((∃ j, r = .ok j ∧ w.state.find? key = some j) ∨
        ∃ e, r = .error e ∧ (MayFail rules ∨ w.state.find? key = none)) := by
  obtain ⟨hv, hr⟩ := query_course h
  refine ⟨?_, ?_⟩
  · rw [hv]
    exact onlyRead_noted (isWrite_append _ _ (by decide)) _
  · rcases hr with ⟨j, hr, hj⟩ | ⟨e, hr, hfails | ⟨cause, hcause⟩⟩
    · exact Or.inl ⟨j, hr, orAbsent_ok hj⟩
    · exact Or.inr ⟨e, hr, Or.inl ⟨_, _, hfails⟩⟩
    · exact Or.inr ⟨e, hr, Or.inr (orAbsent_error hcause)⟩

/-! ## Writing -/

lemma target_create (rules : Memory.Rules) (ids : Jira.FieldNumbers) (fields : Jira.Draft) :
    (Memory.target rules ids false).create fields =
      Memory.call rules ("create " ++ fields.summary) fun m =>
        .ok (m.addIssue (rules.newKey m) fields) :=
  rfl

lemma target_update (rules : Memory.Rules) (ids : Jira.FieldNumbers) (key : String)
    (fields : Jira.Draft) :
    (Memory.target rules ids false).update key fields =
      Memory.call rules ("update " ++ key) fun m =>
        (m.change key fun j => j.overwrite fields).map fun m => ((), m) :=
  rfl

lemma target_addComment (rules : Memory.Rules) (ids : Jira.FieldNumbers) (key body : String) :
    (Memory.target rules ids false).addComment key body =
      Memory.call rules ("comment " ++ key) fun m =>
        m.addComment key (rules.newCommentId m key) body :=
  rfl

lemma target_editComment (rules : Memory.Rules) (ids : Jira.FieldNumbers) (key id body : String) :
    (Memory.target rules ids false).editComment key id body =
      Memory.call rules ("edit " ++ key ++ "/" ++ id) fun m => m.editComment key id body :=
  rfl

lemma create_course {fields : Jira.Draft} {r : Except Failure Jira.Issue} (hfresh : Fresh rules)
    (h : ((Memory.target rules ids false).create fields).run w = (r, v)) :
    (∃ j, r = .ok j ∧ j = { fields.toIssue with id := j.key, key := j.key } ∧
        j.key ∉ w.state.project.map Jira.Issue.key ∧ v.state.project = w.state.project ++ [j]) ∨
      ∃ e, r = .error e ∧ v.state.project = w.state.project ∧ MayFail rules := by
  rw [target_create] at h
  rcases call_course h with ⟨j, hr, heffect⟩ | ⟨e, hr, hv, hwhy⟩
  · obtain ⟨rfl, hstate⟩ := Prod.mk.inj (Except.ok.inj heffect)
    refine Or.inl ⟨_, hr, rfl, ?_, by rw [← hstate]; rfl⟩
    intro hmem
    obtain ⟨i, hi, hkey⟩ := List.mem_map.mp hmem
    exact hfresh.key (noted ("create " ++ fields.summary) w.state) i hi hkey
  · refine Or.inr ⟨e, hr, by rw [hv]; rfl, ?_⟩
    rcases hwhy with hfails | ⟨cause, hcause⟩
    · exact ⟨_, _, hfails⟩
    · cases hcause

/-- A change to the issue of a key happens to the only issue that has it. -/
lemma change_course (key : String) {m : Memory} {f : Jira.Issue → Jira.Issue}
    (hkeys : (m.project.map Jira.Issue.key).Nodup) (hf : ∀ j, (f j).key = j.key) :
    (∃ j ∈ m.project, j.key = key ∧
        m.change key f = .ok { m with project := replaced (f j) m.project }) ∨
      (∀ j ∈ m.project, j.key ≠ key) ∧ ∃ cause, m.change key f = .error cause := by
  unfold Memory.change
  cases hchange : Memory.changeFirst (fun j => j.key == key) f m.project with
  | none =>
    refine Or.inr ⟨fun j hj hkey => ?_, _, rfl⟩
    obtain ⟨changed, hsome⟩ := changeFirst_isSome (f := f)
      (p := fun j => j.key == key) hj (by simpa using hkey)
    rw [hchange] at hsome
    cases hsome
  | some changed =>
    obtain ⟨j, hj, hkey⟩ := exists_of_changeFirst hchange
    have hkey : j.key = key := by simpa using hkey
    refine Or.inl ⟨j, hj, hkey, ?_⟩
    have hmap := changeFirst_eq_map Jira.Issue.key key f hkeys hchange
    have hsame : changed = replaced (f j) m.project := by
      rw [hmap]
      unfold replaced
      refine List.map_congr_left fun i hi => ?_
      rw [hf, hkey]
      by_cases hik : i.key = key
      · rw [if_pos hik, if_pos hik, eq_of_key_eq hkeys hi hj (hik.trans hkey.symm)]
      · rw [if_neg hik, if_neg hik]
    rw [← hsame]
    rfl

lemma update_course {fields : Jira.Draft} {r : Except Failure Unit}
    (hkeys : (w.state.project.map Jira.Issue.key).Nodup)
    (h : ((Memory.target rules ids false).update key fields).run w = (r, v)) :
    (r = .ok () ∧ ∃ j ∈ w.state.project, j.key = key ∧
        v.state.project = replaced (j.overwrite fields) w.state.project) ∨
      ∃ e, r = .error e ∧ v.state.project = w.state.project ∧
        (MayFail rules ∨ ∀ j ∈ w.state.project, j.key ≠ key) := by
  have hchange := change_course key (m := noted ("update " ++ key) w.state)
    (f := fun j => j.overwrite fields) hkeys (fun _ => rfl)
  rw [target_update] at h
  rcases call_course h with ⟨a, hr, heffect⟩ | ⟨e, hr, hv, hwhy⟩
  · refine Or.inl ⟨hr, ?_⟩
    rcases hchange with ⟨j, hj, hkey, hm⟩ | ⟨-, cause, hcause⟩
    · rw [hm] at heffect
      have hstate := (Prod.mk.inj (Except.ok.inj heffect)).2
      exact ⟨j, hj, hkey, by rw [← hstate]; rfl⟩
    · rw [hcause] at heffect
      cases heffect
  · refine Or.inr ⟨e, hr, by rw [hv]; rfl, ?_⟩
    rcases hwhy with hfails | ⟨cause, hcause⟩
    · exact Or.inl ⟨_, _, hfails⟩
    · rcases hchange with ⟨j, hj, hkey, hm⟩ | ⟨hnone, -⟩
      · rw [hm] at hcause
        cases hcause
      · exact Or.inr hnone

lemma addComment_course {r : Except Failure Jira.Comment} (hfresh : Fresh rules)
    (hkeys : (w.state.project.map Jira.Issue.key).Nodup)
    (h : ((Memory.target rules ids false).addComment key body).run w = (r, v)) :
    (∃ t, r = .ok t ∧ t.body = body ∧ ∃ j ∈ w.state.project, j.key = key ∧
        t.id ∉ j.comments.map Jira.Comment.id ∧
        v.state.project = replaced { j with comments := j.comments ++ [t] } w.state.project) ∨
      ∃ e, r = .error e ∧ v.state.project = w.state.project ∧
        (MayFail rules ∨ ∀ j ∈ w.state.project, j.key ≠ key) := by
  let m := noted ("comment " ++ key) w.state
  have hchange := change_course key (m := m)
    (f := fun j => { j with comments := j.comments ++ [⟨rules.newCommentId m key, body⟩] })
    hkeys (fun _ => rfl)
  rw [target_addComment] at h
  rcases call_course h with ⟨t, hr, heffect⟩ | ⟨e, hr, hv, hwhy⟩
  · unfold Memory.addComment at heffect
    rcases hchange with ⟨j, hj, hkey, hm⟩ | ⟨-, cause, hcause⟩
    · rw [hm] at heffect
      obtain ⟨rfl, hstate⟩ := Prod.mk.inj (Except.ok.inj heffect)
      refine Or.inl ⟨_, hr, rfl, j, hj, hkey, ?_, by rw [← hstate]; rfl⟩
      intro hmem
      obtain ⟨t, ht, hid⟩ := List.mem_map.mp hmem
      exact hfresh.comment m key j hj hkey t ht hid
    · rw [hcause] at heffect
      cases heffect
  · refine Or.inr ⟨e, hr, by rw [hv]; rfl, ?_⟩
    rcases hwhy with hfails | ⟨cause, hcause⟩
    · exact Or.inl ⟨_, _, hfails⟩
    · rcases hchange with ⟨j, hj, hkey, hm⟩ | ⟨hnone, -⟩
      · unfold Memory.addComment at hcause
        rw [hm] at hcause
        cases hcause
      · exact Or.inr hnone

lemma editComment_of_find {m : Memory} {j : Jira.Issue} (h : m.find? key = some j) :
    m.editComment key id body = do
      let comments ← Memory.orAbsent ("comment " ++ id) (Memory.changeFirst
        (fun t : Jira.Comment => t.id == id) (fun t => { t with body }) j.comments)
      let m ← m.change key fun i => { i with comments }
      return (⟨id, body⟩, m) := by
  unfold Memory.editComment
  rw [h]
  rfl

/-- A comment is edited where its issue and its identifier are found. -/
lemma edit_course (key id body : String) {m : Memory} (horderly : Orderly m.project) :
    (∃ j ∈ m.project, j.key = key ∧ m.editComment key id body =
        .ok (⟨id, body⟩, { m with
          project := replaced { j with comments := rewritten id body j.comments } m.project })) ∨
      (∀ j ∈ m.project, j.key = key → ∀ t ∈ j.comments, t.id ≠ id) ∧
        ∃ cause, m.editComment key id body = .error cause := by
  cases hfind : m.find? key with
  | none =>
    refine Or.inr ⟨fun j hj hkey => ?_, ?_⟩
    · have hnone := List.find?_eq_none.mp hfind j hj
      simp [hkey] at hnone
    · unfold Memory.editComment
      rw [hfind]
      exact ⟨_, rfl⟩
  | some j =>
    have hj : j ∈ m.project := List.mem_of_find?_eq_some hfind
    have hkey : j.key = key := by simpa using List.find?_some hfind
    rw [editComment_of_find hfind]
    cases hchange : Memory.changeFirst (fun t : Jira.Comment => t.id == id)
        (fun t => { t with body }) j.comments with
    | none =>
      refine Or.inr ⟨fun i hi hik t ht htid => ?_, _, rfl⟩
      rw [eq_of_key_eq horderly.keys hi hj (hik.trans hkey.symm)] at ht
      obtain ⟨changed, hsome⟩ := changeFirst_isSome (f := fun t => { t with body })
        (p := fun t : Jira.Comment => t.id == id) ht (by simpa using htid)
      rw [hchange] at hsome
      cases hsome
    | some changed =>
      have hrewritten : changed = rewritten id body j.comments :=
        changeFirst_eq_map Jira.Comment.id id _ (horderly.comments j hj) hchange
      rcases change_course key (m := m) (f := fun i => { i with comments := changed })
          horderly.keys (fun _ => rfl) with ⟨i, hi, hik, hm⟩ | ⟨hnone, -⟩
      · refine Or.inl ⟨j, hj, hkey, ?_⟩
        have hij : i = j := eq_of_key_eq horderly.keys hi hj (hik.trans hkey.symm)
        change (m.change key fun i => { i with comments := changed }).bind _ = _
        rw [hm, hij, hrewritten]
        rfl
      · exact absurd hkey (hnone j hj)

lemma editComment_course {r : Except Failure Jira.Comment} (horderly : Orderly w.state.project)
    (h : ((Memory.target rules ids false).editComment key id body).run w = (r, v)) :
    (∃ t, r = .ok t ∧ ∃ j ∈ w.state.project, j.key = key ∧ v.state.project =
        replaced { j with comments := rewritten id body j.comments } w.state.project) ∨
      ∃ e, r = .error e ∧ v.state.project = w.state.project ∧
        (MayFail rules ∨ ∀ j ∈ w.state.project, j.key = key → ∀ t ∈ j.comments, t.id ≠ id) := by
  have hedit := edit_course key id body (m := noted ("edit " ++ key ++ "/" ++ id) w.state) horderly
  rw [target_editComment] at h
  rcases call_course h with ⟨t, hr, heffect⟩ | ⟨e, hr, hv, hwhy⟩
  · rcases hedit with ⟨j, hj, hkey, hm⟩ | ⟨-, cause, hcause⟩
    · rw [hm] at heffect
      have hstate := (Prod.mk.inj (Except.ok.inj heffect)).2
      exact Or.inl ⟨t, hr, j, hj, hkey, by rw [← hstate]; rfl⟩
    · rw [hcause] at heffect
      cases heffect
  · refine Or.inr ⟨e, hr, by rw [hv]; rfl, ?_⟩
    rcases hwhy with hfails | ⟨cause, hcause⟩
    · exact Or.inl ⟨_, _, hfails⟩
    · rcases hedit with ⟨j, hj, hkey, hm⟩ | ⟨hnone, -⟩
      · rw [hm] at hcause
        cases hcause
      · exact Or.inr hnone

/-! ## Frames -/

lemma except_bind {β : Type} {x : Except Cause α} {f : α → Except Cause β} {b : β}
    (h : x >>= f = .ok b) : ∃ a, x = .ok a ∧ f a = .ok b := by
  cases x with
  | error cause => cases h
  | ok a => exact ⟨a, rfl, h⟩

lemma except_map {β : Type} {x : Except Cause α} {f : α → β} {b : β} (h : x.map f = .ok b) :
    ∃ a, x = .ok a ∧ f a = b := by
  cases x with
  | error cause => cases h
  | ok a => exact ⟨a, rfl, Except.ok.inj h⟩

lemma change_frame {m m' : Memory} {f : Jira.Issue → Jira.Issue}
    (h : m.change key f = .ok m') : repository m' = repository m := by
  obtain ⟨project, -, rfl⟩ := except_map h
  rfl

lemma keeps_query {τ : Type} {part : Memory → τ} {answer : Memory → Except Cause α}
    (hnote : ∀ m, part (noted name m) = part m) :
    Keeps part (Memory.query rules name answer).run := by
  refine keeps_memory_call hnote fun m a m' h => ?_
  obtain ⟨value, -, heq⟩ := except_map h
  rw [← (Prod.mk.inj heq).2]

/-- A pass over a memory leaves the repository alone. -/
lemma repository_confined (s : Setting) : Confined repository s.pass where
  listIssues _ _ := keeps_call_bind (fun _ => rfl) fun _ => keeps_query fun _ => rfl
  listComments _ _ _ := keeps_call_bind (fun _ => rfl) fun _ => keeps_query fun _ => rfl
  user _ := keeps_query fun _ => rfl
  issues _ := keeps_query fun _ => rfl
  issue _ := keeps_query fun _ => rfl
  create fields := by
    refine keeps_memory_call (fun _ => rfl) fun m a m' h => ?_
    by_cases hdry : s.dryRun = true
    · rw [if_pos hdry] at h
      rw [← (Prod.mk.inj (Except.ok.inj h)).2]
    · rw [if_neg hdry] at h
      rw [← (Prod.mk.inj (Except.ok.inj h)).2]
      rfl
  update key fields := by
    refine keeps_memory_call (fun _ => rfl) fun m a m' h => ?_
    by_cases hdry : s.dryRun = true
    · rw [if_pos hdry] at h
      rw [← (Prod.mk.inj (Except.ok.inj h)).2]
    · rw [if_neg hdry] at h
      obtain ⟨n, hchange, heq⟩ := except_map h
      rw [← (Prod.mk.inj heq).2]
      exact change_frame hchange
  addComment key body := by
    refine keeps_memory_call (fun _ => rfl) fun m a m' h => ?_
    by_cases hdry : s.dryRun = true
    · rw [if_pos hdry] at h
      rw [← (Prod.mk.inj (Except.ok.inj h)).2]
    · rw [if_neg hdry] at h
      obtain ⟨n, hchange, heq⟩ := except_map h
      rw [← (Prod.mk.inj heq).2]
      have hframe : repository n = repository m := change_frame hchange
      exact hframe
  editComment key id body := by
    refine keeps_memory_call (fun _ => rfl) fun m a m' h => ?_
    by_cases hdry : s.dryRun = true
    · rw [if_pos hdry] at h
      rw [← (Prod.mk.inj (Except.ok.inj h)).2]
    · rw [if_neg hdry] at h
      obtain ⟨j, -, h⟩ := except_bind h
      obtain ⟨comments, -, h⟩ := except_bind h
      obtain ⟨n, hchange, h⟩ := except_bind h
      rw [← (Prod.mk.inj (Except.ok.inj h)).2]
      exact change_frame hchange

/-- A dry run leaves the project alone. -/
lemma project_confined (s : Setting) (hdry : s.dryRun = true) :
    Confined Memory.project s.pass where
  listIssues _ _ := keeps_call_bind (fun _ => rfl) fun _ => keeps_query fun _ => rfl
  listComments _ _ _ := keeps_call_bind (fun _ => rfl) fun _ => keeps_query fun _ => rfl
  user _ := keeps_query fun _ => rfl
  issues _ := keeps_query fun _ => rfl
  issue _ := keeps_query fun _ => rfl
  create fields := by
    refine keeps_memory_call (fun _ => rfl) fun m a m' h => ?_
    rw [if_pos hdry] at h
    rw [← (Prod.mk.inj (Except.ok.inj h)).2]
  update key fields := by
    refine keeps_memory_call (fun _ => rfl) fun m a m' h => ?_
    rw [if_pos hdry] at h
    rw [← (Prod.mk.inj (Except.ok.inj h)).2]
  addComment key body := by
    refine keeps_memory_call (fun _ => rfl) fun m a m' h => ?_
    rw [if_pos hdry] at h
    rw [← (Prod.mk.inj (Except.ok.inj h)).2]
  editComment key id body := by
    refine keeps_memory_call (fun _ => rfl) fun m a m' h => ?_
    rw [if_pos hdry] at h
    rw [← (Prod.mk.inj (Except.ok.inj h)).2]

end IssueBridge.Proofs
