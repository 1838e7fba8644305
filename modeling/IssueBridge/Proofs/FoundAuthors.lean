import IssueBridge.Proofs.LookupFailures

/-!
# Comments whose authors are found

Where only lookups fail, work on the comments of an issue writes them up to the first one whose
author is not found. What it comes to depends on nothing but the comments on both sides and the
users that are found, so it is the same in a dry run.
-/

namespace IssueBridge.Proofs

open CommentPlan

variable {s : Setting} {m : Memory} {g : GitHub.Issue} {j : Jira.Issue} {w v : World Memory}
  {known : Dictionary GitHub.User} {x : CommentWrite} {ws : List CommentWrite}
  {rules : Memory.Rules} {ids : Jira.FieldNumbers} {dryRun : Bool}

/-! ## Writing comments -/

/-- In a run that writes, an issue is in an orderly project. -/
def Ready (dryRun : Bool) (j : Jira.Issue) (project : List Jira.Issue) : Prop :=
  dryRun = false → Orderly project ∧ j ∈ project

lemma replaced_of_ready {project : List Jira.Issue} (hready : Ready dryRun j project)
    (hwrite : dryRun = false) : replaced j project = project := by
  obtain ⟨horderly, hj⟩ := hready hwrite
  exact replaced_self horderly.keys hj

lemma fresh_calm (hfresh : Fresh rules) : Fresh (calm rules) :=
  ⟨hfresh.key, hfresh.comment⟩

lemma addComment_exact {body : String} (hfresh : Fresh rules)
    (hready : Ready dryRun j w.state.project)
    {r : Except Failure Jira.Comment}
    (hrun : ((Memory.target (calm rules) ids dryRun).addComment j.key body).run w = (r, v)) :
    ∃ t, r = .ok t ∧ (dryRun = false → t.body = body ∧ t.id ∉ j.comments.map Jira.Comment.id ∧
      v.state.project = replaced { j with comments := j.comments ++ [t] } w.state.project) := by
  cases dryRun with
  | true =>
    have hidle : ((Memory.target (calm rules) ids true).addComment j.key body).run w =
        (.ok ⟨rules.newCommentId (noted ("comment " ++ j.key) w.state) j.key, body⟩,
          ⟨noted ("comment " ++ j.key) w.state, w.log⟩) :=
      run_call_idle (not_mayFail_calm rules)
        (fun m => Jira.Comment.mk (rules.newCommentId m j.key) body) (fun _ => rfl) w
    exact ⟨_, (Prod.mk.inj (hrun.symm.trans hidle)).1, fun hwet => by cases hwet⟩
  | false =>
    obtain ⟨horderly, hj⟩ := hready rfl
    rcases addComment_course (fresh_calm hfresh) horderly.keys hrun with
      ⟨t, hr, hbody, i, hi, hkey, hid, hstate⟩ | ⟨e, -, -, hfail | habsent⟩
    · obtain rfl := eq_of_key_eq horderly.keys hi hj hkey
      exact ⟨t, hr, fun _ => ⟨hbody, hid, hstate⟩⟩
    · exact absurd hfail (not_mayFail_calm rules)
    · exact absurd rfl (habsent j hj)

lemma editComment_exact {id body : String} (hready : Ready dryRun j w.state.project)
    (hid : id ∈ j.comments.map Jira.Comment.id) {r : Except Failure Jira.Comment}
    (hrun : ((Memory.target (calm rules) ids dryRun).editComment j.key id body).run w = (r, v)) :
    ∃ t, r = .ok t ∧ (dryRun = false → v.state.project =
      replaced { j with comments := rewritten id body j.comments } w.state.project) := by
  cases dryRun with
  | true =>
    have hidle : ((Memory.target (calm rules) ids true).editComment j.key id body).run w =
        (.ok ⟨id, body⟩, ⟨noted ("edit " ++ j.key ++ "/" ++ id) w.state, w.log⟩) :=
      run_call_idle (not_mayFail_calm rules) (fun _ => Jira.Comment.mk id body) (fun _ => rfl) w
    exact ⟨_, (Prod.mk.inj (hrun.symm.trans hidle)).1, fun hwet => by cases hwet⟩
  | false =>
    obtain ⟨horderly, hj⟩ := hready rfl
    rcases editComment_course horderly hrun with
      ⟨t, hr, i, hi, hkey, hstate⟩ | ⟨e, -, -, hfail | habsent⟩
    · obtain rfl := eq_of_key_eq horderly.keys hi hj hkey
      exact ⟨t, hr, fun _ => hstate⟩
    · exact absurd hfail (not_mayFail_calm rules)
    · obtain ⟨t, ht, htid⟩ := List.mem_map.mp hid
      exact absurd htid (habsent j hj rfl t ht)

/-- The comment that a write edits is there. -/
def Held (held : List Jira.Comment) (x : CommentWrite) : Prop :=
  ∀ c t, x = .edit c t → t.id ∈ held.map Jira.Comment.id

/-- A comment is written exactly if its author is found. -/
lemma writeComment_exact (h : OnlyLookupsFail s.rules) (hfresh : Fresh s.rules)
    (hrepo : repository w.state = repository m) (hwork : atWork? w.state = some (listingName g))
    (hknown : KnownFound s m g known) (hready : Ready s.dryRun j w.state.project)
    (hheld : Held j.comments x) {r : Except Failure (Dictionary GitHub.User)}
    (hrun : (s.pass.writeComment j.key known x).run w = (r, v)) :
    (found s m g x.source.author = true ∧ ∃ known', r = .ok known' ∧ KnownFound s m g known' ∧
        (s.dryRun = false → ∃ held, Posted m.users [x] j.comments held ∧
          v.state.project = replaced { j with comments := held } w.state.project)) ∨
      (found s m g x.source.author = false ∧ (∃ e, r = .error e) ∧
        v.state.project = w.state.project) := by
  have htarget : s.pass.target = Memory.target (calm s.rules) s.ids s.dryRun := target_calm h _ _
  unfold Pass.writeComment at hrun
  rw [htarget] at hrun
  have hkept : Keeps Memory.project (s.pass.lookUp known x.source.author).run :=
    lookUp_keeps_part s known _ fun _ => rfl
  have hproject := hkept w
  rcases call_bind hrun with ⟨⟨u, known'⟩, w₁, hlook, hrest⟩ | ⟨e, hlook, hr⟩
  · rw [hlook] at hproject
    rcases lookUp_exact h hrepo hwork hknown hlook with
      ⟨hfound, u', k', hu', hget, hknown'⟩ | ⟨-, e, he⟩
    · obtain ⟨rfl, rfl⟩ := Prod.mk.inj (Except.ok.inj hu')
      have hready₁ : Ready s.dryRun j w₁.state.project := by
        rw [hproject]
        exact hready
      rw [← hproject]
      cases x with
      | create c =>
        rcases within_bind hrest with ⟨t, w₂, hadd, hpure⟩ | ⟨e, e', hadd, hr⟩
        · obtain ⟨hr, rfl⟩ := call_pure hpure
          obtain ⟨t', -, hwet⟩ := addComment_exact hfresh hready₁ hadd
          refine Or.inl ⟨hfound, known', hr, hknown', fun hwrite => ?_⟩
          obtain ⟨hbody, hid, hstate⟩ := hwet hwrite
          exact ⟨_, Posted.create hget hbody hid (Posted.nil _), hstate⟩
        · obtain ⟨t, ht, -⟩ := addComment_exact hfresh hready₁ hadd
          cases ht
      | edit c t =>
        have hid := hheld c t rfl
        rcases within_bind hrest with ⟨t', w₂, hedit, hpure⟩ | ⟨e, e', hedit, hr⟩
        · obtain ⟨hr, rfl⟩ := call_pure hpure
          obtain ⟨t', -, hwet⟩ := editComment_exact hready₁ hid hedit
          exact Or.inl ⟨hfound, known', hr, hknown', fun hwrite =>
            ⟨_, Posted.edit hget (Posted.nil _), hwet hwrite⟩⟩
        · obtain ⟨t, ht, -⟩ := editComment_exact hready₁ hid hedit
          cases ht
    · cases he
  · rw [hlook] at hproject
    rcases lookUp_exact h hrepo hwork hknown hlook with ⟨-, u, k, hu, -⟩ | ⟨hfound, -⟩
    · cases hu
    · exact Or.inr ⟨hfound, ⟨e, hr⟩, hproject⟩

/-! ## What work on comments comes to -/

/-- The outcome without the words of its failure. -/
def wordless (o : CommentOutcome) : CommentOutcome :=
  { o with failure := o.failure.map fun _ => default }

/-- The outcome of writes up to the first one whose author is not found. -/
def outcomeOf (known : String → Bool) : List CommentWrite → CommentOutcome
  | [] => {}
  | x :: ws =>
    if known x.source.author then (outcomeOf known ws).count x else { failure := some default }

/-- The writes up to that one. -/
def writtenOf (known : String → Bool) (ws : List CommentWrite) : List CommentWrite :=
  ws.takeWhile fun x => known x.source.author

/-- The writes that a GitHub issue asks for beside the comments of its Jira issue; none if the
comments cannot be matched. -/
def asked? (m : Memory) (g : GitHub.Issue) (held : List Jira.Comment) :
    Option (List CommentWrite) :=
  if g.comments = 0 then some []
  else
    match ofComments (listedComments m g) held with
    | .ok p => some p.writes
    | .error _ => none

/-- What work on the comments of an issue comes to. -/
def commentsOutcome (s : Setting) (m : Memory) (g : GitHub.Issue) (held : List Jira.Comment) :
    CommentOutcome :=
  match asked? m g held with
  | some ws => outcomeOf (found s m g) ws
  | none => { failure := some default }

/-- The writes that this work carries out. -/
def commentsWritten (s : Setting) (m : Memory) (g : GitHub.Issue) (held : List Jira.Comment) :
    List CommentWrite :=
  writtenOf (found s m g) ((asked? m g held).getD [])

lemma wordless_count (o : CommentOutcome) (x : CommentWrite) :
    wordless (o.count x) = (wordless o).count x := by
  cases x <;> rfl

/-- After a write, the issue is there with its new comments, or the run is dry. -/
lemma exists_written (hready : Ready dryRun j w.state.project) (hheld : ∀ y ∈ ws, Held j.comments y)
    (hwet : dryRun = false → ∃ held, Posted m.users [x] j.comments held ∧
      v.state.project = replaced { j with comments := held } w.state.project) :
    ∃ i : Jira.Issue, i.key = j.key ∧ Ready dryRun i v.state.project ∧
      (∀ y ∈ ws, Held i.comments y) ∧ (dryRun = false →
        Posted m.users [x] j.comments i.comments ∧ i = { j with comments := i.comments } ∧
          v.state.project = replaced i w.state.project) := by
  cases dryRun with
  | true => exact ⟨j, rfl, nofun, hheld, nofun⟩
  | false =>
    obtain ⟨held, hposted, hstate⟩ := hwet rfl
    obtain ⟨horderly, hj⟩ := hready rfl
    refine ⟨{ j with comments := held }, rfl, fun _ => ?_, fun y hy c t hyt => ?_,
      fun _ => ⟨hposted, rfl, hstate⟩⟩
    · rw [hstate]
      exact ⟨orderly_replaced horderly (nodup_posted hposted (horderly.comments j hj)),
        mem_replaced_self hj rfl⟩
    · exact mem_ids_posted hposted (hheld y hy c t hyt)

/-- Comments are written up to the first one whose author is not found. -/
lemma writeComments_exact (h : OnlyLookupsFail s.rules) (hfresh : Fresh s.rules)
    (hrepo : repository w.state = repository m) (hwork : atWork? w.state = some (listingName g))
    (hknown : KnownFound s m g known) (hready : Ready s.dryRun j w.state.project)
    (hheld : ∀ x ∈ ws, Held j.comments x) {o : CommentOutcome}
    (hrun : s.pass.writeComments j.key known ws w = (o, v)) :
    wordless o = outcomeOf (found s m g) ws ∧
      (s.dryRun = false → ∃ held, Posted m.users (writtenOf (found s m g) ws) j.comments held ∧
        v.state.project = replaced { j with comments := held } w.state.project) := by
  induction ws generalizing known w o j with
  | nil =>
    obtain ⟨rfl, rfl⟩ := action_pure hrun
    exact ⟨rfl, fun hwrite => ⟨j.comments, Posted.nil _, (replaced_of_ready hready hwrite).symm⟩⟩
  | cons x ws ih =>
    rw [Pass.writeComments] at hrun
    obtain ⟨r, w₁, hone, hrest⟩ := action_bind hrun
    have hrepo₁ : repository w₁.state = repository w.state :=
      repository_after (writeComment_keeps (repository_confined s) j.key known x) hone
    have hwork₁ : atWork? w₁.state = atWork? w.state := by
      have hkept := writeComment_atWork? s j.key known x w
      change atWork? ((s.pass.writeComment j.key known x).run w).2.state = _ at hkept
      rwa [hone] at hkept
    rcases writeComment_exact h hfresh hrepo hwork hknown hready (hheld x List.mem_cons_self) hone
      with ⟨hfound, known', rfl, hknown', hwet⟩ | ⟨hfound, ⟨e, rfl⟩, hproject⟩
    · obtain ⟨o', w₂, hws, hpure⟩ := action_bind hrest
      obtain ⟨rfl, rfl⟩ := action_pure hpure
      obtain ⟨i, hkey, hready₁, hheld₁, hi⟩ := exists_written hready
        (fun y hy => hheld y (List.mem_cons_of_mem x hy)) hwet
      rw [← hkey] at hws
      obtain ⟨houtcome, hrestwet⟩ :=
        ih (hrepo₁.trans hrepo) (hwork₁.trans hwork) hknown' hready₁ hheld₁ hws
      refine ⟨?_, fun hwrite => ?_⟩
      · rw [wordless_count, houtcome]
        exact (if_pos hfound).symm
      · obtain ⟨hposted, hsame, hstate⟩ := hi hwrite
        obtain ⟨held, hposted', hstate'⟩ := hrestwet hwrite
        refine ⟨held, ?_, ?_⟩
        · have hcons : writtenOf (found s m g) (x :: ws) =
              [x] ++ writtenOf (found s m g) ws := List.takeWhile_cons_of_pos hfound
          rw [hcons]
          exact posted_append hposted hposted'
        · rw [hstate', hstate, hsame]
          exact replaced_replaced _ rfl
    · obtain ⟨rfl, rfl⟩ := action_pure hrest
      have hstop : ¬found s m g x.source.author = true := Bool.eq_false_iff.mp hfound
      refine ⟨?_, fun hwrite => ⟨j.comments, ?_, ?_⟩⟩
      · exact (if_neg hstop).symm
      · have hnone : writtenOf (found s m g) (x :: ws) = [] := List.takeWhile_cons_of_neg hstop
        rw [hnone]
        exact Posted.nil _
      · rw [hproject]
        exact (replaced_of_ready hready hwrite).symm

lemma planComments_exact (h : OnlyLookupsFail s.rules) (hrepo : repository w.state = repository m)
    {r : Except Failure CommentPlan} (hrun : (s.pass.planComments g j).run w = (r, v)) :
    OnlyRead w.state v.state ∧
      ((∃ p, r = .ok p ∧ ofComments (listedComments m g) j.comments = .ok p) ∨
        (∃ e, r = .error e) ∧ ∃ e, ofComments (listedComments m g) j.comments = .error e) := by
  rw [planComments_calm h] at hrun
  obtain ⟨hread, hp | ⟨e, hr, hfail | herror⟩⟩ := planComments_course hrepo hrun
  · exact ⟨hread, Or.inl hp⟩
  · exact absurd hfail (not_mayFail_calm s.rules)
  · exact ⟨hread, Or.inr ⟨⟨e, hr⟩, herror⟩⟩

lemma held_writes {p : CommentPlan} {source : List GitHub.Comment}
    (hp : ofComments source j.comments = .ok p) : ∀ x ∈ p.writes, Held j.comments x := by
  rintro x hx c t rfl
  exact List.mem_map_of_mem (mem_held_of_edit hp hx)

/-- What work on the comments of an issue comes to, and what it leaves. -/
theorem workOnComments_exact (h : OnlyLookupsFail s.rules) (hfresh : Fresh s.rules)
    (hrepo : repository w.state = repository m) (hready : Ready s.dryRun j w.state.project)
    {o : CommentOutcome} (hrun : s.pass.workOnComments g j w = (o, v)) :
    wordless o = commentsOutcome s m g j.comments ∧
      (s.dryRun = false → ∃ held,
        Posted m.users (commentsWritten s m g j.comments) j.comments held ∧
          v.state.project = replaced { j with comments := held } w.state.project) := by
  unfold commentsOutcome commentsWritten asked?
  unfold Pass.workOnComments at hrun
  by_cases hzero : g.comments = 0
  · rw [if_pos hzero] at hrun
    obtain ⟨rfl, rfl⟩ := action_pure hrun
    rw [if_pos hzero]
    exact ⟨rfl, fun hwrite => ⟨j.comments, Posted.nil _, (replaced_of_ready hready hwrite).symm⟩⟩
  · rw [if_neg hzero] at hrun
    rw [if_neg hzero]
    obtain ⟨r, w₁, hplan, hrest⟩ := action_bind hrun
    obtain ⟨hread, ⟨p, rfl, hp⟩ | ⟨⟨e, rfl⟩, e', hp⟩⟩ := planComments_exact h hrepo hplan
    · rw [hp]
      have hready₁ : Ready s.dryRun j w₁.state.project := by
        rw [project_onlyRead hread]
        exact hready
      rw [← project_onlyRead hread]
      exact writeComments_exact h hfresh ((repository_onlyRead hread).trans hrepo)
        (atWork?_planComments hplan) (knownFound_nil s m g) hready₁ (held_writes hp) hrest
    · obtain ⟨rfl, rfl⟩ := action_pure hrest
      rw [hp, project_onlyRead hread]
      exact ⟨rfl, fun hwrite => ⟨j.comments, Posted.nil _, (replaced_of_ready hready hwrite).symm⟩⟩

end IssueBridge.Proofs
