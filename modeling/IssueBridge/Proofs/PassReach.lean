import IssueBridge.Proofs.CommentCarriers
import IssueBridge.Proofs.HeaderGrammar
import IssueBridge.Proofs.PassCourse
import IssueBridge.Proofs.Surroundings

/-!
# What a pass may touch

A pass changes the four fields that every write carries, on issues that stand for a listed GitHub
issue, and the texts of comments that carry the number of a listed GitHub comment. It adds comments
behind the others and issues behind the others, and leaves everything else as it is. GitHub may list
anything, one issue or one comment twice included.
-/

namespace IssueBridge.Proofs

open CommentPlan (ofComments counterpart)
open IssuePlan (githubId?)
open Jira (TrackedField)

/-- The fields that every write carries. -/
def rewritable : List TrackedField :=
  [.githubStatus, .githubReporter, .githubLabels, .lastSync]

/-- A comment is the first on its issue to carry the number of a comment that GitHub lists for the
issue that its own issue stands for. -/
def Answering (ids : Jira.FieldNumbers) (m : Memory) (j : Jira.Issue) (t : Jira.Comment) : Prop :=
  ∃ g ∈ m.issues, githubId? ids j = some g.id ∧ ∃ c ∈ listedComments m g,
    j.comments.find? (carries c.id) = some t

/-- A comment stays and carries the number that it did. Only one that answers to a GitHub comment
may have a new text. -/
structure CommentKept (ids : Jira.FieldNumbers) (m : Memory) (j : Jira.Issue)
    (t t' : Jira.Comment) : Prop where
  id : t'.id = t.id
  number : Header.id? t'.body = Header.id? t.body
  body : t'.body ≠ t.body → Answering ids m j t

/-- All that no pass may touch is the same on an issue as before. -/
structure Spared (ids : Jira.FieldNumbers) (m : Memory) (j j' : Jira.Issue) : Prop where
  unmirrored : (∀ g ∈ m.issues, githubId? ids j ≠ some g.id) → j' = j
  id : j'.id = j.id
  key : j'.key = j.key
  custom : ∀ k, k ∉ rewritable.map ids.key → j'.custom.get? k = j.custom.get? k
  comments : ∃ held added, j'.comments = held ++ added ∧
    List.Forall₂ (CommentKept ids m j) j.comments held

variable {s : Setting} {ids : Jira.FieldNumbers} {m n n' : Memory} {g : GitHub.Issue}
  {i i' j : Jira.Issue} {t t' x : Jira.Comment} {held held' added front before : List Jira.Comment}
  {w v : World Memory} {tasks : List IssueTask} {ws : List CommentWrite}
  {users : Dictionary GitHub.User} {number : Int64}

lemma commentKept_refl (ids : Jira.FieldNumbers) (m : Memory) (j : Jira.Issue) (t : Jira.Comment) :
    CommentKept ids m j t t :=
  ⟨rfl, rfl, fun hne => absurd rfl hne⟩

lemma spared_refl (ids : Jira.FieldNumbers) (m : Memory) (j : Jira.Issue) : Spared ids m j j :=
  ⟨fun _ => rfl, rfl, rfl, fun _ _ => rfl, j.comments, [], (List.append_nil _).symm,
    List.forall₂_same.mpr fun t _ => commentKept_refl ids m j t⟩

/-! ## Fields -/

lemma fst_mem_rewritable (g : GitHub.Issue) (now : Instant) {f : TrackedField}
    {value : Jira.CustomValue} (h : (f, value) ∈ trackedFields g now) : f ∈ rewritable := by
  have hfields : (trackedFields g now).map Prod.fst = rewritable.reverse := rfl
  have hmem := List.mem_map_of_mem (f := Prod.fst) h
  rw [hfields] at hmem
  exact List.mem_reverse.mp hmem

lemma lookup_trackedFields {k : String} (hk : k ∉ rewritable.map ids.key) (g : GitHub.Issue)
    (now : Instant) : List.lookup k (keyed ids (trackedFields g now)) = none := by
  rw [List.lookup_eq_none_iff]
  intro entry hentry
  obtain ⟨⟨f, value⟩, hf, rfl⟩ := List.mem_map.mp hentry
  have hne : k ≠ ids.key f := by
    rintro rfl
    exact hk (List.mem_map_of_mem (fst_mem_rewritable g now hf))
  simpa using hne

/-- Writing the attributes of an issue that stands for a listed one keeps the rest of it. -/
lemma spared_overwrite (h : Spared ids m j i) (hg : g ∈ m.issues)
    (hid : githubId? ids j = some g.id) (k : Jira.Issue) (issueType : String) (now : Instant) :
    Spared ids m j (i.overwrite (renewedDraft g k ids issueType now)) := by
  refine ⟨fun hnone => absurd hid (hnone g hg), h.id, h.key, fun field hfield => ?_, h.comments⟩
  have hget : (i.overwrite (renewedDraft g k ids issueType now)).custom.get? field = _ :=
    get?_overwrite i g ids issueType now field
  rw [hget, lookup_trackedFields hfield, Option.none_or]
  exact h.custom field hfield

/-- The identity of its GitHub issue, like all fields that are not written, stays on an issue. -/
lemma field_spared (hids : Function.Injective ids.number) (h : Spared ids m j i) {f : TrackedField}
    (hf : f ∉ rewritable) : i.field (ids.key f) = j.field (ids.key f) := by
  unfold Jira.Issue.field
  rw [h.custom (ids.key f) fun hmem => hf ?_]
  obtain ⟨f', hf', hkey⟩ := List.mem_map.mp hmem
  rw [← key_injective hids hkey]
  exact hf'

/-! ## Comments -/

/-- No header has a negative number. -/
lemma nonneg_of_id? {body : String} (h : Header.id? body = .ok (some number)) : 0 ≤ number := by
  obtain ⟨x, -, hdenotes, rfl⟩ := ((id?_readAs body).read _).mp h
  exact nonneg_numberOf hdenotes

lemma carries_congr (h : Header.id? t'.body = Header.id? t.body) :
    carries number t' = carries number t := by
  unfold carries
  rw [h]

lemma find?_of_counterpart (h : counterpart number held = .ok (some t)) :
    held.find? (carries number) = some t := by
  induction held with
  | nil => cases h
  | cons x held ih =>
    rw [counterpart_cons] at h
    cases hx : Header.id? x.body with
    | error e =>
      rw [hx] at h
      cases h
    | ok found =>
      rw [hx] at h
      dsimp only at h
      by_cases hfound : found = some number
      · rw [if_pos hfound] at h
        obtain rfl := Option.some.inj (Except.ok.inj h)
        exact List.find?_cons_of_pos (carries_iff.mpr (by rw [hx, hfound]))
      · rw [if_neg hfound] at h
        rw [List.find?_cons_of_neg, ih h]
        rw [carries_iff, hx]
        exact fun heq => hfound (Except.ok.inj heq)

/-- A comment that is the first to carry a number now was the first one before. -/
lemma find?_before (h : List.Forall₂ (CommentKept ids m j) before front)
    (hbefore : (before.map Jira.Comment.id).Nodup)
    (hfront : ((front ++ added).map Jira.Comment.id).Nodup)
    (hfind : (front ++ added).find? (carries number) = some x) (ht : t ∈ before)
    (htx : t.id = x.id) : before.find? (carries number) = some t := by
  induction h with
  | nil => cases ht
  | @cons a b before front hab hrest ih =>
    rw [List.map_cons, List.nodup_cons] at hbefore
    rw [List.cons_append, List.map_cons, List.nodup_cons] at hfront
    have hcarries : carries number b = carries number a := carries_congr hab.number
    rw [List.cons_append] at hfind
    by_cases hb : carries number b = true
    · rw [List.find?_cons_of_pos hb] at hfind
      obtain rfl := Option.some.inj hfind
      have hta : t = a := by
        rcases List.mem_cons.mp ht with hta | ht
        · exact hta
        · refine absurd (List.mem_map_of_mem (f := Jira.Comment.id) ht) ?_
          rw [htx, hab.id]
          exact hbefore.1
      rw [hta]
      exact List.find?_cons_of_pos (hcarries ▸ hb)
    · rw [List.find?_cons_of_neg hb] at hfind
      have ht : t ∈ before := by
        rcases List.mem_cons.mp ht with rfl | ht
        · have hx := List.mem_of_find?_eq_some hfind
          refine absurd (List.mem_map_of_mem (f := Jira.Comment.id) hx) ?_
          rw [← htx, ← hab.id]
          exact hfront.1
        · exact ht
      rw [List.find?_cons_of_neg (hcarries ▸ hb)]
      exact ih hbefore.2 hfront.2 hfind ht

/-- Every comment to edit was the first on its issue to carry a number of GitHub, if it was
there. -/
def Addressed (ids : Jira.FieldNumbers) (m : Memory) (j : Jira.Issue) (ws : List CommentWrite) :
    Prop :=
  ∀ c x, .edit c x ∈ ws → 0 ≤ c.id ∧ ∀ t ∈ j.comments, t.id = x.id →
    Answering ids m j t ∧ Header.id? t.body = .ok (some c.id)

lemma commentKept_rewritten {id body : String} (h : CommentKept ids m j t t')
    (hid : t.id = id → Answering ids m j t ∧ Header.id? t.body = Header.id? body) :
    CommentKept ids m j t (if t'.id = id then { t' with body } else t') := by
  by_cases ht : t'.id = id
  · rw [if_pos ht]
    obtain ⟨hanswering, hnumber⟩ := hid (h.id ▸ ht)
    exact ⟨h.id, hnumber.symm, fun _ => hanswering⟩
  · rw [if_neg ht]
    exact h

/-- Writes add comments behind the others and keep those. -/
lemma front_posted (haddressed : Addressed ids m j ws) (h : Posted users ws held held')
    (hheld : held = front ++ added) (hfront : List.Forall₂ (CommentKept ids m j) j.comments front) :
    ∃ front' added', held' = front' ++ added' ∧
      List.Forall₂ (CommentKept ids m j) j.comments front' := by
  induction h generalizing front added with
  | nil held => exact ⟨front, added, hheld, hfront⟩
  | @create c u t ws held held' hu hbody hid hrest ih =>
    have hsplit : held ++ [t] = front ++ (added ++ [t]) := by
      rw [hheld, List.append_assoc]
    exact ih (fun d x hx => haddressed d x (List.mem_cons_of_mem _ hx)) hsplit hfront
  | @edit c u x ws held held' hu hrest ih =>
    obtain ⟨hnonneg, hanswering⟩ := haddressed c x List.mem_cons_self
    have hsplit : rewritten x.id (Header.written c u) held =
        rewritten x.id (Header.written c u) front ++ rewritten x.id (Header.written c u) added := by
      rw [hheld]
      exact List.map_append
    refine ih (fun d y hy => haddressed d y (List.mem_cons_of_mem _ hy)) hsplit ?_
    refine List.forall₂_map_right_iff.mpr (forall₂_imp_of_mem (fun t ht t' _ hkept => ?_) hfront)
    refine commentKept_rewritten hkept fun htx => ?_
    rw [id?_written u hnonneg]
    exact hanswering t ht htx

lemma addressed_writes {p : CommentPlan} (hg : g ∈ m.issues) (hid : githubId? ids j = some g.id)
    (hj : (j.comments.map Jira.Comment.id).Nodup)
    (hfront : List.Forall₂ (CommentKept ids m j) j.comments front)
    (hids : ((front ++ added).map Jira.Comment.id).Nodup)
    (hp : ofComments (listedComments m g) (front ++ added) = .ok p) :
    Addressed ids m j p.writes := by
  intro c x hx
  obtain ⟨hc, hedit⟩ := edit_mem_writes hp hx
  have hcounterpart := counterpart_of_edit hedit
  refine ⟨nonneg_of_id? (counterpart_some hcounterpart).2, fun t ht htx => ?_⟩
  have hfind := find?_before hfront hj hids (find?_of_counterpart hcounterpart) ht htx
  exact ⟨⟨g, hg, hid, c, hc, hfind⟩, carries_iff.mp (List.find?_some hfind)⟩

/-- Carrying out a plan for the comments of an issue, or the front of it, keeps what was there. -/
lemma spared_partlyPosted (h : Spared ids m j i) (hg : g ∈ m.issues)
    (hid : githubId? ids j = some g.id) (hj : (j.comments.map Jira.Comment.id).Nodup)
    (hi : (i.comments.map Jira.Comment.id).Nodup) (hheld : PartlyPosted m g i.comments held) :
    Spared ids m j { i with comments := held } := by
  refine ⟨fun hnone => absurd hid (hnone g hg), h.id, h.key, h.custom, ?_⟩
  obtain ⟨front, added, hcomments, hfront⟩ := h.comments
  rw [hcomments] at hheld hi
  rcases hheld with rfl | ⟨-, p, done, rest, hp, hw, hposted⟩
  · exact ⟨front, added, rfl, hfront⟩
  · have haddressed := addressed_writes hg hid hj hfront hi hp
    rw [hw] at haddressed
    exact front_posted (fun c x hx => haddressed c x (List.mem_append_left rest hx)) hposted rfl
      hfront

/-! ## One issue after another -/

/-- What a pass has made of a memory so far. -/
structure Within (ids : Jira.FieldNumbers) (m n : Memory) : Prop where
  repository : repository n = repository m
  orderly : Orderly n.project
  project : ∃ become new, n.project = m.project.map become ++ new ∧
    ∀ j ∈ m.project, Spared ids m j (become j)

lemma within_onlyRead (horderly : Orderly m.project) (h : OnlyRead m n) : Within ids m n := by
  have hproject := project_onlyRead h
  refine ⟨repository_onlyRead h, by rw [hproject]; exact horderly, id, [], ?_, fun j _ => ?_⟩
  · rw [hproject, List.map_id, List.append_nil]
  · exact spared_refl ids m j

lemma within_append (h : Within ids m n) (hkey : i.key ∉ n.project.map Jira.Issue.key)
    (hi : (i.comments.map Jira.Comment.id).Nodup) (hrepo : repository n' = repository n)
    (hn : n'.project = n.project ++ [i]) : Within ids m n' := by
  obtain ⟨become, new, hproject, hkept⟩ := h.project
  refine ⟨hrepo.trans h.repository, ?_, become, new ++ [i], ?_, hkept⟩
  · rw [hn]
    exact orderly_append h.orderly hkey hi
  · rw [hn, hproject, List.append_assoc]

lemma within_replaced (h : Within ids m n) (hi : i ∈ n.project) (hkey : i'.key = i.key)
    (hids : (i'.comments.map Jira.Comment.id).Nodup)
    (hstep : ∀ j ∈ m.project, Spared ids m j i → Spared ids m j i')
    (hrepo : repository n' = repository n) (hn : n'.project = replaced i' n.project) :
    Within ids m n' := by
  obtain ⟨become, new, hproject, hkept⟩ := h.project
  refine ⟨hrepo.trans h.repository, ?_, fun j => if (become j).key = i'.key then i' else become j,
    replaced i' new, ?_, fun j hj => ?_⟩
  · rw [hn]
    exact orderly_replaced h.orderly hids
  · rw [hn, hproject]
    unfold replaced
    rw [List.map_append, List.map_map]
    rfl
  · dsimp only
    by_cases hbecome : (become j).key = i'.key
    · rw [if_pos hbecome]
      have hmem : become j ∈ n.project := by
        rw [hproject]
        exact List.mem_append_left _ (List.mem_map_of_mem hj)
      refine hstep j hj ?_
      rw [← eq_of_key_eq h.orderly.keys hmem hi (hbecome.trans hkey)]
      exact hkept j hj
    · rw [if_neg hbecome]
      exact hkept j hj

/-- What an issue has become so far. -/
lemma exists_spared (h : Within ids m n) (hj : j ∈ m.project) :
    ∃ i ∈ n.project, Spared ids m j i := by
  obtain ⟨become, new, hproject, hkept⟩ := h.project
  refine ⟨become j, ?_, hkept j hj⟩
  rw [hproject]
  exact List.mem_append_left _ (List.mem_map_of_mem hj)

lemma eq_of_spared (hkeys : (m.project.map Jira.Issue.key).Nodup) {j' : Jira.Issue}
    (hj : j ∈ m.project) (hj' : j' ∈ m.project) (h : Spared ids m j i) (h' : Spared ids m j' i) :
    j = j' :=
  eq_of_key_eq hkeys hj hj' (h.key.symm.trans h'.key)

lemma repository_after_work {α : Type} {y : Action Memory α} {a : α} (hkeeps : Keeps repository y)
    (h : y w = (a, v)) : repository v.state = repository w.state := by
  have hrun := hkeeps w
  rw [h] at hrun
  exact hrun

/-- Work on an issue that stands for a listed one, whatever earlier tasks made of it. -/
lemma workOn_update_within {o : IssueOutcome} (hwrite : s.dryRun = false) (hfresh : Fresh s.rules)
    (horderly : Orderly m.project) (hg : g ∈ m.issues) (hj : j ∈ m.project)
    (hid : githubId? s.ids j = some g.id) (h : Within s.ids m w.state)
    (hrun : s.pass.workOn (.update g j) w = (o, v)) : Within s.ids m v.state := by
  have hafter := repository_after_work (workOn_keeps (repository_confined s) (.update g j)) hrun
  obtain ⟨i, hi, hkept⟩ := exists_spared h hj
  have hcommentIds := h.orderly.comments i hi
  unfold Pass.workOn at hrun
  obtain ⟨r, w₁, hone, hrest⟩ := action_bind hrun
  have hrepo₁ := repository_after (writeIssue_keeps (repository_confined s) (.update g j)) hone
  rcases writeIssue_update_course hwrite h.orderly hi hkept.key hone with
    ⟨change, i', rfl, hi', hstate⟩ | ⟨e, rfl, hstate, -⟩
  · -- the attributes first, then the comments
    have hkept' : Spared s.ids m j i' := by
      rcases hi' with ⟨-, rfl⟩ | ⟨-, now, rfl⟩
      · exact hkept
      · exact spared_overwrite hkept hg hid j s.issueType now
    have hsame : i'.comments = i.comments := by
      rcases hi' with ⟨-, rfl⟩ | ⟨-, now, rfl⟩
      · rfl
      · rfl
    have hkey : i'.key = i.key := hkept'.key.trans hkept.key.symm
    have h₁ : Within s.ids m w₁.state := by
      refine within_replaced h hi hkey (by rw [hsame]; exact hcommentIds) ?_ hrepo₁ hstate
      intro j' hj' hother
      rw [eq_of_spared horderly.keys hj' hj hother hkept]
      exact hkept'
    have hmem : i' ∈ w₁.state.project := by
      rw [hstate]
      exact mem_replaced_self hi hkey.symm
    obtain ⟨held, hpartly, hstate', -⟩ := afterWrite_course hwrite hfresh h₁.repository
      h₁.orderly hmem hkept'.key hrest
    have hheld := nodup_partlyPosted hpartly (h₁.orderly.comments i' hmem)
    have hkept'' : Spared s.ids m j { i' with comments := held } :=
      spared_partlyPosted hkept' hg hid (horderly.comments j hj) (h₁.orderly.comments i' hmem)
        hpartly
    have hkey' : ({ i' with comments := held } : Jira.Issue).key = i'.key := rfl
    refine within_replaced h₁ hmem hkey' hheld ?_ (hafter.trans hrepo₁.symm) hstate'
    intro j' hj' hother
    rw [eq_of_spared horderly.keys hj' hj hother hkept']
    exact hkept''
  · obtain ⟨rfl, rfl⟩ := action_pure hrest
    obtain ⟨become, new, hproject, hall⟩ := h.project
    exact ⟨hrepo₁.trans h.repository, by rw [hstate]; exact h.orderly, become, new,
      by rw [hstate, hproject], hall⟩

lemma workOn_create_within {o : IssueOutcome} (hids : Function.Injective s.ids.number)
    (hwrite : s.dryRun = false) (hfresh : Fresh s.rules) (h : Within s.ids m w.state)
    (hrun : s.pass.workOn (.create g) w = (o, v)) : Within s.ids m v.state := by
  have hafter := repository_after_work (workOn_keeps (repository_confined s) (.create g)) hrun
  rcases workOn_create_course hids hwrite hfresh h.repository h.orderly hrun with
    ⟨key, i, hkey, hadvanced, hstate, -⟩ | ⟨-, hstate, -⟩
  · refine within_append h ?_ (nodup_advanced hadvanced List.nodup_nil) hafter hstate
    rw [key_advanced hadvanced]
    exact hkey
  · obtain ⟨become, new, hproject, hall⟩ := h.project
    exact ⟨hafter.trans h.repository, by rw [hstate]; exact h.orderly, become, new,
      by rw [hstate, hproject], hall⟩

lemma workOnAll_within {report report' : Report} (hids : Function.Injective s.ids.number)
    (hwrite : s.dryRun = false) (hfresh : Fresh s.rules) (horderly : Orderly m.project)
    (htasks : ∀ g j, .update g j ∈ tasks →
      g ∈ m.issues ∧ j ∈ m.project ∧ githubId? s.ids j = some g.id)
    (h : Within s.ids m w.state) (hrun : s.pass.workOnAll report tasks w = (report', v)) :
    Within s.ids m v.state := by
  induction tasks generalizing report w with
  | nil =>
    obtain ⟨-, rfl⟩ := action_pure hrun
    exact h
  | cons a rest ih =>
    obtain ⟨o, w₁, w₂, hone, hstate, hall⟩ := workOnAll_cons hrun
    refine ih (fun g j hj => htasks g j (List.mem_cons_of_mem a hj)) ?_ hall
    rw [hstate]
    cases a with
    | update g j =>
      obtain ⟨hg, hj, hid⟩ := htasks g j List.mem_cons_self
      exact workOn_update_within hwrite hfresh horderly hg hj hid h hone
    | create g => exact workOn_create_within hids hwrite hfresh h hone

/-- Whatever GitHub lists and whichever calls fail, a pass keeps all that it has no part in: issues
that stand for no listed one, the identity of the others and what people put there, and every
comment in its place, with its text unless it answers to a listed comment. -/
theorem run_keeps_others {r : Except Failure Report} (hids : Function.Injective s.ids.number)
    (hfresh : Fresh s.rules) (horderly : Orderly w.state.project)
    (h : s.pass.run.run w = (r, v)) :
    ∃ become new, v.state.project = w.state.project.map become ++ new ∧
      ∀ j ∈ w.state.project, Spared s.ids w.state j (become j) ∧
        (become j).field (s.ids.key .githubId) = j.field (s.ids.key .githubId) ∧
        (become j).field (s.ids.key .githubNumber) = j.field (s.ids.key .githubNumber) := by
  have hproject : ∃ become new, v.state.project = w.state.project.map become ++ new ∧
      ∀ j ∈ w.state.project, Spared s.ids w.state j (become j) := by
    by_cases hdry : s.dryRun = true
    · have hkeeps := run_keeps (project_confined s hdry) w
      rw [h] at hkeeps
      refine ⟨id, [], ?_, fun j _ => spared_refl _ _ j⟩
      rw [List.map_id, List.append_nil]
      exact hkeeps
    · rcases run_course h with ⟨e, -, hread, -⟩ | ⟨w₁, w₂, report, hread, hwork, -, hstate⟩
      · exact (within_onlyRead horderly hread).project
      · have htasks : ∀ g j, .update g j ∈ s.tasks w.state →
            g ∈ w.state.issues ∧ j ∈ w.state.project ∧ githubId? s.ids j = some g.id :=
          fun g j hj => mem_tasks_update hj
        rw [hstate]
        exact (workOnAll_within hids (Bool.eq_false_iff.mpr hdry) hfresh horderly htasks
          (within_onlyRead horderly hread) hwork).project
  obtain ⟨become, new, hv, hkept⟩ := hproject
  refine ⟨become, new, hv, fun j hj => ⟨hkept j hj, ?_, ?_⟩⟩
  · exact field_spared hids (hkept j hj) (by decide)
  · exact field_spared hids (hkept j hj) (by decide)

/-- A mirror with a note in front of its two comments of one number, and an issue that stands for
one that is not listed. -/
def annotated : List Jira.Issue :=
  [{ key := "A-1"
     custom := [("customfield_1", .text "7"), ("customfield_9", .text "mine")]
     comments := [⟨"n", "note"⟩,
      ⟨"f", "Comment [(ID 3)|url] from GitHub user [bob|url] at noon:\n\nold"⟩,
      ⟨"s", "Comment [(ID 3)|url] from GitHub user [bob|url] at noon:\n\nolder"⟩] },
    { key := "B-1", custom := [("customfield_1", .text "5")] }]

/-- Of the three comments the pass edits one, while the other issue cannot be created. -/
theorem run_keeps_others_annotated :
    ∃ report v, (sampleSetting fun _ name => name == "create other").pass.run.run
        ⟨{ sampleMemory with project := annotated }, []⟩ = (.ok report, v) ∧
      report = { updated := 1, failed := 1, failedIssues := [2], commentsUpdated := 1 } ∧
      ∃ become new, v.state.project = annotated.map become ++ new ∧
        ∀ j ∈ annotated, Spared sampleIds { sampleMemory with project := annotated } j (become j) ∧
          (become j).field (sampleIds.key .githubId) = j.field (sampleIds.key .githubId) ∧
          (become j).field (sampleIds.key .githubNumber) =
            j.field (sampleIds.key .githubNumber) := by
  let s := sampleSetting fun _ name => name == "create other"
  let w : World Memory := ⟨{ sampleMemory with project := annotated }, []⟩
  have hreport : (s.pass.run.run w).1 =
      .ok { updated := 1, failed := 1, failedIssues := [2], commentsUpdated := 1 } := by
    decide +kernel
  have horderly : Orderly annotated := ⟨by decide, by decide⟩
  generalize hrun : s.pass.run.run w = result at hreport
  obtain ⟨r, v⟩ := result
  dsimp only at hreport
  subst hreport
  exact ⟨_, v, rfl, rfl, run_keeps_others (s := s) (w := w) sampleIds_injective
    (fresh_unusedNames _) horderly hrun⟩

end IssueBridge.Proofs
