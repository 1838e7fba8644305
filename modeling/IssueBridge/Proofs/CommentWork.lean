import IssueBridge.Proofs.MemoryCalls
import IssueBridge.Proofs.PostedComments

/-!
# Work on the comments of an issue

The comments of one issue are written one after another up to the first failure, so what is written
is the front of a plan, and all of it if nothing fails.
-/

namespace IssueBridge.Proofs

open CommentPlan

variable {s : Setting} {m : Memory} {g : GitHub.Issue} {j : Jira.Issue} {w v : World Memory}
  {known : Dictionary GitHub.User} {login : String} {x : CommentWrite} {ws : List CommentWrite}

/-- Users that were looked up are as GitHub has them. -/
def Known (m : Memory) (known : Dictionary GitHub.User) : Prop :=
  ∀ login u, known.get? login = some u → m.users.get? login = some u

/-- Some call may fail, the author is unknown, or the comment to edit is not there. -/
def Hindered (s : Setting) (m : Memory) (held : List Jira.Comment) (x : CommentWrite) : Prop :=
  MayFail s.rules ∨ m.users.get? x.source.author = none ∨
    ∃ c t, x = .edit c t ∧ t.id ∉ held.map Jira.Comment.id

lemma known_nil (m : Memory) : Known m [] := by
  intro login u h
  cases h

lemma known_insert (h : Known m known) {u : GitHub.User} (hu : m.users.get? login = some u) :
    Known m (known.insert login u) := by
  intro other u' h'
  by_cases hother : other = login
  · subst hother
    rw [Dictionary.get?_insert_self] at h'
    rw [hu, h']
  · rw [Dictionary.get?_insert_of_ne known u hother] at h'
    exact h other u' h'

lemma users_of_repository {m m' : Memory} (h : repository m' = repository m) :
    m'.users = m.users :=
  congrArg (fun r => r.2.2) h

lemma listedComments_of_repository {m m' : Memory} (h : repository m' = repository m)
    (g : GitHub.Issue) : listedComments m' g = listedComments m g := by
  have hcomments : m'.comments = m.comments := congrArg (fun r => r.2.1) h
  unfold listedComments
  rw [hcomments]

lemma issues_of_repository {m m' : Memory} (h : repository m' = repository m) :
    m'.issues = m.issues :=
  congrArg (fun r => r.1) h

lemma target_pass (hwrite : s.dryRun = false) :
    s.pass.target = Memory.target s.rules s.ids false := by
  unfold Setting.pass
  rw [hwrite]

lemma lookUp_course {r : Except Failure (GitHub.User × Dictionary GitHub.User)}
    (hrepo : repository w.state = repository m) (hknown : Known m known)
    (h : (s.pass.lookUp known login).run w = (r, v)) :
    OnlyRead w.state v.state ∧
      ((∃ u known', r = .ok (u, known') ∧ m.users.get? login = some u ∧ Known m known') ∨
        ∃ e, r = .error e ∧ (MayFail s.rules ∨ m.users.get? login = none)) := by
  unfold Pass.lookUp at h
  cases hlogin : known.get? login with
  | some u =>
    rw [hlogin] at h
    obtain ⟨hr, rfl⟩ := call_pure h
    exact ⟨onlyRead_refl _, Or.inl ⟨u, known, hr, hknown login u hlogin, hknown⟩⟩
  | none =>
    rw [hlogin] at h
    rcases within_bind h with ⟨u, w₁, huser, hrest⟩ | ⟨e, e', huser, hr⟩
    · obtain ⟨hr, rfl⟩ := call_pure hrest
      obtain ⟨hread, ⟨u', hu', hget⟩ | ⟨e, he, -⟩⟩ := user_course huser
      · obtain rfl := Except.ok.inj hu'
        rw [users_of_repository hrepo] at hget
        exact ⟨hread, Or.inl ⟨u, _, hr, hget, known_insert hknown hget⟩⟩
      · cases he
    · obtain ⟨hread, ⟨u', hu', -⟩ | ⟨e'', -, hwhy⟩⟩ := user_course huser
      · cases hu'
      · rw [users_of_repository hrepo] at hwhy
        exact ⟨hread, Or.inr ⟨e, hr, hwhy⟩⟩

/-- A comment is written to its issue, or nothing changes. -/
lemma writeComment_course {r : Except Failure (Dictionary GitHub.User)}
    (hwrite : s.dryRun = false) (hfresh : Fresh s.rules)
    (hrepo : repository w.state = repository m) (hknown : Known m known)
    (horderly : Orderly w.state.project) (hj : j ∈ w.state.project)
    (h : (s.pass.writeComment j.key known x).run w = (r, v)) :
    (∃ known' held, r = .ok known' ∧ Known m known' ∧ Posted m.users [x] j.comments held ∧
        v.state.project = replaced { j with comments := held } w.state.project) ∨
      ∃ e, r = .error e ∧ v.state.project = w.state.project ∧ Hindered s m j.comments x := by
  unfold Pass.writeComment at h
  rw [target_pass hwrite] at h
  rcases call_bind h with ⟨⟨u, known'⟩, w₁, hlook, hrest⟩ | ⟨e, hlook, hr⟩
  · obtain ⟨hread, ⟨u', k', hu', hget, hknown'⟩ | ⟨e, he, -⟩⟩ := lookUp_course hrepo hknown hlook
    · obtain ⟨rfl, rfl⟩ := Prod.mk.inj (Except.ok.inj hu')
      rw [← project_onlyRead hread] at horderly hj ⊢
      cases x with
      | create c =>
        rcases within_bind hrest with ⟨t, w₂, hadd, hpure⟩ | ⟨e, e', hadd, hr⟩
        · obtain ⟨hr, rfl⟩ := call_pure hpure
          rcases addComment_course hfresh horderly.keys hadd with
            ⟨t', -, hbody, i, hi, hkey, hid, hstate⟩ | ⟨e, he, -⟩
          · obtain rfl := eq_of_key_eq horderly.keys hi hj hkey
            exact Or.inl ⟨known', _, hr, hknown', Posted.create hget hbody hid (Posted.nil _),
              hstate⟩
          · cases he
        · rcases addComment_course hfresh horderly.keys hadd with
            ⟨t, ht, -⟩ | ⟨e', -, hstate, hfail | habsent⟩
          · cases ht
          · exact Or.inr ⟨e, hr, hstate, Or.inl hfail⟩
          · exact absurd rfl (habsent j hj)
      | edit c t =>
        rcases within_bind hrest with ⟨t', w₂, hedit, hpure⟩ | ⟨e, e', hedit, hr⟩
        · obtain ⟨hr, rfl⟩ := call_pure hpure
          rcases editComment_course horderly hedit with ⟨b, -, i, hi, hkey, hstate⟩ | ⟨e, he, -⟩
          · obtain rfl := eq_of_key_eq horderly.keys hi hj hkey
            exact Or.inl ⟨known', _, hr, hknown', Posted.edit hget (Posted.nil _), hstate⟩
          · cases he
        · rcases editComment_course horderly hedit with
            ⟨b, hb, -⟩ | ⟨e', -, hstate, hfail | habsent⟩
          · cases hb
          · exact Or.inr ⟨e, hr, hstate, Or.inl hfail⟩
          · refine Or.inr ⟨e, hr, hstate, Or.inr (Or.inr ⟨c, t, rfl, fun hmem => ?_⟩)⟩
            obtain ⟨y, hy, hyt⟩ := List.mem_map.mp hmem
            exact habsent j hj rfl y hy hyt
    · cases he
  · obtain ⟨hread, ⟨u', k', hu', -⟩ | ⟨e', -, hfail | hnone⟩⟩ := lookUp_course hrepo hknown hlook
    · cases hu'
    · exact Or.inr ⟨e, hr, project_onlyRead hread, Or.inl hfail⟩
    · exact Or.inr ⟨e, hr, project_onlyRead hread, Or.inr (Or.inl hnone)⟩

lemma hindered_of_posted {held held' : List Jira.Comment} {done : List CommentWrite}
    (hposted : Posted m.users done held held') (h : Hindered s m held' x) :
    Hindered s m held x := by
  rcases h with hfail | hnone | ⟨c, t, hx, ht⟩
  · exact Or.inl hfail
  · exact Or.inr (Or.inl hnone)
  · exact Or.inr (Or.inr ⟨c, t, hx, fun hmem => ht (mem_ids_posted hposted hmem)⟩)

/-- The comments up to the first failure are written to their issue. -/
lemma writeComments_course {o : CommentOutcome} (hwrite : s.dryRun = false)
    (hfresh : Fresh s.rules) (hrepo : repository w.state = repository m) (hknown : Known m known)
    (horderly : Orderly w.state.project) (hj : j ∈ w.state.project)
    (h : s.pass.writeComments j.key known ws w = (o, v)) :
    ∃ done rest held, ws = done ++ rest ∧ Posted m.users done j.comments held ∧
      v.state.project = replaced { j with comments := held } w.state.project ∧
      (o.failure = none → rest = []) ∧
      (o.failure ≠ none → ∃ x ∈ rest, Hindered s m j.comments x) := by
  induction ws generalizing known w o j with
  | nil =>
    obtain ⟨rfl, rfl⟩ := action_pure h
    exact ⟨[], [], j.comments, rfl, Posted.nil _, (replaced_self horderly.keys hj).symm,
      fun _ => rfl, fun hfailure => absurd rfl hfailure⟩
  | cons x ws ih =>
    rw [Pass.writeComments] at h
    obtain ⟨r, w₁, hone, hrest⟩ := action_bind h
    have hrepo₁ : repository w₁.state = repository w.state := by
      have hkeeps := writeComment_keeps (repository_confined s) j.key known x w
      change repository ((s.pass.writeComment j.key known x).run w).2.state = _ at hkeeps
      rw [hone] at hkeeps
      exact hkeeps
    rcases writeComment_course hwrite hfresh hrepo hknown horderly hj hone with
      ⟨known', held, rfl, hknown', hposted, hstate⟩ | ⟨e, rfl, hstate, hwhy⟩
    · obtain ⟨o', w₂, hws, hpure⟩ := action_bind hrest
      obtain ⟨rfl, rfl⟩ := action_pure hpure
      let i := { j with comments := held }
      have hi : i ∈ w₁.state.project := by
        rw [hstate]
        exact mem_replaced_self hj rfl
      have horderly₁ : Orderly w₁.state.project := by
        rw [hstate]
        exact orderly_replaced horderly (nodup_posted hposted (horderly.comments j hj))
      obtain ⟨done, rest, held', hsplit, hposted', hstate', hdone, hfailed⟩ :=
        ih (j := i) (hrepo₁.trans hrepo) hknown' horderly₁ hi hws
      have hfailure : (o'.count x).failure = o'.failure := by
        cases x <;> rfl
      rw [hfailure]
      refine ⟨x :: done, rest, held', by rw [hsplit, List.cons_append],
        posted_append hposted hposted', ?_, hdone, fun hne => ?_⟩
      · rw [hstate', hstate]
        exact replaced_replaced _ rfl
      · obtain ⟨y, hy, hhindered⟩ := hfailed hne
        exact ⟨y, hy, hindered_of_posted hposted hhindered⟩
    · obtain ⟨rfl, rfl⟩ := action_pure hrest
      refine ⟨[], x :: ws, j.comments, rfl, Posted.nil _, ?_, fun hnone => ?_, fun _ => ?_⟩
      · rw [hstate]
        exact (replaced_self horderly.keys hj).symm
      · cases hnone
      · exact ⟨x, List.mem_cons_self, hwhy⟩

lemma planComments_course {r : Except Failure CommentPlan}
    (hrepo : repository w.state = repository m)
    (h : (s.pass.planComments g j).run w = (r, v)) :
    OnlyRead w.state v.state ∧
      ((∃ p, r = .ok p ∧ ofComments (listedComments m g) j.comments = .ok p) ∨
        ∃ e, r = .error e ∧ (MayFail s.rules ∨
          ∃ e', ofComments (listedComments m g) j.comments = .error e')) := by
  unfold Pass.planComments at h
  rcases within_bind h with ⟨comments, w₁, hlist, hplan⟩ | ⟨e, e', hlist, hr⟩
  · obtain ⟨hread, hcomments | ⟨e, he, -⟩⟩ := listComments_course hlist
    · obtain rfl := Except.ok.inj hcomments
      rw [listedComments_of_repository hrepo] at hplan
      cases hof : ofComments (listedComments m g) j.comments with
      | ok p =>
        rw [hof] at hplan
        obtain ⟨rfl, rfl⟩ := Prod.mk.inj hplan
        exact ⟨hread, Or.inl ⟨p, rfl, rfl⟩⟩
      | error e =>
        rw [hof] at hplan
        obtain ⟨rfl, rfl⟩ := Prod.mk.inj hplan
        exact ⟨hread, Or.inr ⟨_, rfl, Or.inr ⟨e, rfl⟩⟩⟩
    · cases he
  · obtain ⟨hread, hcomments | ⟨e'', -, hfail⟩⟩ := listComments_course hlist
    · cases hcomments
    · exact ⟨hread, Or.inr ⟨e, hr, Or.inl hfail⟩⟩

/-- The comments after some of what the plan of a GitHub issue asks for. -/
def PartlyPosted (m : Memory) (g : GitHub.Issue) (held held' : List Jira.Comment) : Prop :=
  held' = held ∨ g.comments ≠ 0 ∧ ∃ p done rest, ofComments (listedComments m g) held = .ok p ∧
    p.writes = done ++ rest ∧ Posted m.users done held held'

/-- The comments after all that the plan of a GitHub issue asks for, if it reports any comments. -/
def FullyPosted (m : Memory) (g : GitHub.Issue) (held held' : List Jira.Comment) : Prop :=
  (g.comments = 0 ∧ held' = held) ∨ g.comments ≠ 0 ∧ ∃ p,
    ofComments (listedComments m g) held = .ok p ∧ Posted m.users p.writes held held'

/-- Something stands in the way of the comments of an issue. -/
def CommentsHindered (s : Setting) (m : Memory) (g : GitHub.Issue) (held : List Jira.Comment) :
    Prop :=
  MayFail s.rules ∨ g.comments ≠ 0 ∧
    ((∃ e, ofComments (listedComments m g) held = .error e) ∨
      ∃ p, ofComments (listedComments m g) held = .ok p ∧ ∃ x ∈ p.writes, Hindered s m held x)

lemma nodup_partlyPosted {held held' : List Jira.Comment} (h : PartlyPosted m g held held')
    (hheld : (held.map Jira.Comment.id).Nodup) : (held'.map Jira.Comment.id).Nodup := by
  rcases h with rfl | ⟨-, p, done, rest, -, -, hposted⟩
  · exact hheld
  · exact nodup_posted hposted hheld

/-- Work on the comments of an issue carries out a part of their plan, all of it if it does not
fail. -/
lemma workOnComments_course {o : CommentOutcome} (hwrite : s.dryRun = false)
    (hfresh : Fresh s.rules) (hrepo : repository w.state = repository m)
    (horderly : Orderly w.state.project) (hj : j ∈ w.state.project)
    (h : s.pass.workOnComments g j w = (o, v)) :
    ∃ held, PartlyPosted m g j.comments held ∧
      v.state.project = replaced { j with comments := held } w.state.project ∧
      (o.failure = none → FullyPosted m g j.comments held) ∧
      (o.failure ≠ none → CommentsHindered s m g j.comments) := by
  have hsame : replaced { j with comments := j.comments } w.state.project = w.state.project :=
    replaced_self horderly.keys hj
  unfold Pass.workOnComments at h
  by_cases hzero : g.comments = 0
  · rw [if_pos hzero] at h
    obtain ⟨rfl, rfl⟩ := action_pure h
    exact ⟨j.comments, Or.inl rfl, hsame.symm, fun _ => Or.inl ⟨hzero, rfl⟩,
      fun hne => absurd rfl hne⟩
  · rw [if_neg hzero] at h
    obtain ⟨r, w₁, hplan, hrest⟩ := action_bind h
    obtain ⟨hread, ⟨p, rfl, hp⟩ | ⟨e, rfl, hwhy⟩⟩ := planComments_course hrepo hplan
    · have hproject := project_onlyRead hread
      rw [← hproject] at horderly hj
      obtain ⟨done, rest, held, hsplit, hposted, hstate, hdone, hfailed⟩ :=
        writeComments_course hwrite hfresh ((repository_onlyRead hread).trans hrepo)
          (known_nil m) horderly hj hrest
      rw [hproject] at hstate
      refine ⟨held, Or.inr ⟨hzero, p, done, rest, hp, hsplit, hposted⟩, hstate, ?_, fun hne => ?_⟩
      · intro hnone
        rw [hdone hnone, List.append_nil] at hsplit
        rw [← hsplit] at hposted
        exact Or.inr ⟨hzero, p, hp, hposted⟩
      · obtain ⟨x, hx, hhindered⟩ := hfailed hne
        refine Or.inr ⟨hzero, Or.inr ⟨p, hp, x, ?_, hhindered⟩⟩
        rw [hsplit]
        exact List.mem_append_right _ hx
    · obtain ⟨rfl, rfl⟩ := action_pure hrest
      refine ⟨j.comments, Or.inl rfl, ?_, fun hnone => ?_, fun _ => ?_⟩
      · rw [hsame]
        exact project_onlyRead hread
      · cases hnone
      · rcases hwhy with hfail | herror
        · exact Or.inl hfail
        · exact Or.inr ⟨hzero, Or.inl herror⟩

/-- Nothing is written to an issue whose comments are up to date. -/
lemma workOnComments_settled {o : CommentOutcome} (hrepo : repository w.state = repository m)
    (hsettled : g.comments ≠ 0 → ∃ p, ofComments (listedComments m g) j.comments = .ok p ∧
      p.writes = [])
    (h : s.pass.workOnComments g j w = (o, v)) :
    OnlyRead w.state v.state ∧ (o = {} ∨ ∃ e, o = { failure := some e } ∧ MayFail s.rules) := by
  unfold Pass.workOnComments at h
  by_cases hzero : g.comments = 0
  · rw [if_pos hzero] at h
    obtain ⟨rfl, rfl⟩ := action_pure h
    exact ⟨onlyRead_refl _, Or.inl rfl⟩
  · rw [if_neg hzero] at h
    obtain ⟨p, hp, hempty⟩ := hsettled hzero
    obtain ⟨r, w₁, hplan, hrest⟩ := action_bind h
    obtain ⟨hread, ⟨q, rfl, hq⟩ | ⟨e, rfl, hwhy⟩⟩ := planComments_course hrepo hplan
    · rw [hp] at hq
      obtain rfl := Except.ok.inj hq
      dsimp only at hrest
      rw [hempty, Pass.writeComments] at hrest
      obtain ⟨rfl, rfl⟩ := action_pure hrest
      exact ⟨hread, Or.inl rfl⟩
    · obtain ⟨rfl, rfl⟩ := action_pure hrest
      refine ⟨hread, Or.inr ⟨e, rfl, ?_⟩⟩
      rcases hwhy with hfail | ⟨e', he'⟩
      · exact hfail
      · rw [hp] at he'
        cases he'

end IssueBridge.Proofs
