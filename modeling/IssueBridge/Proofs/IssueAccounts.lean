import IssueBridge.Pass.Run
import IssueBridge.Proofs.NotedCalls

/-!
# What the work on an issue counts

The outcome of an issue against the calls that were made for it. The work ends with the first call
that fails or with comments that cannot be planned, and what it has counted until then stays
counted.
-/

namespace IssueBridge

/-- A call to a collaborator, and its result. -/
inductive Deed where
  | issues (repo : GitHub.Repo) (since : Option Instant)
    (result : Except Failure (List GitHub.Issue))
  | comments (repo : GitHub.Repo) (number : UInt64) (since : Option Instant)
    (result : Except Failure (List GitHub.Comment))
  | user (login : String) (result : Except Failure GitHub.User)
  | mirrors (numbers : List Int64) (result : Except Failure (List Jira.Issue))
  | issue (key : String) (result : Except Failure Jira.Issue)
  | create (fields : Jira.Draft) (result : Except Failure Jira.Issue)
  | update (key : String) (fields : Jira.Draft) (result : Except Failure Unit)
  | addComment (key body : String) (result : Except Failure Jira.Comment)
  | editComment (key id body : String) (result : Except Failure Jira.Comment)

/-- The pass with all calls to its collaborators noted. -/
def Pass.watched {σ : Type} (p : Pass σ) : Pass (Watched σ Deed) :=
  { p with
    source :=
      { issues := fun repo since => noting (.issues repo since) (p.source.issues repo since)
        comments := fun repo number since =>
          noting (.comments repo number since) (p.source.comments repo number since)
        user := fun login => noting (.user login) (p.source.user login) }
    target :=
      { issues := fun numbers => noting (.mirrors numbers) (p.target.issues numbers)
        issue := fun key => noting (.issue key) (p.target.issue key)
        create := fun fields => noting (.create fields) (p.target.create fields)
        update := fun key fields => noting (.update key fields) (p.target.update key fields)
        addComment := fun key body => noting (.addComment key body) (p.target.addComment key body)
        editComment := fun key id body =>
          noting (.editComment key id body) (p.target.editComment key id body)
        dryRun := p.target.dryRun } }

namespace Deed

def failed : Deed → Bool
  | issues _ _ (.error _) | comments _ _ _ (.error _) | user _ (.error _) | mirrors _ (.error _)
  | issue _ (.error _) | create _ (.error _) | update _ _ (.error _) | addComment _ _ (.error _)
  | editComment _ _ _ (.error _) => true
  | _ => false

def isWrite : Deed → Bool
  | create .. | update .. | addComment .. | editComment .. => true
  | _ => false

def created : Deed → Bool
  | create _ (.ok _) => true
  | _ => false

def updated : Deed → Bool
  | update _ _ (.ok _) => true
  | _ => false

def commentAdded : Deed → Bool
  | addComment _ _ (.ok _) => true
  | _ => false

def commentEdited : Deed → Bool
  | editComment _ _ _ (.ok _) => true
  | _ => false

/-- The attributes of an issue could not be written. -/
def refused : Deed → Bool
  | create _ (.error _) | update _ _ (.error _) => true
  | _ => false

/-- The Jira issue that a call shows. -/
def shown? : Deed → Option Jira.Issue
  | create _ (.ok j) | issue _ (.ok j) => some j
  | _ => none

/-- The comments that a call lists. -/
def listed? : Deed → Option (List GitHub.Comment)
  | comments _ _ _ (.ok cs) => some cs
  | _ => none

def isListing : Deed → Bool
  | issues .. | mirrors .. => true
  | _ => false

def isPosting : Deed → Bool
  | user .. | addComment .. | editComment .. => true
  | _ => false

/-- A call about the comments of an issue. -/
def Discusses {σ : Type} (p : Pass σ) (g : GitHub.Issue) (d : Deed) : Prop :=
  (∃ r, d = .comments p.repo g.number p.since r) ∨ d.isPosting = true

end Deed

namespace CommentWrite

/-- The call that writes a comment with the user that was found for it, and its result. -/
def deed (key : String) (u : GitHub.User) (r : Except Failure Jira.Comment) : CommentWrite → Deed
  | create c => .addComment key (Header.written c u) r
  | edit c t => .editComment key t.id (Header.written c u) r

/-- How failures name that call. -/
def operation (key : String) : CommentWrite → String
  | create _ => "creating comment on " ++ key
  | edit _ t => "updating comment " ++ t.id ++ " on " ++ key

end CommentWrite

namespace Proofs

open CommentPlan (ofComments)
open IssuePlan (taskOf)

variable {σ : Type} {p : Pass σ} {g : GitHub.Issue} {j : Jira.Issue} {a : IssueTask}
  {deeds deeds' front : List Deed} {change : IssueChange} {o : CommentOutcome} {key login : String}
  {known known' : Dictionary GitHub.User} {x : CommentWrite} {ws : List CommentWrite}

lemma ids_watched (p : Pass σ) : p.watched.ids = p.ids :=
  rfl

lemma dryRun_watched (p : Pass σ) : p.watched.target.dryRun = p.target.dryRun :=
  rfl

/-- The comments that were listed cannot be planned against those of a Jira issue. -/
def unplanned (j : Jira.Issue) (deeds : List Deed) : Bool :=
  match (deeds.filterMap Deed.listed?).head? with
  | some cs => !(ofComments cs j.comments).isOk
  | none => false

/-- A call failed, or the comments that were listed cannot be planned against those of the Jira
issue that was shown last. -/
def metError (deeds : List Deed) : Bool :=
  deeds.any Deed.failed ||
    match (deeds.filterMap Deed.shown?).getLast? with
    | some j => unplanned j deeds
    | none => false

/-- The call with which the work on an issue begins. -/
inductive Opens (p : Pass σ) : IssueTask → Deed → Prop
  | create (g : GitHub.Issue) (r : Except Failure Jira.Issue) :
    Opens p (.create g) (.create (newDraft g p.ids p.issueType (p.now g)) r)
  | update {g : GitHub.Issue} {j : Jira.Issue} (h : isOutdated g j p.ids = true)
      (r : Except Failure Unit) :
    Opens p (.update g j) (.update j.key (renewedDraft g j p.ids p.issueType (p.now g)) r)
  | issue {g : GitHub.Issue} {j : Jira.Issue} (h : isOutdated g j p.ids = false)
      (r : Except Failure Jira.Issue) :
    Opens p (.update g j) (.issue j.key r)

/-- The calls of one attempt at an issue: its attributes are written once and first if at all. -/
def Attempt (p : Pass σ) (a : IssueTask) (deeds : List Deed) : Prop :=
  ∃ d rest, deeds = d :: rest ∧ Opens p a d ∧
    ∀ d ∈ rest, (∃ key r, d = .issue key r) ∨ d.Discusses p a.source

/-! ## Comments -/

/-- A user was found: which one, the users known afterwards, and the calls made. -/
inductive Looked (known : Dictionary GitHub.User) (login : String) :
    GitHub.User → Dictionary GitHub.User → List Deed → Prop
  | known {u : GitHub.User} (h : known.get? login = some u) : Looked known login u known []
  | asked (h : known.get? login = none) (u : GitHub.User) :
    Looked known login u (known.insert login u) [.user login (.ok u)]

/-- The result of writing a comment, by the calls made for it. -/
inductive Wrote (key : String) (known : Dictionary GitHub.User) (x : CommentWrite) :
    Except Failure (Dictionary GitHub.User) → List Deed → Prop
  | unknown (h : known.get? x.source.author = none) (e : Failure) :
    Wrote key known x (.error (e.within ("looking up GitHub user " ++ x.source.author)))
      [.user x.source.author (.error e)]
  | refused {u : GitHub.User} {known' : Dictionary GitHub.User} {look : List Deed}
      (h : Looked known x.source.author u known' look) (e : Failure) :
    Wrote key known x (.error (e.within (x.operation key))) (look ++ [x.deed key u (.error e)])
  | written {u : GitHub.User} {known' : Dictionary GitHub.User} {look : List Deed}
      (h : Looked known x.source.author u known' look) (t : Jira.Comment) :
    Wrote key known x (.ok known') (look ++ [x.deed key u (.ok t)])

/-- What became of some comment writes, by the calls made for them. -/
inductive Delivered (key : String) :
    Dictionary GitHub.User → List CommentWrite → CommentOutcome → List Deed → Prop
  | done (known : Dictionary GitHub.User) : Delivered key known [] {} []
  | stopped {known : Dictionary GitHub.User} {x : CommentWrite} {ws : List CommentWrite}
      {e : Failure} {deeds : List Deed} (h : Wrote key known x (.error e) deeds) :
    Delivered key known (x :: ws) { failure := some e } deeds
  | next {known known' : Dictionary GitHub.User} {x : CommentWrite} {ws : List CommentWrite}
      {o : CommentOutcome} {deeds deeds' : List Deed} (h : Wrote key known x (.ok known') deeds)
      (hrest : Delivered key known' ws o deeds') :
    Delivered key known (x :: ws) (o.count x) (deeds ++ deeds')

lemma lookUp_notes (p : Pass σ) (known : Dictionary GitHub.User) (login : String) :
    Notes (p.watched.lookUp known login).run (p.lookUp known login).run fun r c =>
      (∃ u known', r = .ok (u, known') ∧ Looked known login u known' c) ∨
        known.get? login = none ∧ ∃ e : Failure,
          r = .error (e.within ("looking up GitHub user " ++ login)) ∧
          c = [.user login (.error e)] := by
  unfold Pass.lookUp
  cases hlogin : known.get? login with
  | some u => exact notes_call_pure (Or.inl ⟨u, known, rfl, .known hlogin⟩)
  | none =>
    refine notes_noting_bind (fun u => ?_) fun e => Or.inr ⟨rfl, e, rfl, rfl⟩
    exact notes_call_pure (Or.inl ⟨u, _, rfl, .asked hlogin u⟩)

lemma writeComment_notes (p : Pass σ) (key : String) (known : Dictionary GitHub.User)
    (x : CommentWrite) :
    Notes (p.watched.writeComment key known x).run (p.writeComment key known x).run
      (Wrote key known x) := by
  unfold Pass.writeComment
  refine notes_call_bind (lookUp_notes p known x.source.author) ?_ ?_
  · rintro ⟨u, known'⟩ c (⟨u', known'', hr, hlooked⟩ | ⟨-, e, he, -⟩)
    · obtain ⟨rfl, rfl⟩ := Prod.mk.inj (Except.ok.inj hr)
      cases x with
      | create source =>
        refine notes_noting_bind (fun t => notes_call_pure ?_) fun e => ?_
        · exact .written hlooked t
        · exact .refused hlooked e
      | edit source t =>
        refine notes_noting_bind (fun t' => notes_call_pure ?_) fun e => ?_
        · exact .written hlooked t'
        · exact .refused hlooked e
    · cases he
  · rintro e c (⟨u, known', hr, -⟩ | ⟨hnone, e', hr, rfl⟩)
    · cases hr
    · rw [Except.error.inj hr]
      exact .unknown hnone e'

lemma writeComments_notes (p : Pass σ) (key : String) (known : Dictionary GitHub.User)
    (ws : List CommentWrite) :
    Notes (p.watched.writeComments key known ws) (p.writeComments key known ws)
      (Delivered key known ws) := by
  induction ws generalizing known with
  | nil => exact notes_pure (.done known)
  | cons x ws ih =>
    rw [Pass.writeComments, Pass.writeComments]
    refine notes_bind (writeComment_notes p key known x) fun r c hc => ?_
    cases r with
    | error e =>
      refine notes_pure ?_
      rw [List.append_nil]
      exact .stopped hc
    | ok known' =>
      refine notes_bind (ih known') fun o c' hc' => notes_pure ?_
      rw [List.append_nil]
      exact .next hc hc'

/-- What became of some comment writes, in numbers. -/
structure Tallied (o : CommentOutcome) (deeds : List Deed) : Prop where
  posting : ∀ d ∈ deeds, d.isPosting = true
  created : o.created = deeds.countP Deed.commentAdded
  updated : o.updated = deeds.countP Deed.commentEdited
  failure : o.failure.isSome = deeds.any Deed.failed

lemma tallied_append {w : CommentWrite}
    (h : Tallied (({} : CommentOutcome).count w) deeds) (h' : Tallied o deeds') :
    Tallied (o.count w) (deeds ++ deeds') := by
  refine ⟨?_, ?_, ?_, ?_⟩
  · intro d hd
    rcases List.mem_append.mp hd with hd | hd
    · exact h.posting d hd
    · exact h'.posting d hd
  · have hcreated := h.created
    rw [List.countP_append, ← hcreated, ← h'.created]
    cases w with
    | create c => exact Nat.add_comm _ _
    | edit c t => exact (Nat.zero_add _).symm
  · have hupdated := h.updated
    rw [List.countP_append, ← hupdated, ← h'.updated]
    cases w with
    | create c => exact (Nat.zero_add _).symm
    | edit c t => exact Nat.add_comm _ _
  · have hfailure := h.failure
    rw [List.any_append, ← hfailure, ← h'.failure]
    cases w <;> rfl

lemma tallied_looked {u : GitHub.User} (hlooked : Looked known login u known' deeds)
    (h : Tallied o deeds') : Tallied o (deeds ++ deeds') := by
  cases hlooked with
  | known => exact h
  | asked =>
    exact ⟨List.forall_mem_cons.mpr ⟨rfl, h.posting⟩, h.created, h.updated, h.failure⟩

lemma tallied_deed (key : String) (u : GitHub.User) (x : CommentWrite) (t : Jira.Comment) :
    Tallied (({} : CommentOutcome).count x) [x.deed key u (.ok t)] := by
  cases x with
  | create c => exact ⟨by simp [CommentWrite.deed, Deed.isPosting], rfl, rfl, rfl⟩
  | edit c t => exact ⟨by simp [CommentWrite.deed, Deed.isPosting], rfl, rfl, rfl⟩

lemma tallied_refused (key : String) (u : GitHub.User) (x : CommentWrite) (e e' : Failure) :
    Tallied { failure := some e } [x.deed key u (.error e')] := by
  cases x with
  | create c => exact ⟨by simp [CommentWrite.deed, Deed.isPosting], rfl, rfl, rfl⟩
  | edit c t => exact ⟨by simp [CommentWrite.deed, Deed.isPosting], rfl, rfl, rfl⟩

lemma tallied_of_delivered (h : Delivered key known ws o deeds) : Tallied o deeds := by
  induction h with
  | done => exact ⟨by simp, rfl, rfl, rfl⟩
  | stopped hwrote =>
    cases hwrote with
    | unknown => exact ⟨by simp [Deed.isPosting], rfl, rfl, rfl⟩
    | refused hlooked e => exact tallied_looked hlooked (tallied_refused _ _ _ _ _)
  | next hwrote _ ih =>
    cases hwrote with
    | written hlooked t => exact tallied_append (tallied_looked hlooked (tallied_deed _ _ _ t)) ih

/-- What became of the comments of an issue, by the calls made for them, where the writes of a plan
are as told. -/
inductive Synced (p : Pass σ) (g : GitHub.Issue) (j : Jira.Issue)
    (Posts : List CommentWrite → CommentOutcome → List Deed → Prop) :
    CommentOutcome → List Deed → Prop
  | quiet (h : g.comments = 0) : Synced p g j Posts {} []
  | unlisted (h : g.comments ≠ 0) (e : Failure) :
    Synced p g j Posts
      { failure := some (e.within ("listing comments on " ++ issueName g.number)) }
      [.comments p.repo g.number p.since (.error e)]
  | unplanned (h : g.comments ≠ 0) {cs : List GitHub.Comment} {e : HeaderError}
      (hplan : ofComments cs j.comments = .error e) :
    Synced p g j Posts
      { failure := some ((Failure.of (.header e)).within ("comparing comments of " ++ j.key)) }
      [.comments p.repo g.number p.since (.ok cs)]
  | planned (h : g.comments ≠ 0) {cs : List GitHub.Comment} {plan : CommentPlan}
      {o : CommentOutcome} {deeds : List Deed} (hplan : ofComments cs j.comments = .ok plan)
      (hposts : Posts plan.writes o deeds) :
    Synced p g j Posts o (.comments p.repo g.number p.since (.ok cs) :: deeds)

lemma planComments_notes (p : Pass σ) (g : GitHub.Issue) (j : Jira.Issue) :
    Notes (p.watched.planComments g j).run (p.planComments g j).run fun r c =>
      (∃ cs, c = [.comments p.repo g.number p.since (.ok cs)] ∧
        r = (ofComments cs j.comments).mapError fun e =>
          (Failure.of (.header e)).within ("comparing comments of " ++ j.key)) ∨
      ∃ e : Failure, r = .error (e.within ("listing comments on " ++ issueName g.number)) ∧
        c = [.comments p.repo g.number p.since (.error e)] := by
  unfold Pass.planComments
  refine notes_noting_bind (fun cs => ?_) fun e => Or.inr ⟨e, rfl, rfl⟩
  refine notes_within _ (notes_mono (notes_ofExcept _) ?_)
  rintro r c ⟨rfl, rfl⟩
  refine Or.inl ⟨cs, rfl, ?_⟩
  cases ofComments cs j.comments <;> rfl

lemma workOnComments_notes (p : Pass σ) (g : GitHub.Issue) (j : Jira.Issue) :
    Notes (p.watched.workOnComments g j) (p.workOnComments g j)
      (Synced p g j (Delivered j.key [])) := by
  unfold Pass.workOnComments
  by_cases hzero : g.comments = 0
  · rw [if_pos hzero, if_pos hzero]
    exact notes_pure (.quiet hzero)
  · rw [if_neg hzero, if_neg hzero]
    refine notes_bind (planComments_notes p g j) ?_
    rintro r c (⟨cs, rfl, rfl⟩ | ⟨e, rfl, rfl⟩)
    · cases hplan : ofComments cs j.comments with
      | error e => exact notes_pure (.unplanned hzero hplan)
      | ok plan =>
        exact notes_mono (writeComments_notes p j.key [] plan.writes) fun o c' h =>
          .planned hzero hplan h
    · exact notes_pure (.unlisted hzero e)

/-- What became of the comments of an issue, in numbers. -/
structure Commented (p : Pass σ) (g : GitHub.Issue) (j : Jira.Issue) (o : CommentOutcome)
    (deeds : List Deed) : Prop where
  discusses : ∀ d ∈ deeds, d.Discusses p g
  created : o.created = deeds.countP Deed.commentAdded
  updated : o.updated = deeds.countP Deed.commentEdited
  failure : o.failure.isSome = (deeds.any Deed.failed || unplanned j deeds)

lemma commented_of_synced (h : Synced p g j (Delivered j.key []) o deeds) :
    Commented p g j o deeds := by
  cases h with
  | quiet => exact ⟨by simp, rfl, rfl, rfl⟩
  | unlisted => exact ⟨by simp [Deed.Discusses], rfl, rfl, rfl⟩
  | @unplanned _ cs e hplan =>
    have hunplanned : unplanned j [.comments p.repo g.number p.since (.ok cs)] = true := by
      change (!(ofComments cs j.comments).isOk) = true
      rw [hplan]
      rfl
    refine ⟨by simp [Deed.Discusses], rfl, rfl, ?_⟩
    rw [hunplanned]
    rfl
  | @planned _ cs plan o deeds hplan hposts =>
    have htallied := tallied_of_delivered hposts
    have hplanned : unplanned j (.comments p.repo g.number p.since (.ok cs) :: deeds) = false := by
      change (!(ofComments cs j.comments).isOk) = false
      rw [hplan]
      rfl
    refine ⟨?_, htallied.created, htallied.updated, ?_⟩
    · rintro d (_ | ⟨_, hd⟩)
      · exact Or.inl ⟨_, rfl⟩
      · exact Or.inr (htallied.posting d hd)
    · rw [hplanned, Bool.or_false]
      exact htallied.failure

/-! ## One issue -/

/-- What became of an issue, by the calls made for it. -/
structure Account (o : IssueOutcome) (deeds : List Deed) : Prop where
  created : o.tally .created = deeds.countP Deed.created
  updated : o.tally .updated = deeds.countP Deed.updated
  commentsCreated : o.comments.created = deeds.countP Deed.commentAdded
  commentsUpdated : o.comments.updated = deeds.countP Deed.commentEdited
  failure : o.failure.isSome = metError deeds
  settled : o.tally .created + o.tally .updated + o.tally .unchanged +
    (if deeds.any Deed.refused then 1 else 0) = 1

/-- The result of writing the attributes of an issue, by the call made for it if any. -/
inductive Written (p : Pass σ) :
    IssueTask → Except Failure (IssueChange × Jira.Issue) → List Deed → Prop
  | created (g : GitHub.Issue) (j : Jira.Issue) :
    Written p (.create g) (.ok (.created, j))
      [.create (newDraft g p.ids p.issueType (p.now g)) (.ok j)]
  | uncreated (g : GitHub.Issue) (e e' : Failure) :
    Written p (.create g) (.error e) [.create (newDraft g p.ids p.issueType (p.now g)) (.error e')]
  | updated {g : GitHub.Issue} {j : Jira.Issue} (h : isOutdated g j p.ids = true) :
    Written p (.update g j) (.ok (.updated, j))
      [.update j.key (renewedDraft g j p.ids p.issueType (p.now g)) (.ok ())]
  | outdated {g : GitHub.Issue} {j : Jira.Issue} (h : isOutdated g j p.ids = true)
      (e e' : Failure) :
    Written p (.update g j) (.error e)
      [.update j.key (renewedDraft g j p.ids p.issueType (p.now g)) (.error e')]
  | unchanged {g : GitHub.Issue} {j : Jira.Issue} (h : isOutdated g j p.ids = false) :
    Written p (.update g j) (.ok (.unchanged, j)) []

lemma writeIssue_notes (p : Pass σ) (a : IssueTask) :
    Notes (p.watched.writeIssue a).run (p.writeIssue a).run (Written p a) := by
  cases a with
  | create g =>
    unfold Pass.writeIssue
    refine notes_noting_bind (fun j => ?_) fun e => .uncreated g _ e
    exact notes_call_emit_bind (notes_call_pure (.created g j))
  | update g j =>
    unfold Pass.writeIssue
    dsimp only
    by_cases hold : isOutdated g j p.ids = true
    · rw [ids_watched, if_pos hold, if_pos hold]
      refine notes_noting_bind (fun _ => ?_) fun e => .outdated hold _ e
      exact notes_call_emit_bind (notes_call_pure (.updated hold))
    · rw [ids_watched, if_neg hold, if_neg hold]
      exact notes_call_pure (.unchanged (Bool.eq_false_iff.mpr hold))

lemma readBack_notes (p : Pass σ) (change : IssueChange) (j : Jira.Issue) :
    Notes (p.watched.readBack change j).run (p.readBack change j).run fun r c =>
      (change = .created ∧ r = .ok j ∧ c = []) ∨
        (∃ j', r = .ok j' ∧ c = [.issue j.key (.ok j')]) ∨
        ∃ e e', r = .error e ∧ c = [.issue j.key (.error e')] := by
  unfold Pass.readBack
  by_cases hdry : change = .created ∧ p.target.dryRun = true
  · rw [dryRun_watched, if_pos hdry, if_pos hdry]
    exact notes_call_pure (Or.inl ⟨hdry.1, rfl, rfl⟩)
  · rw [dryRun_watched, if_neg hdry, if_neg hdry]
    exact notes_mono (notes_noting_within _ _ _) fun r c h =>
      Or.inr (h.imp_right fun ⟨e, hr, hc⟩ => ⟨_, e, hr, hc⟩)

/-- The attributes of an issue are settled, and a Jira issue was shown. -/
structure Begun (p : Pass σ) (a : IssueTask) (change : IssueChange) (j : Jira.Issue)
    (front : List Deed) : Prop where
  attempt : Attempt p a front
  account : Account { change := some change } front
  shown : (front.filterMap Deed.shown?).getLast? = some j
  listed : front.filterMap Deed.listed? = []
  failed : front.any Deed.failed = false

/-- A call about comments neither writes nor shows an issue. -/
lemma apart_of_discusses {d : Deed} (h : d.Discusses p g) :
    d.created = false ∧ d.updated = false ∧ d.refused = false ∧ d.shown? = none := by
  rcases h with ⟨r, rfl⟩ | h
  · exact ⟨rfl, rfl, rfl, rfl⟩
  · cases d with
    | user | addComment | editComment => exact ⟨rfl, rfl, rfl, rfl⟩
    | _ => cases h

lemma countP_append_left {q : Deed → Bool} (h : ∀ d ∈ deeds, q d = false) :
    (front ++ deeds).countP q = front.countP q := by
  have hnone : deeds.countP q = 0 := List.countP_eq_zero.mpr fun d hd => by simp [h d hd]
  rw [List.countP_append, hnone, Nat.add_zero]

lemma metError_append (hbegun : Begun p a change j front) (h : ∀ d ∈ deeds, d.shown? = none) :
    metError (front ++ deeds) = (deeds.any Deed.failed || unplanned j deeds) := by
  have hshown : deeds.filterMap Deed.shown? = [] := List.filterMap_eq_nil_iff.mpr h
  unfold metError unplanned
  rw [List.any_append, hbegun.failed, Bool.false_or, List.filterMap_append, hshown, List.append_nil,
    hbegun.shown, List.filterMap_append, hbegun.listed, List.nil_append]

lemma attempt_append (h : Attempt p a front) (hdeeds : ∀ d ∈ deeds, d.Discusses p a.source) :
    Attempt p a (front ++ deeds) := by
  obtain ⟨d, rest, rfl, hopens, hrest⟩ := h
  refine ⟨d, rest ++ deeds, rfl, hopens, fun e he => ?_⟩
  rcases List.mem_append.mp he with he | he
  · exact hrest e he
  · exact Or.inr (hdeeds e he)

lemma account_append (hbegun : Begun p a change j front)
    (h : Commented p a.source j o deeds) :
    Account { change := some change, comments := o, failure := o.failure } (front ++ deeds) := by
  have hapart := fun d hd => apart_of_discusses (h.discusses d hd)
  have hbefore := hbegun.account
  refine ⟨?_, ?_, ?_, ?_, ?_, ?_⟩
  · rw [countP_append_left fun d hd => (hapart d hd).1]
    exact hbefore.created
  · rw [countP_append_left fun d hd => (hapart d hd).2.1]
    exact hbefore.updated
  · rw [List.countP_append, ← hbefore.commentsCreated, ← h.created]
    exact (Nat.zero_add _).symm
  · rw [List.countP_append, ← hbefore.commentsUpdated, ← h.updated]
    exact (Nat.zero_add _).symm
  · rw [metError_append hbegun fun d hd => (hapart d hd).2.2.2]
    exact h.failure
  · have hnone : deeds.any Deed.refused = false :=
      List.any_eq_false.mpr fun d hd => by simp [(hapart d hd).2.2.1]
    rw [List.any_append, hnone, Bool.or_false]
    exact hbefore.settled

lemma afterWrite_notes (hbegun : Begun p a change j front) :
    Notes (do
        let comments ← p.watched.workOnComments a.source j
        return { change := some change, comments, failure := comments.failure })
      (do
        let comments ← p.workOnComments a.source j
        return { change := some change, comments, failure := comments.failure })
      fun o c => Attempt p a (front ++ c) ∧ Account o (front ++ c) := by
  refine notes_bind (workOnComments_notes p a.source j) fun o c hc => notes_pure ?_
  have hcommented := commented_of_synced hc
  rw [List.append_nil]
  exact ⟨attempt_append hbegun.attempt hcommented.discusses, account_append hbegun hcommented⟩

lemma workOn_notes (p : Pass σ) (a : IssueTask) :
    Notes (p.watched.workOn a) (p.workOn a) fun o c => Attempt p a c ∧ Account o c := by
  unfold Pass.workOn
  refine notes_bind (writeIssue_notes p a) fun r c hwritten => ?_
  cases hwritten with
  | uncreated g e e' =>
    refine notes_pure ⟨⟨_, [], rfl, .create g _, by simp⟩, ?_⟩
    exact ⟨rfl, rfl, rfl, rfl, rfl, rfl⟩
  | outdated h e e' =>
    refine notes_pure ⟨⟨_, [], rfl, .update h _, by simp⟩, ?_⟩
    exact ⟨rfl, rfl, rfl, rfl, rfl, rfl⟩
  | created g j =>
    refine notes_bind (readBack_notes p .created j) ?_
    rintro r c (⟨-, rfl, rfl⟩ | ⟨j', rfl, rfl⟩ | ⟨e, e', rfl, rfl⟩)
    · exact afterWrite_notes ⟨⟨_, [], rfl, .create g _, by simp⟩, ⟨rfl, rfl, rfl, rfl, rfl, rfl⟩,
        rfl, rfl, rfl⟩
    · exact afterWrite_notes ⟨⟨_, _, rfl, .create g _, by simp⟩, ⟨rfl, rfl, rfl, rfl, rfl, rfl⟩,
        rfl, rfl, rfl⟩
    · exact notes_pure ⟨⟨_, _, rfl, .create g _, by simp⟩, ⟨rfl, rfl, rfl, rfl, rfl, rfl⟩⟩
  | updated h =>
    refine notes_bind (readBack_notes p .updated _) ?_
    rintro r c (⟨h', -, -⟩ | ⟨j', rfl, rfl⟩ | ⟨e, e', rfl, rfl⟩)
    · cases h'
    · exact afterWrite_notes ⟨⟨_, _, rfl, .update h _, by simp⟩, ⟨rfl, rfl, rfl, rfl, rfl, rfl⟩,
        rfl, rfl, rfl⟩
    · exact notes_pure ⟨⟨_, _, rfl, .update h _, by simp⟩, ⟨rfl, rfl, rfl, rfl, rfl, rfl⟩⟩
  | unchanged h =>
    refine notes_bind (readBack_notes p .unchanged _) ?_
    rintro r c (⟨h', -, -⟩ | ⟨j', rfl, rfl⟩ | ⟨e, e', rfl, rfl⟩)
    · cases h'
    · exact afterWrite_notes ⟨⟨_, _, rfl, .issue h _, by simp⟩, ⟨rfl, rfl, rfl, rfl, rfl, rfl⟩,
        rfl, rfl, rfl⟩
    · exact notes_pure ⟨⟨_, _, rfl, .issue h _, by simp⟩, ⟨rfl, rfl, rfl, rfl, rfl, rfl⟩⟩

end Proofs

end IssueBridge
