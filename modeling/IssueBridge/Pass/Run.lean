import IssueBridge.Pass.Collaborators
import IssueBridge.Plan.Attributes
import IssueBridge.Plan.CommentPlan
import IssueBridge.Plan.IssuePlan

/-!
# Running a pass

A pass lists the issues of both sides, plans, and then works on the GitHub issues one after
another. A failure in a listing ends the pass; any other failure ends the work on its issue only.
-/

namespace IssueBridge

/-- What a pass works with. -/
structure Pass (σ : Type) where
  source : GitHub.Source σ
  target : Jira.Target σ
  ids : Jira.FieldNumbers
  repo : GitHub.Repo
  /-- The type of new Jira issues. -/
  issueType : String
  /-- The time at which the attributes of an issue are written, which the write carries. -/
  now : GitHub.Issue → Instant
  /-- Only what changed since is looked at. -/
  since : Option Instant

/-- What became of the attributes of an issue. -/
inductive IssueChange where
  | created
  | updated
  | unchanged
  deriving DecidableEq, Inhabited

/-- What became of the comments of an issue: how many were written, and the failure that ended
the work. -/
structure CommentOutcome where
  created : Nat := 0
  updated : Nat := 0
  failure : Option Failure := none
  deriving DecidableEq, Inhabited

/-- What became of an issue; no change if its attributes could not be written. -/
structure IssueOutcome where
  change : Option IssueChange := none
  comments : CommentOutcome := {}
  failure : Option Failure := none
  deriving DecidableEq, Inhabited

/-- A comment to write: a new one, or a new text for a Jira comment. -/
inductive CommentWrite where
  | create (source : GitHub.Comment)
  | edit (source : GitHub.Comment) (target : Jira.Comment)
  deriving DecidableEq, Inhabited

def CommentWrite.source : CommentWrite → GitHub.Comment
  | create c => c
  | edit c _ => c

/-- The writes of a plan, new comments first. -/
def CommentPlan.writes (p : CommentPlan) : List CommentWrite :=
  p.additions.map .create ++ p.edits.map fun (c, t) => .edit c t

/-- Counts one more write. -/
def CommentOutcome.count (o : CommentOutcome) : CommentWrite → CommentOutcome
  | .create _ => { o with created := o.created + 1 }
  | .edit .. => { o with updated := o.updated + 1 }

/-- Whether the attributes of an issue became of the given kind. -/
def IssueOutcome.tally (o : IssueOutcome) (change : IssueChange) : Nat :=
  if o.change = some change then 1 else 0

/-- Adds what became of the issue of a number. -/
def Report.add (r : Report) (number : UInt64) (o : IssueOutcome) : Report :=
  { created := r.created + o.tally .created
    updated := r.updated + o.tally .updated
    unchanged := r.unchanged + o.tally .unchanged
    failed := r.failed + (if o.failure.isSome then 1 else 0)
    failedIssues := r.failedIssues ++ (if o.failure.isSome then [number] else [])
    commentsCreated := r.commentsCreated + o.comments.created
    commentsUpdated := r.commentsUpdated + o.comments.updated }

/-- How events and failures name a GitHub issue. -/
def issueName (number : UInt64) : String :=
  "#" ++ toString number

namespace Pass

variable {σ : Type}

/-- Writes the attributes of an issue where they differ. -/
def writeIssue (p : Pass σ) : IssueTask → Call σ (IssueChange × Jira.Issue)
  | .create g => do
    let created ← (p.target.create (newDraft g p.ids p.issueType (p.now g))).within
      ("creating Jira issue for " ++ issueName g.number)
    Call.emit (.issueCreated g.number created.key)
    return (.created, created)
  | .update g j => do
    if isOutdated g j p.ids then
      (p.target.update j.key (renewedDraft g j p.ids p.issueType (p.now g))).within
        ("updating Jira issue " ++ j.key)
      Call.emit (.issueUpdated g.number j.key)
      return (.updated, j)
    else
      return (.unchanged, j)

/-- The Jira issue as it stands now. An issue whose creation was only told is as it was told. -/
def readBack (p : Pass σ) (change : IssueChange) (j : Jira.Issue) : Call σ Jira.Issue :=
  if change = .created ∧ p.target.dryRun then pure j
  else (p.target.issue j.key).within ("fetching Jira issue " ++ j.key)

/-- The user of a login and the users known afterwards; GitHub is asked for unknown ones only. -/
def lookUp (p : Pass σ) (known : Dictionary GitHub.User) (login : String) :
    Call σ (GitHub.User × Dictionary GitHub.User) :=
  match known.get? login with
  | some user => pure (user, known)
  | none => do
    let user ← (p.source.user login).within ("looking up GitHub user " ++ login)
    return (user, known.insert login user)

/-- Writes one comment to the issue of a key, and yields the users known afterwards. -/
def writeComment (p : Pass σ) (key : String) (known : Dictionary GitHub.User)
    (w : CommentWrite) : Call σ (Dictionary GitHub.User) := do
  let (user, known) ← p.lookUp known w.source.author
  let body := Header.written w.source user
  match w with
  | .create _ =>
    let _ ← (p.target.addComment key body).within ("creating comment on " ++ key)
  | .edit _ t =>
    let _ ← (p.target.editComment key t.id body).within
      ("updating comment " ++ t.id ++ " on " ++ key)
  return known

/-- Writes comments one after another up to the first failure. -/
def writeComments (p : Pass σ) (key : String) (known : Dictionary GitHub.User) :
    List CommentWrite → Action σ CommentOutcome
  | [] => return {}
  | w :: rest => do
    match ← (p.writeComment key known w).run with
    | .error e => return { failure := some e }
    | .ok known => return (← writeComments p key known rest).count w

/-- The plan for the comments of a GitHub issue, which are listed for it. -/
def planComments (p : Pass σ) (g : GitHub.Issue) (j : Jira.Issue) : Call σ CommentPlan := do
  let comments ← (p.source.comments p.repo g.number p.since).within
    ("listing comments on " ++ issueName g.number)
  (Call.ofExcept ((CommentPlan.ofComments comments j.comments).mapError Cause.header)).within
    ("comparing comments of " ++ j.key)

/-- Brings the comments of an issue up to date, if GitHub reports any. -/
def workOnComments (p : Pass σ) (g : GitHub.Issue) (j : Jira.Issue) : Action σ CommentOutcome := do
  if g.comments = 0 then return {}
  else
    match ← (p.planComments g j).run with
    | .error e => return { failure := some e }
    | .ok plan => p.writeComments j.key [] plan.writes

/-- Brings one issue up to date. -/
def workOn (p : Pass σ) (a : IssueTask) : Action σ IssueOutcome := do
  match ← (p.writeIssue a).run with
  | .error e => return { failure := some e }
  | .ok (change, j) =>
    match ← (p.readBack change j).run with
    | .error e => return { change := some change, failure := some e }
    | .ok current =>
      let comments ← p.workOnComments a.source current
      return { change := some change, comments, failure := comments.failure }

/-- Works on issues one after another and adds what becomes of them to a report. -/
def workOnAll (p : Pass σ) (report : Report) : List IssueTask → Action σ Report
  | [] => return report
  | a :: rest => do
    let outcome ← p.workOn a
    if let some e := outcome.failure then emit (.issueFailed a.source.number e)
    workOnAll p (report.add a.source.number outcome) rest

def run (p : Pass σ) : Call σ Report := do
  let issues ← (p.source.issues p.repo p.since).within "listing GitHub issues"
  if issues.isEmpty then
    Call.emit (.nothingToSync p.repo)
    return {}
  else
    let existing ← (p.target.issues (issues.map GitHub.Issue.id)).within "listing Jira issues"
    (IssuePlan.garbled issues existing p.ids).forM fun j => Call.emit (.idNotNumeric j.key)
    let report ← p.workOnAll {} (IssuePlan.tasks issues existing p.ids)
    Call.emit (.passFinished report)
    return report

end Pass

end IssueBridge
