import IssueBridge.Header.Reader
import IssueBridge.Jira.Basic

/-!
# Planning comments

Each GitHub comment goes with the first Jira comment that carries its number. Comments without one
are added, those whose text has changed are edited, and Jira comments without a header are left
alone.
-/

namespace IssueBridge

/-- The comment writes that bring a Jira issue up to date. -/
structure CommentPlan where
  additions : List GitHub.Comment
  edits : List (GitHub.Comment × Jira.Comment)
  /-- How many pairs already agree. -/
  unchanged : Nat
  deriving DecidableEq, Inhabited

namespace CommentPlan

def isEmpty (p : CommentPlan) : Bool :=
  p.additions.isEmpty && p.edits.isEmpty

/-- The first Jira comment that carries a number. -/
def counterpart (id : Int64) : List Jira.Comment → Except HeaderError (Option Jira.Comment)
  | [] => .ok none
  | t :: rest =>
    match Header.id? t.body with
    | .error e => .error e
    | .ok found => if found = some id then .ok (some t) else counterpart id rest

/-- Whether the text of a GitHub comment differs from the one that a Jira comment holds. A Jira
comment of full length is up to date while the GitHub text begins with what it holds. -/
def isStale (c : GitHub.Comment) (t : Jira.Comment) : Except HeaderError Bool :=
  match Header.parse? t.body with
  | .error e => .error e
  | .ok none => .error (.unparseable t.id)
  | .ok (some parsed) =>
    if parsed.body = c.body then .ok false
    else
      let full := maxCommentLength ≤ t.body.toList.length
      .ok !(full && parsed.body.toList.isPrefixOf c.body.toList)

/-- What one GitHub comment asks for. -/
inductive Need where
  | add
  | edit (target : Jira.Comment)
  | nothing
  deriving DecidableEq

/-- What a GitHub comment asks for, beside the Jira comments of its issue. -/
def needOf (target : List Jira.Comment) (c : GitHub.Comment) : Except HeaderError Need := do
  match ← counterpart c.id target with
  | none => return .add
  | some t => if ← isStale c t then return .edit t else return .nothing

/-- Puts what a GitHub comment asks for in front of a plan. -/
def cons (c : GitHub.Comment) (need : Need) (rest : CommentPlan) : CommentPlan :=
  match need with
  | .add => { rest with additions := c :: rest.additions }
  | .edit t => { rest with edits := (c, t) :: rest.edits }
  | .nothing => { rest with unchanged := rest.unchanged + 1 }

/-- The plan for the GitHub comments of an issue, in their order; the first comment that cannot
be matched decides the error. -/
def ofComments : List GitHub.Comment → List Jira.Comment → Except HeaderError CommentPlan
  | [], _ => .ok ⟨[], [], 0⟩
  | c :: rest, target =>
    match needOf target c with
    | .error e => .error e
    | .ok need => (ofComments rest target).map (cons c need)

end CommentPlan

end IssueBridge
