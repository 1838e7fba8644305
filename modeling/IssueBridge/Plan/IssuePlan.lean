import IssueBridge.GitHub.Basic
import IssueBridge.Jira.Basic
import IssueBridge.Jira.TrackedField

/-!
# Planning issues

Each GitHub issue goes with the first Jira issue whose GitHub-ID field holds its number; without
one it is created.
-/

namespace IssueBridge

open Jira (FieldNumbers)

/-- What is to be done for one GitHub issue. -/
inductive IssueTask where
  | create (source : GitHub.Issue)
  | update (source : GitHub.Issue) (target : Jira.Issue)
  deriving DecidableEq, Inhabited

def IssueTask.source : IssueTask → GitHub.Issue
  | create g => g
  | update g _ => g

namespace IssuePlan

/-- The number of the GitHub issue that a Jira issue stands for. -/
def githubId? (ids : FieldNumbers) (j : Jira.Issue) : Option Int64 :=
  (j.field (ids.key .githubId)).int64?

/-- The GitHub-ID field holds something that is not an integer. -/
def isGarbled (ids : FieldNumbers) (j : Jira.Issue) : Bool :=
  (githubId? ids j).isNone && !(j.field (ids.key .githubId)).isMissing

/-- The Jira issue that stands for a GitHub issue. -/
def counterpart (ids : FieldNumbers) (target : List Jira.Issue) (g : GitHub.Issue) :
    Option Jira.Issue :=
  target.find? fun j => githubId? ids j == some g.id

/-- The task for one GitHub issue. -/
def taskOf (ids : FieldNumbers) (target : List Jira.Issue) (g : GitHub.Issue) : IssueTask :=
  match counterpart ids target g with
  | some j => .update g j
  | none => .create g

/-- The tasks for all GitHub issues, in their order. -/
def tasks (source : List GitHub.Issue) (target : List Jira.Issue) (ids : FieldNumbers) :
    List IssueTask :=
  source.map (taskOf ids target)

/-- The Jira issues with a garbled GitHub-ID field that the search for each GitHub issue passes
before it ends. -/
def garbled (source : List GitHub.Issue) (target : List Jira.Issue) (ids : FieldNumbers) :
    List Jira.Issue :=
  source.flatMap fun g =>
    (target.takeWhile fun j => githubId? ids j != some g.id).filter (isGarbled ids)

def creations (tasks : List IssueTask) : List GitHub.Issue :=
  tasks.filterMap fun
    | .create g => some g
    | .update _ _ => none

def updates (tasks : List IssueTask) : List (GitHub.Issue × Jira.Issue) :=
  tasks.filterMap fun
    | .create _ => none
    | .update g j => some (g, j)

end IssuePlan

end IssueBridge
