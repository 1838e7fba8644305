import IssueBridge.Failure
import IssueBridge.Json.Basic

/-!
# Reports and events

What a pass counts, and what it tells about its course.
-/

namespace IssueBridge

/-- The counters of a pass. -/
structure Report where
  created : Nat := 0
  updated : Nat := 0
  unchanged : Nat := 0
  /-- How many issues met a failure. -/
  failed : Nat := 0
  /-- The GitHub numbers of the issues that met a failure. -/
  failedIssues : List UInt64 := []
  commentsCreated : Nat := 0
  commentsUpdated : Nat := 0
  deriving DecidableEq, Inhabited

/-- How much an event matters. -/
inductive Level where
  | info
  | warn
  | error
  deriving DecidableEq, Inhabited

/-- Something worth telling. -/
inductive Event where
  | nothingToSync (repo : GitHub.Repo)
  | idNotNumeric (key : String)
  | issueCreated (number : UInt64) (key : String)
  | issueUpdated (number : UInt64) (key : String)
  | issueFailed (number : UInt64) (failure : Failure)
  | passFinished (report : Report)
  | passFailed (failure : Failure)
  | cutoffKept (issues : List UInt64)
  | stateCorrupt
  | retrying (attempt : UInt32) (waitMillis : UInt64) (error : String)
  | dryRun
  | passStarting (repo : GitHub.Repo) (since : Option Instant)
  /-- A write that is only told. -/
  | write (line : String)
  deriving DecidableEq, Inhabited

namespace Event

def level : Event → Level
  | idNotNumeric _ | cutoffKept _ | stateCorrupt | retrying .. | dryRun => .warn
  | issueFailed .. | passFailed _ => .error
  | _ => .info

def message : Event → String
  | nothingToSync _ => "no GitHub issues to sync"
  | idNotNumeric _ => "GitHub ID field is not numeric"
  | issueCreated .. => "created Jira issue"
  | issueUpdated .. => "updated Jira issue"
  | issueFailed .. => "failed to sync issue"
  | passFinished _ => "sync pass finished"
  | passFailed _ => "sync pass failed"
  | cutoffKept _ => "sync cutoff not advanced until these issues sync"
  | stateCorrupt => "ignoring corrupt state file"
  | retrying .. => "request failed; retrying"
  | dryRun => "dry run: Jira will not be modified; pass --confirm to write changes"
  | passStarting .. => "starting sync pass"
  | write line => line

def fields : Event → List (String × Json)
  | nothingToSync repo => [("repo", .str repo.path)]
  | idNotNumeric key => [("key", .str key)]
  | issueCreated number key => [("issue", .int number.toNat), ("key", .str key)]
  | issueUpdated number key => [("issue", .int number.toNat), ("key", .str key)]
  | issueFailed number failure =>
    [("issue", .int number.toNat), ("error", .str failure.message)]
  | passFinished r =>
    [("created", .int r.created), ("updated", .int r.updated), ("unchanged", .int r.unchanged),
      ("failed", .int r.failed), ("comments_created", .int r.commentsCreated),
      ("comments_updated", .int r.commentsUpdated)]
  | passFailed failure => [("error", .str failure.message)]
  | cutoffKept issues =>
    [("issues", .str ("[" ++ String.intercalate ", " (issues.map fun n => toString n) ++ "]"))]
  | retrying attempt waitMillis error =>
    [("attempt", .int attempt.toNat), ("wait_ms", .int waitMillis.toNat), ("error", .str error)]
  | passStarting repo since =>
    [("repo", .str repo.path)] ++ (since.map fun t => ("since", Json.str t.rfc3339)).toList
  | stateCorrupt | dryRun | write _ => []

end Event

end IssueBridge
