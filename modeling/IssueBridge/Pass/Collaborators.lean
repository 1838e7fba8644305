import IssueBridge.Jira.Basic
import IssueBridge.Pass.Action

/-!
# Collaborators

The two sides of a pass, as sets of calls on one world.
-/

namespace IssueBridge

/-- Read access to GitHub. -/
structure GitHub.Source (σ : Type) where
  /-- The issues of a repository that changed since an instant; never pull requests. -/
  issues : Repo → Option Instant → Call σ (List Issue)
  /-- The comments on an issue that changed since an instant, the oldest first. -/
  comments : Repo → UInt64 → Option Instant → Call σ (List Comment)
  /-- The user of a login. -/
  user : String → Call σ User

/-- Access to the Jira project. -/
structure Jira.Target (σ : Type) where
  /-- The issues whose GitHub-ID field is one of the given numbers. -/
  issues : List Int64 → Call σ (List Issue)
  /-- The issue of a key. -/
  issue : String → Call σ Issue
  /-- Creates an issue. -/
  create : Draft → Call σ Issue
  /-- Writes fields to the issue of a key. -/
  update : String → Draft → Call σ Unit
  /-- Adds a comment to the issue of a key. -/
  addComment : String → String → Call σ Comment
  /-- Replaces the text of a comment, given the key of its issue and its own identifier. -/
  editComment : String → String → String → Call σ Comment
  /-- Writes are only told, and yield what would have been written. -/
  dryRun : Bool

end IssueBridge
