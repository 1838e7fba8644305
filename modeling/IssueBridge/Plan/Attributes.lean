import IssueBridge.GitHub.Basic
import IssueBridge.Jira.Basic
import IssueBridge.Jira.TrackedField

/-!
# Planning fields

Which Jira issues differ from their GitHub issue, and the fields that a write gives them. The
identity of the GitHub issue is written only when the Jira issue is created.
-/

namespace IssueBridge

open Jira (CustomValue FieldNumbers Draft TrackedField)

/-- Labels as Jira takes them: without spaces. -/
def hyphenated (labels : List String) : List String :=
  labels.map (Text.replace ' ' '-')

/-- The labels of a GitHub issue are all in the label field of a Jira issue. An issue without
labels asks for none. -/
def labelsAgree (labels : List String) (field : CustomValue) : Bool :=
  labels.isEmpty ||
    match field.list? with
    | some held => (hyphenated labels).all fun label => held.contains label
    | none => false

/-- Some tracked attribute of a GitHub issue differs from the Jira issue that stands for it. -/
def isOutdated (g : GitHub.Issue) (j : Jira.Issue) (ids : FieldNumbers) : Bool :=
  g.title != j.summary || g.body != j.description ||
    (j.field (ids.key .githubStatus)).text? != some g.state ||
    (j.field (ids.key .githubReporter)).text? != some g.reporter ||
    !labelsAgree g.labels (j.field (ids.key .githubLabels))

/-- The attributes that every write carries. -/
def trackedEntries (g : GitHub.Issue) (ids : FieldNumbers) (now : Instant) :
    List (String × CustomValue) :=
  [(ids.key .githubStatus, .text g.state), (ids.key .githubReporter, .text g.reporter),
    (ids.key .githubLabels, .list (hyphenated g.labels)), (ids.key .lastSync, .text now.syncText)]

/-- The identity of the GitHub issue. A number beyond 63 bits wraps around. -/
def identityEntries (g : GitHub.Issue) (ids : FieldNumbers) : List (String × CustomValue) :=
  [(ids.key .githubId, .ofInt64 g.id), (ids.key .githubNumber, .ofInt64 g.number.toInt64)]

/-- The fields of a new Jira issue. -/
def newDraft (g : GitHub.Issue) (ids : FieldNumbers) (issueType : String) (now : Instant) :
    Draft :=
  { summary := g.title, description := g.body, issueType
    custom := Dictionary.ofList (trackedEntries g ids now ++ identityEntries g ids) }

/-- The fields of a write to the Jira issue that stands for a GitHub issue. It keeps its type. -/
def renewedDraft (g : GitHub.Issue) (j : Jira.Issue) (ids : FieldNumbers) (defaultType : String)
    (now : Instant) : Draft :=
  { summary := g.title, description := g.body, issueType := j.issueType.getD defaultType
    custom := Dictionary.ofList (trackedEntries g ids now) }

end IssueBridge
