import IssueBridge.Dictionary
import IssueBridge.Jira.CustomValue

/-!
# Jira

Issues and comments as Jira holds them, and the fields that are written to an issue.
-/

namespace IssueBridge.Jira

structure Comment where
  id : String
  body : String
  deriving DecidableEq, Inhabited

/-- An issue, with its custom fields under their keys. -/
structure Issue where
  id : String := ""
  key : String := ""
  summary : String := ""
  description : String := ""
  issueType : Option String := none
  custom : Dictionary CustomValue := []
  comments : List Comment := []
  deriving DecidableEq, Inhabited

/-- The custom field under a key; missing if there is none. -/
def Issue.field (i : Issue) (key : String) : CustomValue :=
  (i.custom.get? key).getD .missing

/-- The fields of a write. -/
structure Draft where
  summary : String
  description : String
  issueType : String
  custom : Dictionary CustomValue
  deriving DecidableEq, Inhabited

/-- The issue that fields describe, before it has an id and a key. -/
def Draft.toIssue (f : Draft) : Issue :=
  { summary := f.summary, description := f.description, issueType := some f.issueType,
    custom := f.custom }

/-- The issue after fields are written to it; custom fields that are not among them stay. -/
def Issue.overwrite (i : Issue) (f : Draft) : Issue :=
  { i with summary := f.summary, description := f.description, issueType := some f.issueType,
           custom := i.custom.insertAll f.custom }

end IssueBridge.Jira
