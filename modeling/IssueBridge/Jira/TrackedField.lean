import IssueBridge.Json.Record
import IssueBridge.Number.Decimal

/-!
# Tracked fields

The custom fields of a Jira project that hold what a pass knows of the GitHub issue, and finding
them by name in the listing of all fields.
-/

namespace IssueBridge.Jira

/-- A custom field that a pass reads and writes. -/
inductive TrackedField where
  | githubId
  | githubNumber
  | githubLabels
  | githubStatus
  | githubReporter
  | lastSync
  deriving DecidableEq, Inhabited

namespace TrackedField

/-- All tracked fields, in the order in which they are looked up. -/
def all : List TrackedField :=
  [githubId, githubNumber, githubLabels, githubStatus, githubReporter, lastSync]

def name : TrackedField → String
  | githubId => "github-id"
  | githubNumber => "github-number"
  | githubLabels => "github-labels"
  | githubStatus => "github-status"
  | githubReporter => "github-reporter"
  | lastSync => "github-last-sync"

end TrackedField

/-- An entry of the listing of fields: its name, and its number if it is a custom field. -/
structure FieldEntry where
  name : String
  customId : Option Int64
  deriving DecidableEq, Inhabited

/-- The number in the schema of a field. -/
def FieldEntry.schemaId? (v : Json) : Option (Option Int64) := do
  let r ← v.record? 1
  r.omittable "customId" 0 Json.int64?

def FieldEntry.ofJson? (v : Json) : Option FieldEntry := do
  let r ← v.record? 2
  some {
    name := ← r.required "name" 0 Json.str?
    customId := (← r.omittable "schema" 1 schemaId?).join }

/-- The numbers of the tracked fields. -/
structure FieldNumbers where
  githubId : Int64
  githubNumber : Int64
  githubLabels : Int64
  githubStatus : Int64
  githubReporter : Int64
  lastSync : Int64
  deriving DecidableEq, Inhabited

namespace FieldNumbers

def number (ids : FieldNumbers) : TrackedField → Int64
  | .githubId => ids.githubId
  | .githubNumber => ids.githubNumber
  | .githubLabels => ids.githubLabels
  | .githubStatus => ids.githubStatus
  | .githubReporter => ids.githubReporter
  | .lastSync => ids.lastSync

/-- The number in decimal, as queries name the field. -/
def id (ids : FieldNumbers) (f : TrackedField) : String :=
  String.ofList (Decimal.ofInt (ids.number f).toInt)

/-- The key under which issues hold the field. -/
def key (ids : FieldNumbers) (f : TrackedField) : String :=
  "customfield_" ++ ids.id f

/-- The number of the first entry of a listing that has the name of the field and a number. -/
def find? (listing : List FieldEntry) (f : TrackedField) : Option Int64 :=
  (listing.filter fun entry => entry.name == f.name).findSome? FieldEntry.customId

/-- The number of a field, or the field that the listing lacks. -/
def find (listing : List FieldEntry) (f : TrackedField) : Except TrackedField Int64 :=
  match find? listing f with
  | some n => .ok n
  | none => .error f

/-- The numbers of all tracked fields in a listing, or the first field that it lacks. -/
def ofListing (listing : List FieldEntry) : Except TrackedField FieldNumbers := do
  return {
    githubId := ← find listing .githubId
    githubNumber := ← find listing .githubNumber
    githubLabels := ← find listing .githubLabels
    githubStatus := ← find listing .githubStatus
    githubReporter := ← find listing .githubReporter
    lastSync := ← find listing .lastSync }

end FieldNumbers

end IssueBridge.Jira
