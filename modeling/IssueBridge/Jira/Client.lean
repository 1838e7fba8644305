import IssueBridge.Http.Connection
import IssueBridge.Json.Printer
import IssueBridge.Pass.Collaborators
import IssueBridge.Text.Base64

/-!
# Asking and telling Jira

A client belongs to one project, whose tracked fields it looks up when it connects. During a dry
run it reads as always, and only tells what it would write.
-/

namespace IssueBridge.Jira

/-- What the client knows of its project. -/
structure Project where
  id : String
  key : String
  /-- The identifiers of its components. -/
  components : List String
  deriving DecidableEq, Inhabited

/-- What it takes to connect. -/
structure Account where
  baseUrl : String
  user : String
  token : String
  /-- The key of the project. -/
  project : String
  dryRun : Bool
  deriving DecidableEq, Inhabited

/-- A connection to a server with an authorization. -/
structure Access (σ : Type) where
  connection : Http.Connection σ
  /-- The address of the server, without slashes at its end. -/
  baseUrl : String
  authorization : String

/-- Access to a project. -/
structure Client (σ : Type) where
  access : Access σ
  project : Project
  ids : FieldNumbers
  dryRun : Bool

/-! ## What the server sends -/

/-- An identifier in a record of its own. -/
def identifier? (v : Json) : Option String := do
  (← v.record? 1).required "id" 0 Json.str?

def Project.ofJson? (v : Json) : Option Project := do
  let r ← v.record? 3
  some {
    id := ← r.required "id" 0 Json.str?
    key := ← r.required "key" 1 Json.str?
    components := ← r.defaulted "components" 2 [] fun w =>
      w.items?.bind fun items => items.mapM identifier? }

def Comment.ofJson? (v : Json) : Option Comment := do
  let r ← v.record? 2
  some ⟨← r.required "id" 0 Json.str?, ← r.defaulted "body" 1 "" Json.str?⟩

def Project.form : Json.Form Project where
  want := .record [("id", .whole), ("key", .whole), ("components", .items (.fields ["id"]))]
  decode := Project.ofJson?

def FieldEntry.form : Json.Form FieldEntry where
  want := .record [("name", .whole), ("schema", .fields ["customId"])]
  decode := FieldEntry.ofJson?

def Comment.form : Json.Form Comment :=
  ⟨.fields ["id", "body"], Comment.ofJson?⟩

def members? : Json → Option (List (String × Json))
  | .obj members => some members
  | _ => none

def isCustom (key : String) : Bool :=
  "customfield_".toList.isPrefixOf key.toList

/-- The custom fields among members, without the missing ones. -/
def customOf (members : List (String × Json)) : Dictionary CustomValue :=
  Dictionary.ofList
    (((members.filter fun m => isCustom m.1).map fun (key, v) => (key, CustomValue.ofJson v)).filter
      fun m => !m.2.isMissing)

/-- The comments among the fields of an issue; none at all if one of them cannot be read. Of a
repeated key in one of them, the last value counts. -/
def commentsOf (fields : Json) : List Comment :=
  let listed := ((fields.get? "comment").bind fun c => c.get? "comments").bind Json.items?
  (listed.bind fun items => items.mapM fun item => Comment.ofJson? item.canonical).getD []

/-- The issue of an id, a key and fields. -/
def Issue.ofFields (id key : String) (members : List (String × Json)) : Issue :=
  let fields := Json.obj (Dictionary.ofList members)
  let text := fun name => ((fields.get? name).bind Json.str?).getD ""
  { id, key
    summary := text "summary"
    description := text "description"
    issueType := ((fields.get? "issuetype").bind fun t => t.get? "name").bind Json.str?
    custom := customOf (Dictionary.ofList members)
    comments := commentsOf fields }

/-- An issue as the server sends it. -/
def Issue.ofJson? (v : Json) : Option Issue := do
  let r ← v.record? 3
  let id ← r.required "id" 0 Json.str?
  let key ← r.required "key" 1 Json.str?
  some (.ofFields id key (← r.defaulted "fields" 2 [] members?))

def Issue.form : Json.Form Issue :=
  ⟨.fields ["id", "key", "fields"], Issue.ofJson?⟩

/-- A page of a search: how many issues there are in all, and those of the page. -/
def searchPage? (v : Json) : Option (Nat × List Issue) := do
  let r ← v.record? 2
  let total ← r.defaulted "total" 0 0 Json.uint64?
  let issues ← r.required "issues" 1 fun w => w.items?.bind fun items => items.mapM Issue.ofJson?
  some (total.toNat, issues)

def searchPage : Json.Form (Nat × List Issue) where
  want := .record [("total", .whole), ("issues", .items Issue.form.want)]
  decode := searchPage?

/-- The id and the key of a new issue. -/
def created? (v : Json) : Option (String × String) := do
  let r ← v.record? 2
  some (← r.required "id" 0 Json.str?, ← r.required "key" 1 Json.str?)

def created : Json.Form (String × String) :=
  ⟨.fields ["id", "key"], created?⟩

/-! ## What the client sends -/

/-- The fields of a write in JSON. A new issue names its project, and the first component. -/
def payload (project : Project) (fields : Draft) (creating : Bool) : Json :=
  let place :=
    [("project", Json.obj [("id", .str project.id)])] ++
      (project.components.head?.map fun c =>
        ("components", Json.arr [.obj [("id", .str c)]])).toList
  let own :=
    [("summary", Json.str fields.summary), ("description", .str fields.description),
      ("issuetype", .obj [("name", .str fields.issueType)])]
  let custom := fields.custom.map fun (key, value) => (key, value.toJson)
  .obj [("fields",
    .obj (Dictionary.ofList (own ++ (if creating then place else []) ++ custom)))]

/-- From this many numbers on, a query does not list them. -/
def longestList : Nat :=
  100

/-- The query for the issues of given GitHub numbers; for too many, the query for all issues of
the project. -/
def query (projectKey fieldId : String) (numbers : List Int64) : String :=
  let project := "project='" ++ projectKey ++ "'"
  if numbers.length < longestList then
    let list := String.intercalate "," (numbers.map fun n => String.ofList (Decimal.ofInt n.toInt))
    project ++ " AND cf[" ++ fieldId ++ "] in (" ++ list ++ ")"
  else project

variable {σ α : Type}

namespace Access

def ofAccount (connection : Http.Connection σ) (a : Account) : Access σ :=
  { connection
    baseUrl := Text.trimSlashes (Text.trimmed a.baseUrl)
    authorization := "Basic " ++ Base64.encode (a.user ++ ":" ++ Text.trimmed a.token) }

def request (a : Access σ) (method : Http.Method) (address : String) (body : Option Json) :
    Option Http.Request :=
  Http.Request.make? method address [] (some a.authorization) "application/json" none body

def get (a : Access σ) (address : String) (form : Json.Form α) : Call σ α := do
  let reply ← (a.connection.send (a.request .get address none)).within
    ("Jira API request to " ++ address ++ " failed")
  (Call.ofExcept (reply.decode form)).within "Failed to parse Jira response"

def write (a : Access σ) (method : Http.Method) (address : String) (body : Json) :
    Call σ Http.Reply :=
  (a.connection.send (a.request method address (some body))).within
    ("Jira API " ++ method.name ++ " " ++ address ++ " failed")

end Access

namespace Client

def connect (connection : Http.Connection σ) (a : Account) : Call σ (Client σ) := do
  let access := Access.ofAccount connection a
  let project ← (access.get (access.baseUrl ++ "/rest/api/2/project/" ++ a.project)
    Project.form).within
    ("Failed to load Jira project " ++ a.project ++ "; check the key and credentials")
  let listing ← (access.get (access.baseUrl ++ "/rest/api/2/field") FieldEntry.form.items).within
    "Failed to list Jira fields"
  let ids ← Call.ofExcept ((FieldNumbers.ofListing listing).mapError Cause.missingField)
  return { access, project, ids, dryRun := a.dryRun }

def issueAddress (c : Client σ) (key : String) : String :=
  c.access.baseUrl ++ "/rest/api/2/issue/" ++ key

def searchAddress (c : Client σ) (jql : String) (start : Nat) : String :=
  c.access.baseUrl ++ "/rest/api/2/search?jql=" ++ Percent.encode jql ++ "&startAt=" ++
    toString start ++ "&maxResults=1000&fields=*all"

/-- The issues of a search from a place on, in at most `patience` pages. -/
def search (c : Client σ) (jql : String) : Nat → Nat → Call σ (List Issue)
  | 0, _ => Call.failing Http.outOfPatience
  | patience + 1, start => do
    let (total, issues) ← c.access.get (c.searchAddress jql start) searchPage
    let next := start + issues.length
    if issues.isEmpty ∨ total ≤ next then return issues
    else return issues ++ (← search c jql patience next)

/-- An issue stands for one of the given GitHub issues. -/
def standsFor (c : Client σ) (numbers : List Int64) (j : Issue) : Bool :=
  match (j.field (c.ids.key .githubId)).int64? with
  | some n => numbers.contains n
  | none => false

/-- The issues that stand for given GitHub issues. -/
def issues (c : Client σ) (numbers : List Int64) : Call σ (List Issue) := do
  if numbers.isEmpty then return []
  else
    let found ← c.search (query c.project.key (c.ids.id .githubId) numbers)
      c.access.connection.patience 0
    return if numbers.length < longestList then found else found.filter (c.standsFor numbers)

def issue (c : Client σ) (key : String) : Call σ Issue :=
  (c.access.get (c.issueAddress key) Issue.form).within ("Failed to retrieve Jira issue " ++ key)

/-- The lines that tell the fields of a write. -/
def fieldLines (c : Client σ) (fields : Draft) : List String :=
  let custom := fun f =>
    ((fields.custom.get? (c.ids.key f)).map fun v => v.toJson.compress).getD "-"
  ["  Summary: " ++ fields.summary,
    "  Description: " ++ Text.oneLine 50 fields.description,
    "  GitHub ID: " ++ custom .githubId,
    "  GitHub Number: " ++ custom .githubNumber,
    "  Labels: " ++ custom .githubLabels,
    "  State: " ++ custom .githubStatus,
    "  Reporter: " ++ custom .githubReporter]

def tell (lines : List String) : Call σ Unit :=
  lines.forM fun line => Call.emit (.write line)

def create (c : Client σ) (fields : Draft) : Call σ Issue := do
  if c.dryRun then
    tell ("Create new Jira issue:" :: c.fieldLines fields)
    return { fields.toIssue with key := c.project.key ++ "-?" }
  else
    let reply ← c.access.write .post (c.access.baseUrl ++ "/rest/api/2/issue")
      (payload c.project fields true)
    let (id, key) ← (Call.ofExcept (reply.decode created)).within
      "Failed to parse created Jira issue"
    return { fields.toIssue with id, key }

/-- Writes fields to the issue of a key. -/
def update (c : Client σ) (key : String) (fields : Draft) : Call σ Unit := do
  if c.dryRun then tell (("Update Jira issue " ++ key ++ ":") :: c.fieldLines fields)
  else
    let _ ← c.access.write .put (c.issueAddress key) (payload c.project fields false)

/-- The text of a comment in JSON. -/
def commentPayload (body : String) : Json :=
  .obj [("body", .str body)]

def addComment (c : Client σ) (key body : String) : Call σ Comment := do
  if c.dryRun then
    tell ["Create comment on Jira issue " ++ key ++ ": " ++ Text.oneLine 100 body]
    return ⟨"", body⟩
  else
    let reply ← c.access.write .post (c.issueAddress key ++ "/comment") (commentPayload body)
    (Call.ofExcept (reply.decode Comment.form)).within
      "Failed to parse created Jira comment"

/-- Replaces the text of a comment on the issue of a key. -/
def editComment (c : Client σ) (key id body : String) : Call σ Comment := do
  if c.dryRun then
    tell ["Update Jira comment " ++ id ++ " on issue " ++ key ++ ": " ++ Text.oneLine 100 body]
    return ⟨id, body⟩
  else
    let reply ← c.access.write .put (c.issueAddress key ++ "/comment/" ++ id) (commentPayload body)
    (Call.ofExcept (reply.decode Comment.form)).within
      "Failed to parse updated Jira comment"

/-- The client as the target of a pass. -/
def target (c : Client σ) : Target σ where
  issues := c.issues
  issue := c.issue
  create := c.create
  update := c.update
  addComment := c.addComment
  editComment := c.editComment
  dryRun := c.dryRun

end Client

end IssueBridge.Jira
