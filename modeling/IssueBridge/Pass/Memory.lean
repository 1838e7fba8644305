import IssueBridge.Pass.Collaborators

/-!
# Collaborators in memory

A repository and a project that are plain data. Every call is noted by name; rules say which calls
fail before they have any effect, and which names new issues and comments get. A dry run changes
nothing.
-/

namespace IssueBridge

/-- A repository and a project held in memory. -/
structure Memory where
  issues : List GitHub.Issue := []
  /-- The comments on each issue, under its number. -/
  comments : Dictionary (List GitHub.Comment) := []
  users : Dictionary GitHub.User := []
  project : List Jira.Issue := []
  /-- How many comments were created in the project. -/
  created : Nat := 0
  /-- The names of the calls made. -/
  calls : List String := []
  deriving DecidableEq, Inhabited

namespace Memory

/-- How the collaborators behave. -/
structure Rules where
  /-- Whether a call of a name fails. -/
  fails : Memory → String → Bool
  /-- The text of such a failure. -/
  fault : String
  /-- The key of a new issue. -/
  newKey : Memory → String
  /-- The identifier of a new comment on the issue of a key. -/
  newCommentId : Memory → String → String
  /-- The project lists all its issues, whatever it is asked for. -/
  listAll : Bool

/-- New issues and comments are numbered. -/
def numbered (fails : Memory → String → Bool) (fault : String) (listAll : Bool) : Rules :=
  { fails, fault, listAll
    newKey := fun m => "PROJ-" ++ toString (m.project.length + 1)
    newCommentId := fun m _ => "c" ++ toString (m.created + 1) }

/-- Notes a name among the calls made. -/
def note (name : String) : Call Memory Unit :=
  ExceptT.lift (onState fun m => ((), { m with calls := m.calls ++ [name] }))

/-- Makes a call that changes the memory, unless it fails. -/
def call {α : Type} (rules : Rules) (name : String)
    (effect : Memory → Except Cause (α × Memory)) : Call Memory α := do
  note name
  ExceptT.mk (onState fun m =>
    if rules.fails m name then (.error (Failure.of (.other rules.fault)), m)
    else
      match effect m with
      | .ok (value, m) => (.ok value, m)
      | .error cause => (.error (Failure.of cause), m))

/-- Makes a call that only reads. -/
def query {α : Type} (rules : Rules) (name : String) (answer : Memory → Except Cause α) :
    Call Memory α :=
  call rules name fun m => (answer m).map fun value => (value, m)

/-- The value, or a failure that names what does not exist. -/
def orAbsent {α : Type} (what : String) : Option α → Except Cause α
  | some value => .ok value
  | none => .error (.other (what ++ " does not exist"))

/-- Changes the first item that is wanted; none if there is no such item. -/
def changeFirst {α : Type} (wanted : α → Bool) (change : α → α) : List α → Option (List α)
  | [] => none
  | a :: rest =>
    if wanted a then some (change a :: rest)
    else (changeFirst wanted change rest).map (a :: ·)

/-- The text of the start of a listing. -/
def sinceText (since : Option Instant) : String :=
  "since " ++ (since.map Instant.rfc3339).getD "-"

/-- The repository as the source of a pass. -/
def source (rules : Rules) : GitHub.Source Memory where
  issues repo since := do
    note (sinceText since)
    query rules ("gh list " ++ repo.path) fun m => .ok m.issues
  comments _ number since := do
    note (sinceText since)
    query rules ("gh comments " ++ toString number) fun m =>
      .ok ((m.comments.get? (toString number)).getD [])
  user login :=
    query rules ("gh user " ++ login) fun m => orAbsent ("user " ++ login) (m.users.get? login)

def find? (m : Memory) (key : String) : Option Jira.Issue :=
  m.project.find? fun j => j.key == key

/-- The memory with the first issue of a key changed. -/
def change (m : Memory) (key : String) (f : Jira.Issue → Jira.Issue) : Except Cause Memory :=
  (orAbsent ("issue " ++ key) (changeFirst (fun j => j.key == key) f m.project)).map
    fun project => { m with project }

/-- The issues that a listing yields for given GitHub numbers. -/
def listed (m : Memory) (listAll : Bool) (ids : Jira.FieldNumbers) (numbers : List Int64) :
    List Jira.Issue :=
  m.project.filter fun j =>
    listAll ||
      match (j.field (ids.key .githubId)).int64? with
      | some n => numbers.contains n
      | none => false

def addIssue (m : Memory) (key : String) (fields : Jira.Draft) : Jira.Issue × Memory :=
  let issue := { fields.toIssue with id := key, key }
  (issue, { m with project := m.project ++ [issue] })

def addComment (m : Memory) (key id body : String) : Except Cause (Jira.Comment × Memory) :=
  (m.change key fun j => { j with comments := j.comments ++ [⟨id, body⟩] }).map
    fun m => (⟨id, body⟩, { m with created := m.created + 1 })

def editComment (m : Memory) (key id body : String) : Except Cause (Jira.Comment × Memory) := do
  let j ← orAbsent ("issue " ++ key) (m.find? key)
  let comments ← orAbsent ("comment " ++ id)
    (changeFirst (fun t : Jira.Comment => t.id == id) (fun t => { t with body }) j.comments)
  let m ← m.change key fun j => { j with comments }
  return (⟨id, body⟩, m)

/-- The project as the target of a pass. -/
def target (rules : Rules) (ids : Jira.FieldNumbers) (dryRun : Bool) : Jira.Target Memory where
  issues numbers := query rules "list" fun m => .ok (m.listed rules.listAll ids numbers)
  issue key := query rules ("get " ++ key) fun m => orAbsent ("issue " ++ key) (m.find? key)
  create fields := call rules ("create " ++ fields.summary) fun m =>
    if dryRun then .ok ({ fields.toIssue with key := "PROJ-?" }, m)
    else .ok (m.addIssue (rules.newKey m) fields)
  update key fields := call rules ("update " ++ key) fun m =>
    if dryRun then .ok ((), m)
    else (m.change key fun j => j.overwrite fields).map fun m => ((), m)
  addComment key body := call rules ("comment " ++ key) fun m =>
    let id := rules.newCommentId m key
    if dryRun then .ok (⟨id, body⟩, m) else m.addComment key id body
  editComment key id body := call rules ("edit " ++ key ++ "/" ++ id) fun m =>
    if dryRun then .ok (⟨id, body⟩, m) else m.editComment key id body
  dryRun

end Memory

end IssueBridge
