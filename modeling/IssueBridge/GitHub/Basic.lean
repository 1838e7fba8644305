import IssueBridge.Json.Record
import IssueBridge.Text.Blank
import IssueBridge.Text.Cut
import IssueBridge.Time.Reader
import IssueBridge.Time.Writer

/-!
# GitHub

Repositories, issues, comments and users, as a pass reads them. A pass never writes any of them.
-/

namespace IssueBridge.GitHub

/-- A repository: its owner and its name. -/
structure Repo where
  owner : String
  name : String
  deriving DecidableEq, Inhabited

namespace Repo

/-- The path `owner/name`. -/
def path (r : Repo) : String :=
  r.owner ++ "/" ++ r.name

/-- The repository of a path with exactly one slash and text on both sides of it. -/
def ofPath? (path : String) : Option Repo :=
  match Text.pieces '/' path.toList with
  | [owner, name] =>
    if owner ≠ [] ∧ name ≠ [] then some ⟨String.ofList owner, String.ofList name⟩ else none
  | _ => none

end Repo

/-- An issue. The count of its comments is the one that the listing reports. -/
structure Issue where
  id : Int64
  number : UInt64
  title : String
  body : String
  state : String
  reporter : String
  labels : List String
  comments : UInt64
  deriving DecidableEq, Inhabited

structure Comment where
  id : Int64
  body : String
  author : String
  htmlUrl : String
  createdAt : Instant
  deriving DecidableEq, Inhabited

structure User where
  login : String
  name : Option String
  htmlUrl : String
  deriving DecidableEq, Inhabited

/-- The name without blanks around it, if anything is left of it. -/
def User.shownName (u : User) : Option String :=
  (u.name.map Text.trimmed).filter fun name => name ≠ ""

def Issue.ofJson? (v : Json) : Option Issue := do
  let r ← v.record? 8
  some {
    id := ← r.required "id" 0 Json.int64?
    number := ← r.required "number" 1 Json.uint64?
    title := ← r.required "title" 2 Json.str?
    body := ← r.defaulted "body" 3 "" Json.str?
    state := ← r.required "state" 4 Json.str?
    reporter := ← r.required "reporter" 5 Json.str?
    labels := ← r.defaulted "labels" 6 [] Json.strings?
    comments := ← r.defaulted "comments" 7 0 Json.uint64? }

def Issue.toJson (i : Issue) : Json :=
  .obj [("id", .int i.id.toInt), ("number", .int i.number.toNat), ("title", .str i.title),
    ("body", .str i.body), ("state", .str i.state), ("reporter", .str i.reporter),
    ("labels", .arr (i.labels.map .str)), ("comments", .int i.comments.toNat)]

/-- A timestamp in JSON. -/
def timestamp? (v : Json) : Option Instant :=
  v.str?.bind Instant.ofTimestamp?

def Comment.ofJson? (v : Json) : Option Comment := do
  let r ← v.record? 5
  some {
    id := ← r.required "id" 0 Json.int64?
    body := ← r.defaulted "body" 1 "" Json.str?
    author := ← r.required "author" 2 Json.str?
    htmlUrl := ← r.defaulted "html_url" 3 "" Json.str?
    createdAt := ← r.required "created_at" 4 timestamp? }

def Comment.toJson (c : Comment) : Json :=
  .obj [("id", .int c.id.toInt), ("body", .str c.body), ("author", .str c.author),
    ("html_url", .str c.htmlUrl), ("created_at", .str c.createdAt.rfc3339)]

def User.ofJson? (v : Json) : Option User := do
  let r ← v.record? 3
  some {
    login := ← r.required "login" 0 Json.str?
    name := ← r.optional "name" 1 Json.str?
    htmlUrl := ← r.defaulted "html_url" 2 "" Json.str? }

/-- The JSON of a user; a missing name is left out. -/
def User.toJson (u : User) : Json :=
  .obj ([("login", .str u.login)] ++ (u.name.map fun n => ("name", Json.str n)).toList ++
    [("html_url", .str u.htmlUrl)])

end IssueBridge.GitHub
