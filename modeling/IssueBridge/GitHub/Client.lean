import IssueBridge.Http.Connection
import IssueBridge.Pass.Collaborators

/-!
# Asking GitHub

Listings come in pages. A page names the next one in a header, and the last page names none. Pull
requests are listed as issues and are left out here.
-/

namespace IssueBridge.GitHub

def publicAddress : String :=
  "https://api.github.com"

/-- How the program names itself. -/
def agent : String :=
  "issue-sync/0.1.0"

structure Client (σ : Type) where
  connection : Http.Connection σ
  /-- The address of the server, without slashes at its end. -/
  baseUrl : String
  token : String

/-! ## What the server sends -/

/-- The login of the user in an entry; empty if there is none. -/
def login (user : Option User) : String :=
  (user.map User.login).getD ""

def userForm : Json.Form User :=
  ⟨.fields ["login", "name", "html_url"], User.ofJson?⟩

def labelName? (v : Json) : Option String := do
  (← v.record? 1).required "name" 0 Json.str?

/-- An entry of a listing of issues; none inside if it is a pull request. -/
def issueEntry? (v : Json) : Option (Option Issue) := do
  let r ← v.record? 9
  let issue : Issue := {
    id := ← r.required "id" 0 Json.int64?
    number := ← r.required "number" 1 Json.uint64?
    title := ← r.required "title" 2 Json.str?
    body := (← r.optional "body" 3 Json.str?).getD ""
    state := ← r.required "state" 4 Json.str?
    reporter := login (← r.optional "user" 5 User.ofJson?)
    labels := ← r.defaulted "labels" 6 [] fun w => w.items?.bind fun items => items.mapM labelName?
    comments := ← r.defaulted "comments" 7 0 Json.uint64? }
  let pullRequest ← r.optional "pull_request" 8 some
  some (if pullRequest.isSome then none else some issue)

def issueEntry : Json.Form (Option Issue) where
  want := .record [("id", .whole), ("number", .whole), ("title", .whole), ("body", .whole),
    ("state", .whole), ("user", userForm.want), ("labels", .items (.fields ["name"])),
    ("comments", .whole), ("pull_request", .whole)]
  decode := issueEntry?

def commentEntry? (v : Json) : Option Comment := do
  let r ← v.record? 5
  some {
    id := ← r.required "id" 0 Json.int64?
    body := (← r.optional "body" 1 Json.str?).getD ""
    author := login (← r.optional "user" 2 User.ofJson?)
    htmlUrl := ← r.defaulted "html_url" 3 "" Json.str?
    createdAt := ← r.required "created_at" 4 timestamp? }

def commentEntry : Json.Form Comment where
  want := .record [("id", .whole), ("body", .whole), ("user", userForm.want),
    ("html_url", .whole), ("created_at", .whole)]
  decode := commentEntry?

/-! ## Pages -/

/-- The text without certain characters at its ends. -/
def strip (left right : Char) (s : List Char) : List Char :=
  ((s.dropWhile (· == left)).reverse.dropWhile (· == right)).reverse

/-- The address in an entry of the header that names other pages, if it is the next page. -/
def nextOf? (entry : List Char) : Option String :=
  match Text.splitFirst? [';'] entry with
  | some (address, parameters) =>
    if (Text.pieces ';' parameters).any fun p => Text.trim p == "rel=\"next\"".toList then
      some (String.ofList (strip '<' '>' (Text.trim address)))
    else none
  | none => none

/-- The address of the next page in the header that names other pages. Entries stand between
commas; nothing follows an entry without parameters. -/
def nextPage? (header : String) : Option String :=
  (Text.pieces ',' header.toList).findSome? nextOf?

/-- The part of a query that asks only for what changed since an instant. -/
def sinceEntry (since : Option Instant) : List (String × String) :=
  (since.map fun t => ("since", t.rfc3339Seconds)).toList

namespace Client

variable {σ α : Type}

def request (c : Client σ) (address : String) (query : List (String × String)) :
    Option Http.Request :=
  Http.Request.make? .get address query (some ("Bearer " ++ c.token))
    "application/vnd.github+json" (some agent) none

/-- The request for a page. The address of a page may end in an empty query, which is not sent. -/
def pageRequest (c : Client σ) (address : String) (query : List (String × String)) :
    Option Http.Request :=
  (c.request address query).map fun r => { r with url := r.url.withoutEmptyQuery }

/-- The entries of one page and the address of the next page. -/
def page (c : Client σ) (form : Json.Form α) (address : String)
    (query : List (String × String)) : Call σ (List α × Option String) := do
  let reply ← (c.connection.send (c.pageRequest address query)).within
    ("GitHub request to " ++ address ++ " failed")
  let entries ← (Call.ofExcept (reply.decode form.items)).within "Failed to parse GitHub response"
  return (entries, (reply.header? "link").bind nextPage?)

/-- The entries of a page and of all that follow it, of which there are at most `patience`. -/
def pages (c : Client σ) (form : Json.Form α) :
    Nat → String → List (String × String) → Call σ (List α)
  | 0, _, _ => Call.failing Http.outOfPatience
  | patience + 1, address, query => do
    let (entries, next) ← c.page form address query
    match next with
    | none => return entries
    | some address => return entries ++ (← pages c form patience address [])

/-- How entries are ordered, and how many a page has. -/
def listingQuery (since : Option Instant) : List (String × String) :=
  [("sort", "created"), ("direction", "asc"), ("per_page", "100")] ++ sinceEntry since

/-- The issues of a repository that changed since an instant. -/
def issues (c : Client σ) (repo : Repo) (since : Option Instant) : Call σ (List Issue) := do
  let address := c.baseUrl ++ "/repos/" ++ repo.path ++ "/issues"
  let entries ← (c.pages issueEntry c.connection.patience address
    (("state", "all") :: listingQuery since)).within ("Failed to list issues of " ++ repo.path)
  return entries.filterMap id

/-- The comments on an issue that changed since an instant. -/
def comments (c : Client σ) (repo : Repo) (number : UInt64) (since : Option Instant) :
    Call σ (List Comment) :=
  let address := c.baseUrl ++ "/repos/" ++ repo.path ++ "/issues/" ++ toString number ++ "/comments"
  (c.pages commentEntry c.connection.patience address (listingQuery since)).within
    ("Failed to list comments on #" ++ toString number)

def user (c : Client σ) (login : String) : Call σ User := do
  let address := c.baseUrl ++ "/users/" ++ Percent.encode login
  let reply ← (c.connection.send (c.request address [])).within
    ("Failed to retrieve GitHub user " ++ login)
  (Call.ofExcept (reply.decode userForm)).within "Failed to parse GitHub user"

/-- The client as the source of a pass. -/
def source (c : Client σ) : Source σ where
  issues := c.issues
  comments := c.comments
  user := c.user

end Client

end IssueBridge.GitHub
