import IssueBridge.Json.Record
import IssueBridge.Toml.Reader

/-!
# The configuration file

Three sections of settings, each of which may be left out.
-/

namespace IssueBridge

structure Config.GitHub where
  token : Option String := none
  repo : Option String := none
  deriving DecidableEq, Inhabited

structure Config.Jira where
  uri : Option String := none
  project : Option String := none
  user : Option String := none
  apiToken : Option String := none
  issueType : Option String := none
  deriving DecidableEq, Inhabited

structure Config.Sync where
  since : Option String := none
  timeoutSeconds : Option UInt64 := none
  periodSeconds : Option UInt64 := none
  confirm : Bool := false
  deriving DecidableEq, Inhabited

structure Config where
  github : Config.GitHub := {}
  jira : Config.Jira := {}
  sync : Config.Sync := {}
  deriving DecidableEq, Inhabited

namespace Config

/-- How many items an array may have that stands for a record of some number of fields. -/
abbrev Arity := Json → Nat → Nat

/-- An array has no more items than there are fields. -/
def exact : Arity :=
  fun _ fields => fields

/-- Items beyond the last field do not count. -/
def generous : Arity :=
  fun v fields => max fields (v.items?.getD []).length

def GitHub.ofJson? (arity : Arity) (v : Json) : Option Config.GitHub := do
  let r ← v.record? (arity v 2)
  some { token := ← r.optional "token" 0 Json.str?, repo := ← r.optional "repo" 1 Json.str? }

def Jira.ofJson? (arity : Arity) (v : Json) : Option Config.Jira := do
  let r ← v.record? (arity v 5)
  some {
    uri := ← r.optional "uri" 0 Json.str?
    project := ← r.optional "project" 1 Json.str?
    user := ← r.optional "user" 2 Json.str?
    apiToken := ← r.optional "api_token" 3 Json.str?
    issueType := ← r.optional "issue_type" 4 Json.str? }

def Sync.ofJson? (arity : Arity) (v : Json) : Option Config.Sync := do
  let r ← v.record? (arity v 4)
  some {
    since := ← r.optional "since" 0 Json.str?
    timeoutSeconds := ← r.optional "timeout_secs" 1 Json.uint64?
    periodSeconds := ← r.optional "period_secs" 2 Json.uint64?
    confirm := ← r.defaulted "confirm" 3 false Json.bool? }

def ofJson? (arity : Arity) (v : Json) : Option Config := do
  let r ← v.record? (arity v 3)
  some {
    github := ← r.defaulted "github" 0 {} (GitHub.ofJson? arity)
    jira := ← r.defaulted "jira" 1 {} (Jira.ofJson? arity)
    sync := ← r.defaulted "sync" 2 {} (Sync.ofJson? arity) }

/-- The configuration in the text of a file. -/
def ofText? (text : String) : Option Config :=
  (Toml.parse? text).bind (ofJson? generous)

end Config

end IssueBridge
