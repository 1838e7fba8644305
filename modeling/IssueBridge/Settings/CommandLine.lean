import IssueBridge.Dictionary
import IssueBridge.Number.Decimal
import IssueBridge.Text.Cut

/-!
# The command line

Options with their values, each given at most once. An option that is not given takes its value
from the environment, if there is one. A value may follow its option after an equals sign or as
the next argument; in the second case it is looked at when the next option comes or when the
arguments end.
-/

namespace IssueBridge

/-- How much is told about the course of a run. -/
inductive LogLevel where
  | error
  | warn
  | info
  | debug
  | trace
  deriving DecidableEq, Inhabited

namespace LogLevel

/-- All levels, from the least told to the most. -/
def all : List LogLevel :=
  [error, warn, info, debug, trace]

def name : LogLevel → String
  | error => "error"
  | warn => "warn"
  | info => "info"
  | debug => "debug"
  | trace => "trace"

def ofName? (name : String) : Option LogLevel :=
  all.find? fun level => level.name == name

end LogLevel

/-- What the command line sets. -/
structure CommandLine where
  config : Option String := none
  stateFile : Option String := none
  githubToken : Option String := none
  repo : Option String := none
  jiraUri : Option String := none
  jiraProject : Option String := none
  jiraUser : Option String := none
  jiraToken : Option String := none
  since : Option String := none
  timeout : Option UInt64 := none
  period : Option UInt64 := none
  confirm : Bool := false
  logLevel : LogLevel := .info
  deriving DecidableEq, Inhabited

namespace CommandLine

inductive Flag where
  | config
  | stateFile
  | githubToken
  | repo
  | jiraUri
  | jiraProject
  | jiraUser
  | jiraToken
  | since
  | timeout
  | period
  | confirm
  | logLevel
  deriving DecidableEq, Inhabited

/-- What an option takes. -/
inductive Kind where
  /-- A path, which is not empty. -/
  | path
  | text
  /-- A number of seconds. -/
  | seconds
  /-- Nothing; in the environment, a truth value. -/
  | switch
  /-- The name of a level. -/
  | level
  deriving DecidableEq

namespace Flag

/-- All options, in the order in which the environment is asked for them. -/
def all : List Flag :=
  [config, stateFile, githubToken, repo, jiraUri, jiraProject, jiraUser, jiraToken, since, timeout,
    period, confirm, logLevel]

def name : Flag → String
  | config => "config"
  | stateFile => "state-file"
  | githubToken => "github-token"
  | repo => "repo"
  | jiraUri => "jira-uri"
  | jiraProject => "jira-project"
  | jiraUser => "jira-user"
  | jiraToken => "jira-token"
  | since => "since"
  | timeout => "timeout"
  | period => "period"
  | confirm => "confirm"
  | logLevel => "log-level"

def environmentName (f : Flag) : String :=
  "ISSUE_SYNC_" ++ String.ofList (f.name.toList.map fun c => if c = '-' then '_' else c.toUpper)

/-- What an option takes. -/
def kind : Flag → Kind
  | config | stateFile => .path
  | timeout | period => .seconds
  | confirm => .switch
  | logLevel => .level
  | _ => .text

def ofName? (name : String) : Option Flag :=
  all.find? fun f => f.name == name

end Flag

/-- Why a command line sets nothing. -/
inductive Stop where
  /-- It asks for help. -/
  | help
  /-- It asks for the version. -/
  | version
  | unknownArgument
  | missingValue
  /-- A value is none of the possible ones. -/
  | invalidValue
  /-- A value is no number of seconds. -/
  | notSeconds
  /-- An option is given twice. -/
  | repeated
  /-- A value is given for an option that takes none. -/
  | surplusValue
  deriving DecidableEq, Inhabited

/-- Checks a value for an option. -/
def check (f : Flag) (value : String) : Except Stop Unit :=
  match f.kind with
  | .path => if value = "" then .error .invalidValue else .ok ()
  | .text => .ok ()
  | .seconds => if (Decimal.toUInt64? value.toList).isSome then .ok () else .error .notSeconds
  | .switch => if value = "true" ∨ value = "false" then .ok () else .error .invalidValue
  | .level => if (LogLevel.ofName? value).isSome then .ok () else .error .invalidValue

/-- The options with their values so far, and the option whose value is still to come or to be
looked at. -/
structure Scan where
  given : List (Flag × String) := []
  pending : Option (Flag × Option String) := none
  deriving DecidableEq, Inhabited

namespace Scan

def value? (s : Scan) (f : Flag) : Option String :=
  s.given.lookup f

/-- Takes an option with its value. -/
def accept (s : Scan) (f : Flag) (value : String) : Except Stop Scan :=
  if (s.value? f).isSome then .error .repeated
  else (check f value).map fun _ => { s with given := s.given ++ [(f, value)] }

/-- Takes the option that was left pending. -/
def settle (s : Scan) : Except Stop Scan :=
  match s.pending with
  | none => .ok s
  | some (_, none) => .error .missingValue
  | some (f, some value) => accept { s with pending := none } f value

/-- Ends with a request for help or the version. -/
def ask (s : Scan) (request : Stop) : Except Stop Scan :=
  match s.settle with
  | .ok _ => .error request
  | .error e => .error e

/-- The request that a long name makes. -/
def request? (name : String) : Option Stop :=
  if name = "help" then some .help else if name = "version" then some .version else none

/-- Takes a long option, with the value after its equals sign if there is one. -/
def long (s : Scan) (name : String) (value : Option String) : Except Stop Scan :=
  match request? name, Flag.ofName? name with
  | some request, _ => if value.isSome then .error .surplusValue else s.ask request
  | none, none => .error .unknownArgument
  | none, some f =>
    if f.kind = .switch then
      if value.isSome then .error .surplusValue
      else s.settle.bind fun s => s.accept f "true"
    else
      s.settle.bind fun s =>
        match value with
        | some v => s.accept f v
        | none => .ok { s with pending := some (f, none) }

/-- Takes an argument after a single hyphen, of which the first letter decides. -/
def short (s : Scan) (letter : Char) : Except Stop Scan :=
  if letter = 'h' then s.ask .help
  else if letter = 'V' then s.ask .version
  else .error .unknownArgument

/-- Takes an argument that is no option: the value of the option before it. -/
def plain (s : Scan) (argument : String) : Except Stop Scan :=
  match s.pending with
  | some (f, none) => .ok { s with pending := some (f, some argument) }
  | _ => .error .unknownArgument

def take (s : Scan) (argument : String) : Except Stop Scan :=
  match argument.toList with
  | '-' :: '-' :: rest =>
    match Text.splitFirst? ['='] rest with
    | some (name, value) => s.long (String.ofList name) (some (String.ofList value))
    | none => s.long (String.ofList rest) none
  | '-' :: letter :: _ => s.short letter
  | _ => s.plain argument

/-- Takes arguments up to their end. Nothing may follow two hyphens. -/
def takeAll (s : Scan) : List String → Except Stop Scan
  | [] => s.settle
  | argument :: rest =>
    if argument = "--" then if rest.isEmpty then s.settle else .error .unknownArgument
    else (s.take argument).bind fun s => takeAll s rest

/-- Takes options that were not given from the environment. -/
def takeEnvironment (environment : Dictionary String) (s : Scan) : List Flag → Except Stop Scan
  | [] => .ok s
  | f :: rest =>
    match s.value? f, environment.get? f.environmentName with
    | none, some value =>
      (s.accept f value).bind fun s => takeEnvironment environment s rest
    | _, _ => takeEnvironment environment s rest

/-- The number of seconds of an option. -/
def seconds? (s : Scan) (f : Flag) : Option UInt64 :=
  (s.value? f).bind fun v => Decimal.toUInt64? v.toList

def settings (s : Scan) : CommandLine :=
  { config := s.value? .config
    stateFile := s.value? .stateFile
    githubToken := s.value? .githubToken
    repo := s.value? .repo
    jiraUri := s.value? .jiraUri
    jiraProject := s.value? .jiraProject
    jiraUser := s.value? .jiraUser
    jiraToken := s.value? .jiraToken
    since := s.value? .since
    timeout := s.seconds? .timeout
    period := s.seconds? .period
    confirm := s.value? .confirm == some "true"
    logLevel := ((s.value? .logLevel).bind LogLevel.ofName?).getD .info }

end Scan

def parse (arguments : List String) (environment : Dictionary String) : Except Stop CommandLine :=
  ((Scan.takeAll {} arguments).bind fun s => s.takeEnvironment environment Flag.all).map
    Scan.settings

end CommandLine

end IssueBridge
