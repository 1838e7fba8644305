import IssueBridge.GitHub.Basic
import IssueBridge.Settings.CommandLine
import IssueBridge.Settings.Config

/-!
# Settings

The settings of a run, from the command line and the configuration file. A value of the command
line wins unless it is blank.
-/

namespace IssueBridge

structure Settings where
  githubToken : String
  repo : GitHub.Repo
  jiraUri : String
  jiraProject : String
  jiraUser : String
  jiraToken : String
  /-- The type of new Jira issues. -/
  issueType : String
  since : Option Instant
  timeoutSeconds : UInt64
  /-- The time between passes; zero for a single pass. -/
  periodSeconds : UInt64
  confirm : Bool
  stateFile : String
  deriving DecidableEq, Inhabited

/-- A setting that is missing or cannot be used. -/
inductive SettingsError where
  | missingGitHubToken
  | missingRepo
  | invalidRepo (given : String)
  | missingJiraUri
  | invalidJiraUri (given : String)
  | missingJiraProject
  | missingJiraUser
  | missingJiraToken
  | invalidSince (given : String)
  deriving DecidableEq, Inhabited

namespace SettingsError

def quoted (given : String) : String :=
  "'" ++ given ++ "'"

def message : SettingsError → String
  | missingGitHubToken => "GitHub token required"
  | missingRepo => "GitHub repository required"
  | invalidRepo given => "GitHub repository must be of form user/repo, got " ++ quoted given
  | missingJiraUri => "Jira URI required"
  | invalidJiraUri given => "Jira URI must be a valid http(s) URL, got " ++ quoted given
  | missingJiraProject => "Jira project required"
  | missingJiraUser => "Jira username required"
  | missingJiraToken => "Jira API token required"
  | invalidSince given => "since date must be in ISO-8601 format, got " ++ quoted given

end SettingsError

namespace Settings

/-- How the texts of settings are understood that follow a standard. -/
structure Readers where
  /-- Whether a text is the address of a server. -/
  isAddress : String → Bool
  /-- The instant of a date, if the text is one. -/
  instant? : String → Option Instant

/-- The first value that is not blank, without blanks around it. -/
def choose (flag file : Option String) : Option String :=
  ((flag.toList ++ file.toList).map Text.trimmed).find? fun value => value ≠ ""

def orError {α : Type} (e : SettingsError) : Option α → Except SettingsError α
  | some value => .ok value
  | none => .error e

def repoOf (path : String) : Except SettingsError GitHub.Repo :=
  orError (.invalidRepo path) (GitHub.Repo.ofPath? path)

def addressOf (readers : Readers) (address : String) : Except SettingsError String :=
  if readers.isAddress address then .ok address else .error (.invalidJiraUri address)

def sinceOf (readers : Readers) (text : String) : Except SettingsError Instant :=
  orError (.invalidSince text) (readers.instant? text)

def sinceOf? (readers : Readers) : Option String → Except SettingsError (Option Instant)
  | some text => (sinceOf readers text).map some
  | none => .ok none

/-- The type of new issues, unless a type that is not blank is given. -/
def usualIssueType : String :=
  "Task"

/-- The seconds for a request, unless a number is given. -/
def usualTimeout : UInt64 :=
  30

/-- The seconds between passes, unless a number is given. -/
def usualPeriod : UInt64 :=
  3600

/-- The settings of a run, or the first of them that is missing or cannot be used. -/
def combine (readers : Readers) (file : Config) (cli : CommandLine) (defaultStateFile : String) :
    Except SettingsError Settings := do
  let githubToken ← orError .missingGitHubToken (choose cli.githubToken file.github.token)
  let repoPath ← orError .missingRepo (choose cli.repo file.github.repo)
  let repo ← repoOf repoPath
  let jiraUri ← orError .missingJiraUri (choose cli.jiraUri file.jira.uri)
  let jiraUri ← addressOf readers jiraUri
  let jiraProject ← orError .missingJiraProject (choose cli.jiraProject file.jira.project)
  let jiraUser ← orError .missingJiraUser (choose cli.jiraUser file.jira.user)
  let jiraToken ← orError .missingJiraToken (choose cli.jiraToken file.jira.apiToken)
  let since ← sinceOf? readers (choose cli.since file.sync.since)
  return {
    githubToken, repo, jiraUri, jiraProject, jiraUser, jiraToken, since
    issueType :=
      (file.jira.issueType.filter fun t => Text.trimmed t ≠ "").getD usualIssueType
    timeoutSeconds := (cli.timeout.or file.sync.timeoutSeconds).getD usualTimeout
    periodSeconds := (cli.period.or file.sync.periodSeconds).getD usualPeriod
    confirm := cli.confirm || file.sync.confirm
    stateFile := cli.stateFile.getD defaultStateFile }

/-! ## Files -/

/-- The path of a name in a folder. -/
def inFolder (folder name : String) : String :=
  if folder.toList.getLast? = some '/' then folder ++ name else folder ++ "/" ++ name

/-- The home folder that the environment names; that of the administrator if it names none. -/
def homeFolder (named : Option String) : String :=
  (named.filter fun folder => folder ≠ "").getD "/root"

/-- The folder of the program in the home folder of a user. -/
def dataFolder (home : String) : String :=
  inFolder home ".issue-sync"

/-- The configuration file, unless another one is given. -/
def configFile (home : String) : String :=
  inFolder (dataFolder home) "config.toml"

/-- The file of the cutoff, unless another one is given. -/
def cutoffFile (home : String) : String :=
  inFolder (dataFolder home) "state.json"

end Settings

end IssueBridge
