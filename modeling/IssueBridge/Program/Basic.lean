import IssueBridge.Cutoff.Basic
import IssueBridge.GitHub.Client
import IssueBridge.Jira.Client
import IssueBridge.Pass.Run
import IssueBridge.Program.Machine
import IssueBridge.Settings.Basic
import IssueBridge.Time.Reader

/-!
# The program

A run reads its settings, connects to Jira, loads the cutoff, and then makes passes: a single one,
or one after another with a rest between them.
-/

namespace IssueBridge.Program

/-- What a run is started with. -/
structure Invocation where
  arguments : List String
  environment : Dictionary String
  /-- The home folder of the user. -/
  home : String
  deriving Inhabited

/-- What a run holds between its passes. -/
structure Session where
  settings : Settings
  client : Jira.Client Machine
  cutoff : Cutoff

/-- What becomes of a run. -/
inductive Exit where
  /-- The command line sets nothing. -/
  | stopped (reason : CommandLine.Stop)
  | failed (failure : Failure)
  | finished
  /-- The next pass is due after some seconds. -/
  | resting (session : Session) (seconds : UInt64)

def versionText : String :=
  "issue-sync 0.1.0"

/-- How many attempts and pages a run goes through at most for one call. -/
def patience : Nat :=
  1000000

def Exit.code : Exit → UInt32
  | .stopped .help | .stopped .version => 0
  | .stopped _ => 2
  | .failed _ => 1
  | .finished | .resting .. => 0

def helpText : String :=
  "Usage: issue-sync [OPTIONS]\n\nOptions:\n" ++
    String.join (CommandLine.Flag.all.map fun f =>
      "      --" ++ f.name ++ (if f.kind = .switch then "\n" else " <VALUE>\n")) ++
    "  -h, --help\n  -V, --version\n"

/-- What a run writes to its output. -/
def Exit.output : Exit → String
  | .stopped .help => helpText
  | .stopped .version => versionText ++ "\n"
  | _ => ""

/-- What a run writes to its error output at its end. -/
def Exit.complaint : Exit → String
  | .stopped .help | .stopped .version => ""
  | .stopped _ => "error: the arguments cannot be used; try '--help'\n"
  | .failed failure => "Error: " ++ failure.message ++ "\n"
  | _ => ""

/-- The way to servers under given settings. -/
def connection (s : Settings) : Http.Connection Machine :=
  { transport := Machine.transport
    policy := .ofTimeout (.ofSeconds s.timeoutSeconds)
    patience }

/-- The configuration in the file at a path; empty if there is none. -/
def readConfig (path : String) : Call Disk Config := do
  match ← (ExceptT.lift (onState fun d => (d.get? path, d)) : Call Disk (Option Entry)) with
  | none => return {}
  | some (.file text) =>
    match Config.ofText? text with
    | some config => return config
    | none => (Call.failing .configFile).within ("Failed to parse " ++ path)
  | some _ => (Call.failing .file).within ("Failed to read config from " ++ path)

/-- How the texts of the settings are understood. -/
def readers : Settings.Readers :=
  { isAddress := fun text => (Http.Url.parse? text).isSome
    instant? := Instant.ofSetting? }

/-- The settings of a run. -/
def loadSettings (cli : CommandLine) (home : String) : Call Machine Settings := do
  let path := cli.config.getD (Settings.configFile home)
  let file ← (readConfig path).onPart Machine.disk Machine.putDisk
  let combined := Settings.combine readers file cli (Settings.cutoffFile home)
  (Call.ofExcept (combined.mapError fun e => .other e.message)).within "Invalid configuration"

/-- The paths of the files that a run looks at, and of the folders above them. -/
def paths (i : Invocation) : List String :=
  match CommandLine.parse i.arguments i.environment with
  | .error _ => []
  | .ok cli =>
    let files := [cli.config.getD (Settings.configFile i.home),
      cli.stateFile.getD (Settings.cutoffFile i.home)]
    files.flatMap fun path => Disk.above path ++ [path]

/-- What it takes to connect to Jira. -/
def account (s : Settings) : Jira.Account :=
  { baseUrl := s.jiraUri, user := s.jiraUser, token := s.jiraToken, project := s.jiraProject
    dryRun := !s.confirm }

/-- Starts a run: everything up to its first pass. -/
def start (cli : CommandLine) (home : String) : Call Machine Session := do
  let settings ← loadSettings cli home
  if !settings.confirm then Call.emit .dryRun
  let client ← Jira.Client.connect (connection settings) (account settings)
  let cutoff ← Cutoff.load (Machine.store settings.stateFile)
  return { settings, client, cutoff }

/-- The pass that a session makes, with the time of each write. -/
def Session.pass (s : Session) (now : GitHub.Issue → Instant) : Pass Machine :=
  let github : GitHub.Client Machine :=
    { connection := connection s.settings, baseUrl := GitHub.publicAddress
      token := s.settings.githubToken }
  { source := github.source, target := s.client.target, ids := s.client.ids
    repo := s.settings.repo, issueType := s.settings.issueType, now
    since := s.cutoff.effective s.settings.since }

/-- One pass, and what is kept of it. It starts at a time that comes before its writes. -/
def Session.step (s : Session) (started : Instant) (now : GitHub.Issue → Instant) :
    Action Machine Exit := do
  let pass := s.pass now
  emit (.passStarting pass.repo pass.since)
  let outcome ← pass.run.run
  let oneShot := s.settings.periodSeconds == 0
  let (cutoff, result) ← s.cutoff.finish (Machine.store s.settings.stateFile) outcome started
    s.settings.confirm oneShot
  match result with
  | .error e => return .failed e
  | .ok () =>
    if oneShot then return .finished
    else return .resting { s with cutoff } s.settings.periodSeconds

/-- A run up to the end of its first pass. -/
def run (i : Invocation) (started : Instant) (now : GitHub.Issue → Instant) :
    Action Machine Exit := do
  match CommandLine.parse i.arguments i.environment with
  | .error reason => return .stopped reason
  | .ok cli =>
    match ← (start cli i.home).run with
    | .error e => return .failed e
    | .ok session => session.step started now

end IssueBridge.Program
