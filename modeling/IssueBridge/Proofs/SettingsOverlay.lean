import IssueBridge.Proofs.OrderedChecks
import IssueBridge.Settings.Basic
import Mathlib.Data.List.TakeWhile
import Mathlib.Tactic.ByContra

/-!
# Settings from two sources

The settings of a run overlay the configuration file with the command line. This file says which
text is used where both may give one, when the settings can be used, and which complaint is made if
they cannot. Whether the command line or the file gives a setting makes no difference.
-/

namespace IssueBridge

/-- The settings that both sources give as texts. -/
inductive TextSetting where
  | githubToken
  | repo
  | jiraUri
  | jiraProject
  | jiraUser
  | jiraToken
  | since
  deriving DecidableEq

namespace TextSetting

/-- What the command line has for a setting. -/
def flag (cli : CommandLine) : TextSetting → Option String
  | githubToken => cli.githubToken
  | repo => cli.repo
  | jiraUri => cli.jiraUri
  | jiraProject => cli.jiraProject
  | jiraUser => cli.jiraUser
  | jiraToken => cli.jiraToken
  | since => cli.since

/-- What the configuration file has for a setting. -/
def entry (file : Config) : TextSetting → Option String
  | githubToken => file.github.token
  | repo => file.github.repo
  | jiraUri => file.jira.uri
  | jiraProject => file.jira.project
  | jiraUser => file.jira.user
  | jiraToken => file.jira.apiToken
  | since => file.sync.since

/-- The command line with another text for a setting. -/
def setFlag (cli : CommandLine) (text : Option String) : TextSetting → CommandLine
  | githubToken => { cli with githubToken := text }
  | repo => { cli with repo := text }
  | jiraUri => { cli with jiraUri := text }
  | jiraProject => { cli with jiraProject := text }
  | jiraUser => { cli with jiraUser := text }
  | jiraToken => { cli with jiraToken := text }
  | since => { cli with since := text }

/-- The configuration file with another text for a setting. -/
def setEntry (file : Config) (text : Option String) : TextSetting → Config
  | githubToken => { file with github.token := text }
  | repo => { file with github.repo := text }
  | jiraUri => { file with jira.uri := text }
  | jiraProject => { file with jira.project := text }
  | jiraUser => { file with jira.user := text }
  | jiraToken => { file with jira.apiToken := text }
  | since => { file with sync.since := text }

end TextSetting

namespace Proofs

open Settings (Readers choose combine orError)

variable {readers : Readers} {file file' : Config} {cli cli' : CommandLine}
  {defaultStateFile : String} {e e' : SettingsError} {i : Nat}
  {flag entry used used' : Option String} {text path address : String} {t : TextSetting}
  {r : GitHub.Repo}

/-- A text of blanks only. -/
def Blank (text : String) : Prop :=
  ∀ c ∈ text.toList, Text.isBlank c = true

/-- What is used of a flag and an entry of the file: the flag unless it is blank, else the entry
unless that is blank, and no blanks around either. -/
inductive Overlaid : Option String → Option String → Option String → Prop
  | flag {text : String} (htext : ¬Blank text) (entry : Option String) :
    Overlaid (some text) entry (some (Text.trimmed text))
  | entry {flag : Option String} {text : String} (hflag : ∀ b ∈ flag, Blank b)
      (htext : ¬Blank text) : Overlaid flag (some text) (some (Text.trimmed text))
  | none {flag entry : Option String} (hflag : ∀ b ∈ flag, Blank b)
      (hentry : ∀ b ∈ entry, Blank b) : Overlaid flag entry none

/-- A setting has a text, or none. -/
def Uses (file : Config) (cli : CommandLine) (t : TextSetting) (used : Option String) : Prop :=
  Overlaid (t.flag cli) (t.entry file) used

/-- A text with exactly one slash and something on both sides of it. -/
def IsRepoPath (path : String) : Prop :=
  path.toList.count '/' = 1 ∧
    ∃ owner name : String, owner ≠ "" ∧ name ≠ "" ∧ path = owner ++ "/" ++ name

/-- The checks of the settings, by their numbers, and how they fail. -/
inductive Fails (readers : Readers) (file : Config) (cli : CommandLine) : Nat → SettingsError → Prop
  | githubToken (hnone : Uses file cli .githubToken none) :
    Fails readers file cli 0 .missingGitHubToken
  | repo (hnone : Uses file cli .repo none) : Fails readers file cli 1 .missingRepo
  | repoForm {path : String} (hpath : Uses file cli .repo (some path)) (hform : ¬IsRepoPath path) :
    Fails readers file cli 2 (.invalidRepo path)
  | jiraUri (hnone : Uses file cli .jiraUri none) : Fails readers file cli 3 .missingJiraUri
  | jiraUriForm {address : String} (haddress : Uses file cli .jiraUri (some address))
      (hform : readers.isAddress address = false) :
    Fails readers file cli 4 (.invalidJiraUri address)
  | jiraProject (hnone : Uses file cli .jiraProject none) :
    Fails readers file cli 5 .missingJiraProject
  | jiraUser (hnone : Uses file cli .jiraUser none) : Fails readers file cli 6 .missingJiraUser
  | jiraToken (hnone : Uses file cli .jiraToken none) : Fails readers file cli 7 .missingJiraToken
  | since {text : String} (htext : Uses file cli .since (some text))
      (hform : readers.instant? text = none) : Fails readers file cli 8 (.invalidSince text)

/-- Every required setting is there, and all that have a form have it. -/
structure Usable (readers : Readers) (file : Config) (cli : CommandLine) : Prop where
  required : ∀ t, t ≠ .since → ∃ text, Uses file cli t (some text)
  repo : ∀ path, Uses file cli .repo (some path) → IsRepoPath path
  jiraUri : ∀ address, Uses file cli .jiraUri (some address) →
    readers.isAddress address = true
  since : ∀ text, Uses file cli .since (some text) → (readers.instant? text).isSome = true

/-- The settings are those that the two sources give. -/
structure Gives (readers : Readers) (file : Config) (cli : CommandLine) (defaultStateFile : String)
    (s : Settings) : Prop where
  githubToken : Uses file cli .githubToken (some s.githubToken)
  repo : Uses file cli .repo (some (s.repo.owner ++ "/" ++ s.repo.name))
  jiraUri : Uses file cli .jiraUri (some s.jiraUri)
  jiraProject : Uses file cli .jiraProject (some s.jiraProject)
  jiraUser : Uses file cli .jiraUser (some s.jiraUser)
  jiraToken : Uses file cli .jiraToken (some s.jiraToken)
  since : ∃ used, Uses file cli .since used ∧ s.since = used.bind readers.instant?
  issueType : (file.jira.issueType = some s.issueType ∧ ¬Blank s.issueType) ∨
    ((∀ b ∈ file.jira.issueType, Blank b) ∧ s.issueType = "Task")
  timeout : s.timeoutSeconds = (cli.timeout.or file.sync.timeoutSeconds).getD 30
  period : s.periodSeconds = (cli.period.or file.sync.periodSeconds).getD 3600
  confirm : s.confirm = true ↔ cli.confirm = true ∨ file.sync.confirm = true
  stateFile : s.stateFile = cli.stateFile.getD defaultStateFile

/-! ## Overlaid texts -/

lemma blank_dropWhile_iff {s : List Char} :
    (∀ c ∈ s.dropWhile Text.isBlank, Text.isBlank c = true) ↔ ∀ c ∈ s, Text.isBlank c = true := by
  constructor
  · intro h c hc
    rw [← List.takeWhile_append_dropWhile (p := Text.isBlank) (l := s)] at hc
    rcases List.mem_append.mp hc with hc | hc
    · exact List.mem_takeWhile_imp hc
    · exact h c hc
  · exact fun h c hc => h c ((List.dropWhile_suffix _).subset hc)

lemma trimmed_eq_empty_iff : Text.trimmed text = "" ↔ Blank text := by
  unfold Text.trimmed Text.trim Text.trimLeft Blank
  rw [← String.toList_inj, String.toList_ofList, String.toList_empty, List.reverse_eq_nil_iff,
    List.dropWhile_eq_nil_iff, ← blank_dropWhile_iff (s := text.toList)]
  simp only [List.mem_reverse]

lemma choose_of_not_blank (htext : ¬Blank text) (entry : Option String) :
    choose (some text) entry = some (Text.trimmed text) := by
  unfold choose
  exact List.find?_cons_of_pos (by simpa using mt trimmed_eq_empty_iff.mp htext)

lemma choose_of_blank (hflag : ∀ b ∈ flag, Blank b) (entry : Option String) :
    choose flag entry = choose none entry := by
  cases flag with
  | none => rfl
  | some text =>
    have hblank := trimmed_eq_empty_iff.mpr (hflag text rfl)
    unfold choose
    exact List.find?_cons_of_neg (by simpa using hblank)

lemma choose_of_overlaid (h : Overlaid flag entry used) : choose flag entry = used := by
  cases h with
  | flag htext entry => exact choose_of_not_blank htext entry
  | entry hflag htext =>
    rw [choose_of_blank hflag]
    exact choose_of_not_blank htext none
  | none hflag hentry =>
    rw [choose_of_blank hflag]
    cases entry with
    | none => rfl
    | some text => exact choose_of_blank hentry none

lemma blank_or_exists (o : Option String) :
    (∀ b ∈ o, Blank b) ∨ ∃ text, o = some text ∧ ¬Blank text := by
  cases o with
  | none => exact Or.inl nofun
  | some text =>
    by_cases htext : Blank text
    · refine Or.inl ?_
      rintro _ ⟨⟩
      exact htext
    · exact Or.inr ⟨text, rfl, htext⟩

lemma overlaid_choose (flag entry : Option String) : Overlaid flag entry (choose flag entry) := by
  have hused : ∀ {used}, Overlaid flag entry used → Overlaid flag entry (choose flag entry) :=
    fun h => (choose_of_overlaid h).symm ▸ h
  rcases blank_or_exists flag with hflag | ⟨text, rfl, htext⟩
  · rcases blank_or_exists entry with hentry | ⟨text, rfl, htext⟩
    · exact hused (.none hflag hentry)
    · exact hused (.entry hflag htext)
  · exact hused (.flag htext entry)

lemma overlaid_iff : Overlaid flag entry used ↔ choose flag entry = used :=
  ⟨choose_of_overlaid, fun h => h ▸ overlaid_choose flag entry⟩

lemma uses_iff : Uses file cli t used ↔ choose (t.flag cli) (t.entry file) = used :=
  overlaid_iff

/-! ## Paths of repositories -/

/-- Two texts with a slash between them are taken apart again if there is no other slash. -/
lemma pieces_eq_pair_iff {s owner name : List Char} :
    Text.pieces '/' s = [owner, name] ↔ s = owner ++ '/' :: name ∧ s.count '/' = 1 := by
  constructor
  · intro h
    have hjoin : ['/'].intercalate (s.splitOn '/') = s := List.intercalate_splitOn '/'
    rw [← Text.pieces_eq_splitOn, h] at hjoin
    have hs : s = owner ++ '/' :: name := by simpa using hjoin.symm
    have howner : '/' ∉ owner := Text.not_mem_of_mem_pieces (h ▸ List.mem_cons_self)
    have hname : '/' ∉ name :=
      Text.not_mem_of_mem_pieces (h ▸ List.mem_cons_of_mem _ List.mem_cons_self)
    refine ⟨hs, ?_⟩
    rw [hs, List.count_append, List.count_cons_self, List.count_eq_zero.mpr howner,
      List.count_eq_zero.mpr hname]
  · rintro ⟨rfl, hcount⟩
    rw [List.count_append, List.count_cons_self] at hcount
    have howner : '/' ∉ owner := List.count_eq_zero.mp (by omega)
    have hname : '/' ∉ name := List.count_eq_zero.mp (by omega)
    rw [Text.pieces_append_cons, Text.pieces_of_not_mem howner, Text.pieces_of_not_mem hname]
    rfl

lemma toList_path (owner name : String) :
    (owner ++ "/" ++ name).toList = owner.toList ++ '/' :: name.toList := by
  simp

lemma ofPath?_of_isRepoPath (h : IsRepoPath path) :
    ∃ r, GitHub.Repo.ofPath? path = some r ∧ path = r.owner ++ "/" ++ r.name := by
  obtain ⟨hcount, owner, name, howner, hname, rfl⟩ := h
  refine ⟨⟨owner, name⟩, ?_, rfl⟩
  unfold GitHub.Repo.ofPath?
  rw [pieces_eq_pair_iff.mpr ⟨toList_path owner name, hcount⟩]
  dsimp only
  rw [if_pos ⟨mt String.toList_eq_nil_iff.mp howner, mt String.toList_eq_nil_iff.mp hname⟩,
    String.ofList_toList, String.ofList_toList]

lemma isRepoPath_of_ofPath? (h : GitHub.Repo.ofPath? path = some r) :
    IsRepoPath path ∧ path = r.owner ++ "/" ++ r.name := by
  unfold GitHub.Repo.ofPath? at h
  split at h
  · rename_i owner name hpieces
    split at h
    · rename_i hne
      cases h
      obtain ⟨hpath, hcount⟩ := pieces_eq_pair_iff.mp hpieces
      have hjoin : path = String.ofList owner ++ "/" ++ String.ofList name := by
        rw [← String.toList_inj, toList_path, hpath, String.toList_ofList, String.toList_ofList]
      refine ⟨⟨hcount, _, _, ?_, ?_, hjoin⟩, hjoin⟩
      · exact fun h => hne.1 (by simpa using congrArg String.toList h)
      · exact fun h => hne.2 (by simpa using congrArg String.toList h)
    · cases h
  · cases h

/-! ## The checks -/

lemma uses_unique (h : Uses file cli t used) (h' : Uses file cli t used') :
    used = used' :=
  (uses_iff.mp h).symm.trans (uses_iff.mp h')

lemma fails_lt (h : Fails readers file cli i e) : i < 9 := by
  cases h <;> decide

lemma fails_unique (h : Fails readers file cli i e) (h' : Fails readers file cli i e') :
    e = e' := by
  cases h with
  | repoForm hpath _ =>
    cases h' with
    | repoForm hpath' _ => rw [Option.some.inj (uses_unique hpath hpath')]
  | jiraUriForm haddress _ =>
    cases h' with
    | jiraUriForm haddress' _ => rw [Option.some.inj (uses_unique haddress haddress')]
  | since htext _ =>
    cases h' with
    | since htext' _ => rw [Option.some.inj (uses_unique htext htext')]
  | _ =>
    cases h'
    rfl

lemma checked_orError {α : Type} {P : α → Prop} {o : Option α}
    (hfails : o = none → Fails readers file cli i e)
    (hpass : ∀ a, o = some a → P a ∧ ∀ e', ¬Fails readers file cli i e') :
    Checked (Fails readers file cli) i (i + 1) P (orError e o) := by
  cases o with
  | some a =>
    obtain ⟨ha, hnot⟩ := hpass a rfl
    exact checked_pass ha hnot
  | none => exact checked_fail (hfails rfl)

/-- A check that a setting is there. -/
lemma checked_present (hfails : Uses file cli t none → Fails readers file cli i e)
    (honly : ∀ e', Fails readers file cli i e' → Uses file cli t none) :
    Checked (Fails readers file cli) i (i + 1) (fun text => Uses file cli t (some text))
      (orError e (choose (t.flag cli) (t.entry file))) := by
  refine checked_orError (fun hnone => hfails (uses_iff.mpr hnone)) fun text htext => ?_
  have huses := uses_iff.mpr htext
  exact ⟨huses, fun e' he' => nomatch uses_unique huses (honly e' he')⟩

lemma checked_repoOf (hpath : Uses file cli .repo (some path)) :
    Checked (Fails readers file cli) 2 3 (fun r => path = r.owner ++ "/" ++ r.name)
      (Settings.repoOf path) := by
  refine checked_orError (fun hnone => .repoForm hpath fun hform => ?_) fun r hr => ?_
  · obtain ⟨r, hr, -⟩ := ofPath?_of_isRepoPath hform
    rw [hnone] at hr
    cases hr
  · obtain ⟨hform, hjoin⟩ := isRepoPath_of_ofPath? hr
    refine ⟨hjoin, fun e' hfails => ?_⟩
    cases hfails with
    | repoForm hpath' hform' =>
      cases uses_unique hpath hpath'
      exact hform' hform

lemma checked_addressOf (haddress : Uses file cli .jiraUri (some address)) :
    Checked (Fails readers file cli) 4 5 (fun a => a = address)
      (Settings.addressOf readers address) := by
  unfold Settings.addressOf
  split
  · rename_i hsome
    refine checked_pass rfl fun e' hfails => ?_
    cases hfails with
    | jiraUriForm haddress' hnone =>
      cases uses_unique haddress haddress'
      rw [hnone] at hsome
      cases hsome
  · rename_i hnone
    exact checked_fail (.jiraUriForm haddress (Bool.eq_false_iff.mpr hnone))

lemma checked_sinceOf? (hused : Uses file cli .since used) :
    Checked (Fails readers file cli) 8 9 (fun since => since = used.bind readers.instant?)
      (Settings.sinceOf? readers used) := by
  cases used with
  | none =>
    refine checked_pass rfl fun e' hfails => ?_
    cases hfails with
    | since htext _ => cases uses_unique hused htext
  | some text =>
    have hmap : Settings.sinceOf? readers (some text) =
        orError (.invalidSince text) ((readers.instant? text).map some) := by
      unfold Settings.sinceOf? Settings.sinceOf
      dsimp only
      cases readers.instant? text <;> rfl
    rw [hmap]
    refine checked_orError (fun hnone => .since hused (Option.map_eq_none_iff.mp hnone))
      fun since hsince => ?_
    obtain ⟨time, htime, rfl⟩ := Option.map_eq_some_iff.mp hsince
    refine ⟨htime.symm, fun e' hfails => ?_⟩
    cases hfails with
    | since htext hnone =>
      cases uses_unique hused htext
      rw [hnone] at htime
      cases htime

lemma issueType_cases (given : Option String) :
    let issueType := (given.filter fun text => Text.trimmed text ≠ "").getD Settings.usualIssueType
    (given = some issueType ∧ ¬Blank issueType) ∨
      ((∀ b ∈ given, Blank b) ∧ issueType = "Task") := by
  rcases blank_or_exists given with hblank | ⟨text, rfl, htext⟩
  · refine Or.inr ⟨hblank, ?_⟩
    have hnone : given.filter (fun text => Text.trimmed text ≠ "") = none := by
      refine Option.filter_eq_none_iff.mpr fun text htext => ?_
      simpa using trimmed_eq_empty_iff.mpr (hblank text htext)
    rw [hnone]
    rfl
  · have hsome : (some text).filter (fun text => Text.trimmed text ≠ "") = some text := by
      simpa [Option.filter_some] using mt trimmed_eq_empty_iff.mp htext
    rw [hsome]
    exact Or.inl ⟨rfl, htext⟩

/-- The checks of the settings, one after the other. -/
lemma checked_combine (readers : Readers) (file : Config) (cli : CommandLine)
    (defaultStateFile : String) :
    Checked (Fails readers file cli) 0 9 (Gives readers file cli defaultStateFile)
      (combine readers file cli defaultStateFile) := by
  unfold combine
  refine checked_bind (checked_present .githubToken fun | _, .githubToken h => h)
    fun githubToken hgithubToken => ?_
  refine checked_bind (checked_present .repo fun | _, .repo h => h) fun path hpath => ?_
  refine checked_bind (checked_repoOf hpath) fun repo hrepo => ?_
  refine checked_bind (checked_present .jiraUri fun | _, .jiraUri h => h)
    fun address haddress => ?_
  refine checked_bind (checked_addressOf haddress) fun jiraUri hjiraUri => ?_
  refine checked_bind (checked_present .jiraProject fun | _, .jiraProject h => h)
    fun jiraProject hjiraProject => ?_
  refine checked_bind (checked_present .jiraUser fun | _, .jiraUser h => h)
    fun jiraUser hjiraUser => ?_
  refine checked_bind (checked_present .jiraToken fun | _, .jiraToken h => h)
    fun jiraToken hjiraToken => ?_
  have hused := overlaid_choose (TextSetting.since.flag cli) (TextSetting.since.entry file)
  refine checked_bind (checked_sinceOf? hused) fun since hsince => ?_
  subst hrepo hjiraUri
  exact checked_pure {
    githubToken := hgithubToken
    repo := hpath
    jiraUri := haddress
    jiraProject := hjiraProject
    jiraUser := hjiraUser
    jiraToken := hjiraToken
    since := ⟨_, hused, hsince⟩
    issueType := issueType_cases file.jira.issueType
    timeout := rfl
    period := rfl
    confirm := iff_of_eq (Bool.or_eq_true _ _)
    stateFile := rfl }

lemma not_usable_of_none (ht : t ≠ .since) (hnone : Uses file cli t none) :
    ¬Usable readers file cli := by
  intro h
  obtain ⟨text, htext⟩ := h.required t ht
  cases uses_unique hnone htext

lemma exists_fails_of_none (ht : t ≠ .since) (hnone : Uses file cli t none) :
    ∃ i e, Fails readers file cli i e := by
  cases t with
  | githubToken => exact ⟨_, _, .githubToken hnone⟩
  | repo => exact ⟨_, _, .repo hnone⟩
  | jiraUri => exact ⟨_, _, .jiraUri hnone⟩
  | jiraProject => exact ⟨_, _, .jiraProject hnone⟩
  | jiraUser => exact ⟨_, _, .jiraUser hnone⟩
  | jiraToken => exact ⟨_, _, .jiraToken hnone⟩
  | since => exact absurd rfl ht

lemma not_fails_of_usable (h : Usable readers file cli) : ¬Fails readers file cli i e := by
  intro hfails
  cases hfails with
  | githubToken hnone | repo hnone | jiraUri hnone | jiraProject hnone | jiraUser hnone
  | jiraToken hnone => exact not_usable_of_none (by decide) hnone h
  | repoForm hpath hform => exact hform (h.repo _ hpath)
  | jiraUriForm haddress hform =>
    have hread := h.jiraUri _ haddress
    rw [hform] at hread
    cases hread
  | since htext hform =>
    have hread := h.since _ htext
    rw [hform] at hread
    cases hread

lemma usable_iff : Usable readers file cli ↔ ∀ i e, ¬Fails readers file cli i e := by
  refine ⟨fun h i e => not_fails_of_usable h, fun h => ⟨fun t ht => ?_, fun path hpath => ?_,
    fun address haddress => ?_, fun text htext => ?_⟩⟩
  · have hchoose := overlaid_choose (t.flag cli) (t.entry file)
    cases hused : choose (t.flag cli) (t.entry file) with
    | some text => exact ⟨text, hused ▸ hchoose⟩
    | none =>
      obtain ⟨i, e, hfails⟩ := exists_fails_of_none ht (hused ▸ hchoose)
      exact absurd hfails (h i e)
  · by_contra hform
    exact h _ _ (.repoForm hpath hform)
  · by_contra hform
    exact h _ _ (.jiraUriForm haddress (Bool.eq_false_iff.mpr hform))
  · by_contra hform
    exact h _ _ (.since htext (Option.not_isSome_iff_eq_none.mp hform))

/-! ## Moving a setting -/

lemma flag_setFlag (cli : CommandLine) (text : Option String) (t u : TextSetting) :
    u.flag (t.setFlag cli text) = if u = t then text else u.flag cli := by
  cases t <;> cases u <;> rfl

lemma entry_setEntry (file : Config) (text : Option String) (t u : TextSetting) :
    u.entry (t.setEntry file text) = if u = t then text else u.entry file := by
  cases t <;> cases u <;> rfl

/-- The settings depend on what is used of the two sources only. -/
lemma combine_congr
    (htext : ∀ t : TextSetting, choose (t.flag cli') (t.entry file') =
      choose (t.flag cli) (t.entry file))
    (htype : file'.jira.issueType = file.jira.issueType)
    (htimeout : cli'.timeout.or file'.sync.timeoutSeconds =
      cli.timeout.or file.sync.timeoutSeconds)
    (hperiod : cli'.period.or file'.sync.periodSeconds = cli.period.or file.sync.periodSeconds)
    (hconfirm : (cli'.confirm || file'.sync.confirm) = (cli.confirm || file.sync.confirm))
    (hstate : cli'.stateFile = cli.stateFile) :
    combine readers file' cli' defaultStateFile = combine readers file cli defaultStateFile := by
  have hgithubToken := htext .githubToken
  have hrepo := htext .repo
  have hjiraUri := htext .jiraUri
  have hjiraProject := htext .jiraProject
  have hjiraUser := htext .jiraUser
  have hjiraToken := htext .jiraToken
  have hsince := htext .since
  unfold TextSetting.flag TextSetting.entry at *
  unfold combine
  rw [hgithubToken, hrepo, hjiraUri, hjiraProject, hjiraUser, hjiraToken, hsince, htype, htimeout,
    hperiod, hconfirm, hstate]

lemma choose_moved (htext : ¬Blank text) (entry : Option String) :
    choose none (some text) = choose (some text) entry := by
  rw [choose_of_not_blank htext]
  exact choose_of_not_blank htext none

lemma combine_moved (hflag : t.flag cli = some text) (htext : ¬Blank text) :
    combine readers (t.setEntry file (some text)) (t.setFlag cli none) defaultStateFile =
      combine readers file cli defaultStateFile := by
  refine combine_congr (fun u => ?_) ?_ ?_ ?_ ?_ ?_
  · rw [flag_setFlag, entry_setEntry]
    by_cases hu : u = t
    · rw [if_pos hu, if_pos hu, hu, hflag]
      exact choose_moved htext _
    · rw [if_neg hu, if_neg hu]
  all_goals
    cases t <;> rfl

/-- The settings of a run overlay the file with the command line. They can be used if all that are
required are there and have their form; else the first check that fails says why. A text that is
not blank may be moved from the command line to the file, and so may the two numbers. -/
theorem settings_overlaid (readers : Readers) (file : Config) (cli : CommandLine)
    (defaultStateFile : String) :
    ((∃ s, combine readers file cli defaultStateFile = .ok s) ↔ Usable readers file cli) ∧
    (∀ s, combine readers file cli defaultStateFile = .ok s →
      Gives readers file cli defaultStateFile s) ∧
    (∀ e, combine readers file cli defaultStateFile = .error e ↔
      FirstFailure (Fails readers file cli) e) ∧
    (∀ t : TextSetting, ∀ text, t.flag cli = some text → ¬Blank text →
      combine readers (t.setEntry file (some text)) (t.setFlag cli none) defaultStateFile =
        combine readers file cli defaultStateFile) ∧
    (∀ n, cli.timeout = some n →
      combine readers { file with sync.timeoutSeconds := some n } { cli with timeout := none }
        defaultStateFile = combine readers file cli defaultStateFile) ∧
    ∀ n, cli.period = some n →
      combine readers { file with sync.periodSeconds := some n } { cli with period := none }
        defaultStateFile = combine readers file cli defaultStateFile := by
  have hchecked := checked_combine readers file cli defaultStateFile
  refine ⟨?_, fun s => checked_result hchecked, fun e => ?_, fun t text => combine_moved,
    fun n hn => ?_, fun n hn => ?_⟩
  · rw [checked_ok_iff hchecked fun _ _ => fails_lt, usable_iff]
  · exact checked_error_iff hchecked (fun _ _ => fails_lt) fun _ _ _ => fails_unique
  · exact combine_congr (fun _ => rfl) rfl (by rw [hn]; rfl) rfl rfl rfl
  · exact combine_congr (fun _ => rfl) rfl rfl (by rw [hn]; rfl) rfl rfl

/-- A blank flag gives way to the file, and the form of the path is checked before the address. -/
example (readers : Readers) :
    combine readers { github := { token := some "t", repo := some "octo" } }
      { githubToken := some " " } "state.json" = .error (.invalidRepo "octo") := by
  rfl

end Proofs

end IssueBridge
