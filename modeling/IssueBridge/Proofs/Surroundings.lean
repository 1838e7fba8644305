import IssueBridge.Proofs.MemoryCalls
import IssueBridge.Proofs.PostedComments
import Mathlib.Algebra.Ring.Nat

/-!
# Surroundings of a pass

What GitHub serves to a pass, and collaborators in memory that never give a name twice. A small
repository and a small project show that both exist.
-/

namespace IssueBridge.Proofs

/-- What GitHub serves can be told apart by its identifiers. -/
structure Numbered (m : Memory) : Prop where
  issues : (m.issues.map GitHub.Issue.id).Nodup
  small : ∀ g ∈ m.issues, g.id.toInt.natAbs ≤ 2 ^ 53
  comments : ∀ g ∈ m.issues, Distinct (listedComments m g)

/-- The headers of comments can be read back, too. -/
structure Snapshot (m : Memory) : Prop extends Numbered m where
  legible : ∀ g ∈ m.issues, ∀ c ∈ listedComments m g, ∀ u, m.users.get? c.author = some u →
    Legible c u

/-- A name that is longer than all of a list together. -/
def unused (names : List String) : String :=
  names.foldr (· ++ ·) "+"

lemma length_unused_cons (name : String) (names : List String) :
    (unused (name :: names)).length = name.length + (unused names).length :=
  String.length_append name (unused names)

lemma length_unused_pos (names : List String) : 0 < (unused names).length := by
  induction names with
  | nil => decide
  | cons name names ih =>
    rw [length_unused_cons]
    omega

lemma length_lt_unused {names : List String} {name : String} (h : name ∈ names) :
    name.length < (unused names).length := by
  induction names with
  | nil => cases h
  | cons other names ih =>
    rw [length_unused_cons]
    rcases List.mem_cons.mp h with rfl | h
    · have hpositive := length_unused_pos names
      omega
    · have hlt := ih h
      omega

lemma unused_not_mem (names : List String) : unused names ∉ names :=
  fun h => absurd (length_lt_unused h) (Nat.lt_irrefl _)

/-- The identifiers of all comments of a project. -/
def commentIds (m : Memory) : List String :=
  m.project.flatMap fun j => j.comments.map Jira.Comment.id

/-- New names are unused ones. -/
def unusedNames (fails : Memory → String → Bool) : Memory.Rules :=
  { fails
    fault := "fault"
    newKey := fun m => unused (m.project.map Jira.Issue.key)
    newCommentId := fun m _ => unused (commentIds m)
    listAll := false }

lemma fresh_unusedNames (fails : Memory → String → Bool) : Fresh (unusedNames fails) := by
  refine ⟨fun m j hj hkey => ?_, fun m key j hj _ t ht hid => ?_⟩
  · refine unused_not_mem (m.project.map Jira.Issue.key) ?_
    change j.key = unused _ at hkey
    rw [← hkey]
    exact List.mem_map_of_mem hj
  · refine unused_not_mem (commentIds m) ?_
    change t.id = unused _ at hid
    rw [← hid]
    exact List.mem_flatMap.mpr ⟨j, hj, List.mem_map_of_mem ht⟩

/-! ## A small repository -/

/-- Different numbers for all tracked fields. -/
def sampleIds : Jira.FieldNumbers :=
  ⟨1, 2, 3, 4, 5, 6⟩

/-- A pass that writes. -/
def sampleSetting (fails : Memory → String → Bool) : Setting :=
  { rules := unusedNames fails
    ids := sampleIds
    dryRun := false
    repo := ⟨"owner", "name"⟩
    issueType := "Task"
    now := fun _ => default
    since := none }

/-- A comment on an issue. -/
def remark : GitHub.Comment :=
  ⟨3, "text", "bob", "url", default⟩

/-- The author of the comment. -/
def author : GitHub.User :=
  ⟨"bob", none, "url"⟩

/-- An issue with a comment. -/
def discussed : GitHub.Issue :=
  ⟨7, 1, "title", "body", "open", "bob", [], 1⟩

/-- An issue without comments. -/
def quiet : GitHub.Issue :=
  ⟨8, 2, "other", "body", "open", "bob", [], 0⟩

/-- Two issues, the first of which has an outdated mirror. -/
def sampleMemory : Memory :=
  { issues := [discussed, quiet]
    comments := [("1", [remark])]
    users := [("bob", author)]
    project := [{ key := "A-1", custom := [("customfield_1", .text "7")] }] }

/-- The memory after a pass over the sample repository. -/
def sampleRun (fails : Memory → String → Bool) (project : List Jira.Issue) : Memory :=
  ((sampleSetting fails).pass.run.run ⟨{ sampleMemory with project }, []⟩).2.state

lemma sampleIds_injective : Function.Injective sampleIds.number := by
  intro f f'
  cases f <;> cases f' <;> decide

lemma sample_orderly : Orderly sampleMemory.project :=
  ⟨by decide, by decide⟩

lemma sample_legible : Legible remark author := by
  refine ⟨by decide, by decide, by decide, by decide, ?_, by decide⟩
  intro name hname
  cases hname

lemma sample_snapshot : Snapshot sampleMemory := by
  have hcomments : ∀ g ∈ sampleMemory.issues, ∀ c ∈ listedComments sampleMemory g, c = remark := by
    decide
  refine ⟨⟨by decide, by decide, fun g hg => ⟨?_, fun c hc => ?_⟩⟩, fun g hg c hc u hu => ?_⟩
  · revert g
    decide
  · rw [hcomments g hg c hc]
    decide
  · rw [hcomments g hg c hc] at hu ⊢
    obtain rfl := Option.some.inj hu
    exact sample_legible

end IssueBridge.Proofs
