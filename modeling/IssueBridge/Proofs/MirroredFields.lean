import IssueBridge.Plan.Attributes
import IssueBridge.Plan.IssuePlan
import IssueBridge.Proofs.DictionaryEntries
import IssueBridge.Proofs.WholeDoubles
import Mathlib.Logic.Function.Defs

/-!
# Fields of a mirrored issue

What a write leaves in the fields of a Jira issue: it agrees with its GitHub issue afterwards,
stands for the same GitHub issue as before, and apart from the time of the write it does not matter
when the write happens.
-/

namespace IssueBridge.Proofs

open Jira (CustomValue FieldNumbers TrackedField)

variable {ids : FieldNumbers} {g : GitHub.Issue} {i j j' : Jira.Issue}

/-! ## Keys -/

lemma key_injective (hids : Function.Injective ids.number) : Function.Injective ids.key := by
  intro f f' h
  have hchars := congrArg String.toList h
  unfold FieldNumbers.key FieldNumbers.id at hchars
  simp only [String.toList_append, String.toList_ofList] at hchars
  have hdigits := List.append_cancel_left hchars
  have hnumber : (ids.number f).toInt = (ids.number f').toInt := by
    have hread := congrArg Decimal.toInt? hdigits
    rw [Decimal.toInt?_ofInt, Decimal.toInt?_ofInt] at hread
    exact Option.some.inj hread
  exact hids (Int64.toInt_inj.mp hnumber)

/-- Entries under the keys of their fields. -/
def keyed (ids : FieldNumbers) (fields : List (TrackedField × CustomValue)) :
    List (String × CustomValue) :=
  fields.map fun (f, value) => (ids.key f, value)

lemma lookup_keyed (hkey : Function.Injective ids.key) (f : TrackedField)
    (fields : List (TrackedField × CustomValue)) :
    List.lookup (ids.key f) (keyed ids fields) = List.lookup f fields := by
  induction fields with
  | nil => rfl
  | cons entry fields ih =>
    obtain ⟨f', value⟩ := entry
    change List.lookup (ids.key f) ((ids.key f', value) :: keyed ids fields) = _
    rw [List.lookup_cons, List.lookup_cons, ih]
    by_cases h : f = f'
    · subst h
      simp
    · have hf : (f == f') = false := by simpa using h
      have hk : (ids.key f == ids.key f') = false := by simpa using fun heq => h (hkey heq)
      rw [hf, hk]

/-- The fields that every write carries, the last of them first. -/
def trackedFields (g : GitHub.Issue) (now : Instant) : List (TrackedField × CustomValue) :=
  [(.lastSync, .text now.syncText), (.githubLabels, .list (hyphenated g.labels)),
    (.githubReporter, .text g.reporter), (.githubStatus, .text g.state)]

/-- The fields of a new issue, the last of them first. -/
def newFields (g : GitHub.Issue) (now : Instant) : List (TrackedField × CustomValue) :=
  [(.githubNumber, .ofInt64 g.number.toInt64), (.githubId, .ofInt64 g.id)] ++ trackedFields g now

lemma reverse_trackedEntries (g : GitHub.Issue) (ids : FieldNumbers) (now : Instant) :
    (trackedEntries g ids now).reverse = keyed ids (trackedFields g now) :=
  rfl

lemma reverse_newEntries (g : GitHub.Issue) (ids : FieldNumbers) (now : Instant) :
    (trackedEntries g ids now ++ identityEntries g ids).reverse = keyed ids (newFields g now) := by
  rw [List.reverse_append]
  rfl

lemma get?_overwrite (j : Jira.Issue) (g : GitHub.Issue) (ids : FieldNumbers) (issueType : String)
    (now : Instant) (k : String) :
    (j.overwrite (renewedDraft g j ids issueType now)).custom.get? k =
      (List.lookup k (keyed ids (trackedFields g now))).or (j.custom.get? k) := by
  unfold renewedDraft Jira.Issue.overwrite
  rw [get?_insertAll_ofList, reverse_trackedEntries]

lemma get?_newDraft (g : GitHub.Issue) (ids : FieldNumbers) (issueType : String) (now : Instant)
    (k : String) :
    (newDraft g ids issueType now).toIssue.custom.get? k =
      List.lookup k (keyed ids (newFields g now)) := by
  unfold newDraft Jira.Draft.toIssue
  rw [get?_ofList, reverse_newEntries]

/-! ## Agreement -/

lemma isOutdated_eq_false_iff :
    isOutdated g j ids = false ↔
      g.title = j.summary ∧ g.body = j.description ∧
        (j.field (ids.key .githubStatus)).text? = some g.state ∧
        (j.field (ids.key .githubReporter)).text? = some g.reporter ∧
        labelsAgree g.labels (j.field (ids.key .githubLabels)) = true := by
  unfold isOutdated
  simp only [Bool.or_eq_false_iff, bne_eq_false_iff_eq, Bool.not_eq_false', and_assoc]

lemma labelsAgree_hyphenated (labels : List String) :
    labelsAgree labels (.list (hyphenated labels)) = true := by
  unfold labelsAgree CustomValue.list?
  dsimp only
  rw [Bool.or_eq_true]
  refine Or.inr (List.all_eq_true.mpr fun label hlabel => ?_)
  exact List.contains_iff_mem.mpr hlabel

/-- An issue that holds the tracked attributes is up to date. -/
lemma isOutdated_of_fields (now : Instant) (htitle : j.summary = g.title)
    (hbody : j.description = g.body)
    (hfield : ∀ f value, List.lookup f (trackedFields g now) = some value →
      j.field (ids.key f) = value) :
    isOutdated g j ids = false := by
  have hstatus := hfield .githubStatus (.text g.state) rfl
  have hreporter := hfield .githubReporter (.text g.reporter) rfl
  have hlabels := hfield .githubLabels (.list (hyphenated g.labels)) rfl
  rw [isOutdated_eq_false_iff, hstatus, hreporter, hlabels]
  exact ⟨htitle.symm, hbody.symm, rfl, rfl, labelsAgree_hyphenated g.labels⟩

theorem isOutdated_overwrite (hids : Function.Injective ids.number) (g : GitHub.Issue)
    (j : Jira.Issue) (issueType : String) (now : Instant) :
    isOutdated g (j.overwrite (renewedDraft g j ids issueType now)) ids = false := by
  refine isOutdated_of_fields now rfl rfl fun f value hvalue => ?_
  unfold Jira.Issue.field
  rw [get?_overwrite, lookup_keyed (key_injective hids), hvalue]
  rfl

/-! ## New issues -/

/-- The issue that is created for a GitHub issue, under a key. -/
def newIssue (g : GitHub.Issue) (ids : FieldNumbers) (issueType : String) (now : Instant)
    (key : String) : Jira.Issue :=
  { (newDraft g ids issueType now).toIssue with id := key, key := key }

@[simp] lemma comments_newIssue (g : GitHub.Issue) (ids : FieldNumbers) (issueType : String)
    (now : Instant) (key : String) : (newIssue g ids issueType now key).comments = [] := by
  unfold newIssue
  rfl

lemma custom_newIssue (g : GitHub.Issue) (ids : FieldNumbers) (issueType : String) (now : Instant)
    (key : String) :
    (newIssue g ids issueType now key).custom = (newDraft g ids issueType now).toIssue.custom := by
  unfold newIssue
  dsimp only

lemma field_newIssue (hids : Function.Injective ids.number) (g : GitHub.Issue)
    (issueType : String) (now : Instant) (key : String) (f : TrackedField) :
    (newIssue g ids issueType now key).field (ids.key f) =
      (List.lookup f (newFields g now)).getD .missing := by
  unfold Jira.Issue.field
  rw [custom_newIssue, get?_newDraft, lookup_keyed (key_injective hids)]

theorem isOutdated_newIssue (hids : Function.Injective ids.number) (g : GitHub.Issue)
    (issueType : String) (now : Instant) (key : String) :
    isOutdated g (newIssue g ids issueType now key) ids = false := by
  refine isOutdated_of_fields now rfl rfl fun f value hvalue => ?_
  rw [field_newIssue hids]
  have hnew : List.lookup f (newFields g now) = some value := by
    unfold newFields
    rw [List.lookup_append]
    cases f with
    | githubId => cases hvalue
    | githubNumber => cases hvalue
    | githubLabels => exact hvalue
    | githubStatus => exact hvalue
    | githubReporter => exact hvalue
    | lastSync => exact hvalue
  rw [hnew, Option.getD_some]

/-- A new issue stands for the GitHub issue that it was created for. -/
theorem githubId?_newIssue (hids : Function.Injective ids.number)
    (hsmall : g.id.toInt.natAbs ≤ 2 ^ 53) (issueType : String) (now : Instant) (key : String) :
    IssuePlan.githubId? ids (newIssue g ids issueType now key) = some g.id := by
  unfold IssuePlan.githubId?
  have hlookup : List.lookup .githubId (newFields g now) = some (.ofInt64 g.id) := rfl
  rw [field_newIssue hids, hlookup, Option.getD_some]
  exact int64?_ofInt64 g.id hsmall

/-! ## Renewal -/

/-- An issue is written if it is outdated. -/
def Renewed (ids : FieldNumbers) (issueType : String) (g : GitHub.Issue) (j j' : Jira.Issue) :
    Prop :=
  (isOutdated g j ids = false ∧ j' = j) ∨
    (isOutdated g j ids = true ∧ ∃ now, j' = j.overwrite (renewedDraft g j ids issueType now))

variable {issueType : String}

lemma isOutdated_renewed (hids : Function.Injective ids.number)
    (h : Renewed ids issueType g j j') : isOutdated g j' ids = false := by
  rcases h with ⟨hfresh, rfl⟩ | ⟨-, now, rfl⟩
  · exact hfresh
  · exact isOutdated_overwrite hids g j issueType now

lemma key_renewed (h : Renewed ids issueType g j j') : j'.key = j.key := by
  rcases h with ⟨-, rfl⟩ | ⟨-, now, rfl⟩
  · rfl
  · rfl

lemma comments_renewed (h : Renewed ids issueType g j j') : j'.comments = j.comments := by
  rcases h with ⟨-, rfl⟩ | ⟨-, now, rfl⟩
  · rfl
  · rfl

/-- No write changes which GitHub issue an issue stands for. -/
theorem githubId?_renewed (hids : Function.Injective ids.number)
    (h : Renewed ids issueType g j j') :
    IssuePlan.githubId? ids j' = IssuePlan.githubId? ids j := by
  rcases h with ⟨-, rfl⟩ | ⟨-, now, rfl⟩
  · rfl
  · unfold IssuePlan.githubId? Jira.Issue.field
    rw [get?_overwrite, lookup_keyed (key_injective hids)]
    rfl

lemma isOutdated_comments (g : GitHub.Issue) (j : Jira.Issue) (ids : FieldNumbers)
    (comments : List Jira.Comment) :
    isOutdated g { j with comments } ids = isOutdated g j ids :=
  rfl

lemma githubId?_comments (ids : FieldNumbers) (j : Jira.Issue) (comments : List Jira.Comment) :
    IssuePlan.githubId? ids { j with comments } = IssuePlan.githubId? ids j :=
  rfl

/-- Comments and attributes are written independently of each other. -/
lemma renewed_comments (h : Renewed ids issueType g j j') (comments : List Jira.Comment) :
    Renewed ids issueType g { j with comments } { j' with comments } := by
  rcases h with ⟨hfresh, rfl⟩ | ⟨hold, now, rfl⟩
  · exact Or.inl ⟨hfresh, rfl⟩
  · exact Or.inr ⟨hold, now, rfl⟩

/-! ## Likeness -/

/-- Two issues hold the same, apart from what Jira names them and their comments, and from the
time of the last write. -/
structure Alike (ids : FieldNumbers) (i j : Jira.Issue) : Prop where
  summary : i.summary = j.summary
  description : i.description = j.description
  issueType : i.issueType = j.issueType
  custom : ∀ k, k ≠ ids.key .lastSync → i.custom.get? k = j.custom.get? k
  comments : i.comments.map Jira.Comment.body = j.comments.map Jira.Comment.body

lemma alike_refl (ids : FieldNumbers) (j : Jira.Issue) : Alike ids j j :=
  ⟨rfl, rfl, rfl, fun _ _ => rfl, rfl⟩

lemma field_alike (hids : Function.Injective ids.number) (h : Alike ids i j) {f : TrackedField}
    (hf : f ≠ .lastSync) : i.field (ids.key f) = j.field (ids.key f) := by
  unfold Jira.Issue.field
  rw [h.custom _ fun heq => hf (key_injective hids heq)]

lemma isOutdated_alike (hids : Function.Injective ids.number) (h : Alike ids i j)
    (g : GitHub.Issue) : isOutdated g i ids = isOutdated g j ids := by
  unfold isOutdated
  rw [h.summary, h.description, field_alike hids h (by decide), field_alike hids h (by decide),
    field_alike hids h (by decide)]

lemma lookup_trackedFields_alike {k : String} (hk : k ≠ ids.key .lastSync)
    (g : GitHub.Issue) (now now' : Instant) :
    List.lookup k (keyed ids (trackedFields g now)) =
      List.lookup k (keyed ids (trackedFields g now')) := by
  change List.lookup k ((ids.key .lastSync, _) :: keyed ids _) =
    List.lookup k ((ids.key .lastSync, _) :: keyed ids _)
  have hne : (k == ids.key .lastSync) = false := by simpa using hk
  rw [List.lookup_cons, List.lookup_cons, hne]

/-- When an issue is written does not matter but for the time of the last write. -/
theorem renewed_alike (hids : Function.Injective ids.number) {i' : Jira.Issue}
    (h : Alike ids i j) (hi : Renewed ids issueType g i i') (hj : Renewed ids issueType g j j') :
    Alike ids i' j' := by
  have hsame := isOutdated_alike hids h g
  rcases hi with ⟨hfresh, rfl⟩ | ⟨hold, now, rfl⟩
  · rcases hj with ⟨-, rfl⟩ | ⟨hold, -⟩
    · exact h
    · rw [← hsame, hfresh] at hold
      cases hold
  · rcases hj with ⟨hfresh, -⟩ | ⟨-, now', rfl⟩
    · rw [← hsame, hold] at hfresh
      cases hfresh
    · refine ⟨rfl, rfl, ?_, fun k hk => ?_, h.comments⟩
      · change some (i.issueType.getD issueType) = some (j.issueType.getD issueType)
        rw [h.issueType]
      · rw [get?_overwrite, get?_overwrite, h.custom k hk,
          lookup_trackedFields_alike hk g now now']

lemma newIssue_alike (g : GitHub.Issue) (ids : FieldNumbers) (issueType : String)
    (now now' : Instant) (key key' : String) :
    Alike ids (newIssue g ids issueType now key) (newIssue g ids issueType now' key') := by
  have hfields : ∀ t, keyed ids (newFields g t) =
      keyed ids [(.githubNumber, .ofInt64 g.number.toInt64), (.githubId, .ofInt64 g.id)] ++
        keyed ids (trackedFields g t) := fun _ => List.map_append
  refine ⟨?_, ?_, ?_, fun k hk => ?_, ?_⟩
  · exact Eq.trans (b := g.title) rfl rfl
  · exact Eq.trans (b := g.body) rfl rfl
  · exact Eq.trans (b := some issueType) rfl rfl
  · rw [custom_newIssue, custom_newIssue, get?_newDraft, get?_newDraft, hfields, hfields,
      List.lookup_append, List.lookup_append, lookup_trackedFields_alike hk g now now']
  · exact Eq.trans (b := []) rfl rfl

end IssueBridge.Proofs
