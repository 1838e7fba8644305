import IssueBridge.Proofs.MirroredFields
import IssueBridge.Proofs.Surroundings

/-!
# Change detection

When a Jira issue agrees with its GitHub issue, said attribute by attribute, and what a write leaves
behind: an issue that agrees, with all fields that are not tracked as they were.
-/

namespace IssueBridge.Proofs

open Jira (CustomValue FieldNumbers TrackedField)

variable {ids : FieldNumbers} {g : GitHub.Issue} {j : Jira.Issue} {v : CustomValue} {s : String}
  {held held' : List String}

/-- A label with a hyphen for each space. -/
def asHeld (label : String) : String :=
  String.ofList (label.toList.map fun c => if c = ' ' then '-' else c)

/-- The attributes of a GitHub issue are those that a Jira issue holds. -/
structure Agrees (ids : FieldNumbers) (g : GitHub.Issue) (j : Jira.Issue) : Prop where
  title : g.title = j.summary
  body : g.body = j.description
  status : j.field (ids.key .githubStatus) = .text g.state
  reporter : j.field (ids.key .githubReporter) = .text g.reporter
  labels : g.labels = [] ∨ ∃ held, j.field (ids.key .githubLabels) = .list held ∧
    ∀ label ∈ g.labels, asHeld label ∈ held

/-- What a write leaves of a Jira issue. -/
structure Cleared (ids : FieldNumbers) (g : GitHub.Issue) (j j' : Jira.Issue) : Prop where
  fresh : isOutdated g j' ids = false
  githubId : j'.field (ids.key .githubId) = j.field (ids.key .githubId)
  githubNumber : j'.field (ids.key .githubNumber) = j.field (ids.key .githubNumber)
  untracked : ∀ k, k ≠ ids.key .githubStatus → k ≠ ids.key .githubReporter →
    k ≠ ids.key .githubLabels → k ≠ ids.key .lastSync → j'.custom.get? k = j.custom.get? k

/-- A Jira issue with labels in its label field. -/
def withLabels (ids : FieldNumbers) (held : List String) (j : Jira.Issue) : Jira.Issue :=
  { j with custom := j.custom.insert (ids.key .githubLabels) (.list held) }

/-! ## Agreement -/

lemma text?_eq_some_iff : v.text? = some s ↔ v = .text s := by
  cases v <;> simp [CustomValue.text?]

lemma list?_eq_some_iff : v.list? = some held ↔ v = .list held := by
  cases v <;> simp [CustomValue.list?]

lemma labelsAgree_iff (labels : List String) (v : CustomValue) :
    labelsAgree labels v = true ↔
      labels = [] ∨ ∃ held, v = .list held ∧ ∀ label ∈ labels, asHeld label ∈ held := by
  unfold labelsAgree hyphenated
  rw [Bool.or_eq_true, List.isEmpty_iff]
  refine or_congr Iff.rfl ?_
  cases hlist : v.list? with
  | none =>
    refine ⟨nofun, ?_⟩
    rintro ⟨held, rfl, -⟩
    cases hlist
  | some held =>
    rw [list?_eq_some_iff.mp hlist]
    dsimp only
    rw [List.all_eq_true]
    constructor
    · exact fun hall => ⟨held, rfl, fun label hlabel =>
        List.contains_iff_mem.mp (hall _ (List.mem_map_of_mem hlabel))⟩
    · rintro ⟨own, hown, hall⟩ x hx
      obtain rfl := CustomValue.list.inj hown
      obtain ⟨label, hlabel, rfl⟩ := List.mem_map.mp hx
      exact List.contains_iff_mem.mpr (hall label hlabel)

lemma isOutdated_eq_false_iff_agrees : isOutdated g j ids = false ↔ Agrees ids g j := by
  rw [isOutdated_eq_false_iff, text?_eq_some_iff, text?_eq_some_iff, labelsAgree_iff]
  constructor
  · rintro ⟨htitle, hbody, hstatus, hreporter, hlabels⟩
    exact ⟨htitle, hbody, hstatus, hreporter, hlabels⟩
  · rintro ⟨htitle, hbody, hstatus, hreporter, hlabels⟩
    exact ⟨htitle, hbody, hstatus, hreporter, hlabels⟩

/-- Agreement asks for each label once, in no order. -/
lemma agrees_labels {labels : List String} (hsub : labels ⊆ g.labels) (h : Agrees ids g j) :
    Agrees ids { g with labels } j := by
  refine ⟨h.title, h.body, h.status, h.reporter, ?_⟩
  rcases h.labels with hnil | ⟨held, hheld, hall⟩
  · rw [hnil] at hsub
    exact Or.inl (List.subset_nil.mp hsub)
  · exact Or.inr ⟨held, hheld, fun label hlabel => hall label (hsub hlabel)⟩

lemma field_withLabels (hids : Function.Injective ids.number) (held : List String) (j : Jira.Issue)
    {f : TrackedField} (hf : f ≠ .githubLabels) :
    (withLabels ids held j).field (ids.key f) = j.field (ids.key f) := by
  unfold withLabels Jira.Issue.field
  rw [Dictionary.get?_insert_of_ne _ _ fun heq => hf (key_injective hids heq)]

lemma labels_withLabels (ids : FieldNumbers) (held : List String) (j : Jira.Issue) :
    (withLabels ids held j).field (ids.key .githubLabels) = .list held := by
  unfold withLabels Jira.Issue.field
  rw [Dictionary.get?_insert_self]
  rfl

/-- More labels in the Jira issue do not matter. -/
lemma agrees_withLabels (hids : Function.Injective ids.number) (hsub : held ⊆ held')
    (h : Agrees ids g (withLabels ids held j)) : Agrees ids g (withLabels ids held' j) := by
  have hstatus := h.status
  have hreporter := h.reporter
  rw [field_withLabels hids _ _ (by decide)] at hstatus hreporter
  refine ⟨h.title, h.body, ?_, ?_, ?_⟩
  · rw [field_withLabels hids _ _ (by decide), hstatus]
  · rw [field_withLabels hids _ _ (by decide), hreporter]
  · rw [labels_withLabels]
    refine h.labels.imp_right ?_
    rintro ⟨own, hown, hall⟩
    rw [labels_withLabels] at hown
    obtain rfl := CustomValue.list.inj hown
    exact ⟨held', rfl, fun label hlabel => hsub (hall label hlabel)⟩

/-! ## Writes -/

lemma cleared_overwrite (hids : Function.Injective ids.number) (g : GitHub.Issue) (j : Jira.Issue)
    (issueType : String) (now : Instant) :
    Cleared ids g j (j.overwrite (renewedDraft g j ids issueType now)) := by
  have hfield : ∀ f, List.lookup f (trackedFields g now) = none →
      (j.overwrite (renewedDraft g j ids issueType now)).field (ids.key f) =
        j.field (ids.key f) := by
    intro f hf
    unfold Jira.Issue.field
    rw [get?_overwrite, lookup_keyed (key_injective hids), hf, Option.none_or]
  refine ⟨isOutdated_overwrite hids g j issueType now, hfield _ rfl, hfield _ rfl, ?_⟩
  intro k hstatus hreporter hlabels hsync
  have hnone : List.lookup k (keyed ids (trackedFields g now)) = none := by
    simp [keyed, trackedFields, List.lookup_eq_none_iff, hstatus, hreporter, hlabels, hsync]
  rw [get?_overwrite, hnone, Option.none_or]

/-- An issue is outdated unless all its attributes agree, whatever the order and number of its
labels and whichever others Jira holds. A write makes an issue agree and leaves alone what it does
not track, and a new issue agrees from the start. -/
theorem writes_settle (hids : Function.Injective ids.number) (g : GitHub.Issue) (j : Jira.Issue)
    (issueType : String) (now : Instant) :
    (isOutdated g j ids = false ↔ Agrees ids g j) ∧
    (∀ labels, (∀ label, label ∈ labels ↔ label ∈ g.labels) →
      isOutdated { g with labels } j ids = isOutdated g j ids) ∧
    (∀ held held', held ⊆ held' → isOutdated g (withLabels ids held j) ids = false →
      isOutdated g (withLabels ids held' j) ids = false) ∧
    Cleared ids g j (j.overwrite (renewedDraft g j ids issueType now)) ∧
    ∀ id key comments, isOutdated g
      { (newDraft g ids issueType now).toIssue with id, key, comments } ids = false := by
  refine ⟨isOutdated_eq_false_iff_agrees, fun labels hsame => ?_, fun held held' hsub h => ?_,
    cleared_overwrite hids g j issueType now, fun id key comments => ?_⟩
  · rw [Bool.eq_iff_iff, ← not_iff_not, Bool.not_eq_true, Bool.not_eq_true,
      isOutdated_eq_false_iff_agrees, isOutdated_eq_false_iff_agrees]
    exact ⟨agrees_labels (g := { g with labels }) fun label => (hsame label).mpr,
      agrees_labels fun label => (hsame label).mp⟩
  · rw [isOutdated_eq_false_iff_agrees] at h ⊢
    exact agrees_withLabels hids hsub h
  · exact isOutdated_newIssue hids g issueType now key

/-! ## An issue with a label -/

/-- An issue whose label has a space in it. -/
def labelled : GitHub.Issue :=
  { discussed with labels := ["good first"] }

/-- A Jira issue that does not hold the label, but a field of its own. -/
def unlabelled : Jira.Issue :=
  { key := "A-1", custom := [("customfield_9", .text "kept")] }

theorem writes_settle_labelled :
    Function.Injective sampleIds.number ∧ isOutdated labelled unlabelled sampleIds = true ∧
      Cleared sampleIds labelled unlabelled
        (unlabelled.overwrite (renewedDraft labelled unlabelled sampleIds "Task" default)) := by
  have hsettle := writes_settle sampleIds_injective labelled unlabelled "Task" default
  exact ⟨sampleIds_injective, by decide, hsettle.2.2.2.1⟩

end IssueBridge.Proofs
