import IssueBridge.Proofs.SentFields

/-!
# Numbers in the fields of a mirror

A mirror holds the number of its GitHub issue as a double, whether it was just made or has been to
the server and back. It stands for the number that the double holds, which is the one that was
written unless that has more than 53 significant bits.
-/

namespace IssueBridge.Proofs

open IssuePlan (githubId? tasks)
open Jira (CustomValue Draft FieldNumbers)

variable {ids : FieldNumbers} {g : GitHub.Issue} {j : Jira.Issue} {issueType : String}
  {now : Instant}

/-- Custom fields after they were sent and read back. -/
def resent (d : Dictionary CustomValue) : Dictionary CustomValue :=
  d.map fun entry => (entry.1, CustomValue.ofJson entry.2.toJson)

/-- Sending changes nothing that a write contains. -/
lemma resent_eq {d : Draft} (hd : Transmissible d) : resent d.custom = d.custom := by
  have hread := ascending_map hd.ascending fun v => CustomValue.ofJson v.toJson
  refine eq_of_get? hread hd.ascending fun k => ?_
  refine (get?_map_value (fun v => CustomValue.ofJson v.toJson) d.custom k).trans ?_
  cases hv : d.custom.get? k with
  | none => rfl
  | some v => exact congrArg some (hd.custom k v hv).2.1

lemma custom_toIssue (d : Draft) : d.toIssue.custom = d.custom :=
  rfl

/-- An issue holds the custom fields of a new mirror, as they were made or after they were sent. -/
def Mirrors (ids : FieldNumbers) (issueType : String) (now : Instant) (g : GitHub.Issue)
    (j : Jira.Issue) : Prop :=
  j.custom = (newDraft g ids issueType now).custom ∨
    j.custom = resent (newDraft g ids issueType now).custom

lemma githubId?_of_mirrors (hids : Function.Injective ids.number)
    (hj : Mirrors ids issueType now g j) :
    githubId? ids j = CustomValue.wholeOf? (.ofInt g.id.toInt) := by
  have hcustom : j.custom = (newDraft g ids issueType now).toIssue.custom := by
    rw [custom_toIssue]
    rcases hj with hj | hj
    · exact hj
    · rw [hj, resent_eq (transmissible_newDraft g ids issueType now)]
  have hlookup : List.lookup .githubId (newFields g now) = some (.ofInt64 g.id) := rfl
  unfold githubId? Jira.Issue.field
  rw [hcustom, get?_newDraft, lookup_keyed (key_injective hids), hlookup]
  rfl

/-- A mirror goes with the GitHub issues whose number its double holds. If the number that was
written has at most 53 significant bits, that is the issue it was made for and no other; if it has
more, it is never that one. -/
theorem stored_number_matches (hids : Function.Injective ids.number)
    (hj : Mirrors ids issueType now g j) :
    (∀ h, tasks [h] [j] ids =
      if (Binary64.ofInt g.id.toInt).toInt? = some h.id.toInt then [.update h j]
      else [.create h]) ∧
    (Representable g.id.toInt → ∀ h, tasks [h] [j] ids =
      if h.id = g.id then [.update h j] else [.create h]) ∧
    (¬Representable g.id.toInt → tasks [g] [j] ids = [.create g]) := by
  have hmatch : ∀ h, tasks [h] [j] ids =
      if (Binary64.ofInt g.id.toInt).toInt? = some h.id.toInt then [.update h j]
      else [.create h] := by
    intro h
    rw [tasks_single, githubId?_of_mirrors hids hj]
    simp only [wholeOf?_eq_some_iff]
  refine ⟨hmatch, fun hshort h => ?_, fun hlong => ?_⟩
  · rw [hmatch, (toInt?_ofInt_iff (natAbs_toInt_lt g.id)).mpr hshort]
    simp only [Option.some.injEq, Int64.toInt_inj, eq_comm]
  · rw [hmatch, if_neg fun hown => hlong (representable_of_toInt? hown)]

/-! ## A number of 54 bits -/

/-- An issue with a number. -/
def numbered (id : Int64) : GitHub.Issue :=
  { discussed with id }

/-- The mirror that is made for it. -/
def mirrorOf (id : Int64) : Jira.Issue :=
  newIssue (numbered id) sampleIds "Task" default "A-1"

lemma mirrors_mirrorOf (id : Int64) :
    Mirrors sampleIds "Task" default (numbered id) (mirrorOf id) := by
  refine Or.inl ?_
  rw [mirrorOf, custom_newIssue, custom_toIssue]

theorem stored_number_matches_seven :
    tasks [numbered 7] [mirrorOf 7] sampleIds = [.update (numbered 7) (mirrorOf 7)] ∧
      tasks [numbered 8] [mirrorOf 7] sampleIds = [.create (numbered 8)] := by
  have hmatches := (stored_number_matches sampleIds_injective (mirrors_mirrorOf 7)).2.1
    (representable_of_natAbs_le (by decide))
  exact ⟨hmatches (numbered 7), hmatches (numbered 8)⟩

/-- The mirror of a number of 54 bits goes with the GitHub issue before, and not with its own. -/
theorem long_number_mismatched :
    tasks [numbered 9007199254740993] [mirrorOf 9007199254740993] sampleIds =
        [.create (numbered 9007199254740993)] ∧
      tasks [numbered 9007199254740992] [mirrorOf 9007199254740993] sampleIds =
        [.update (numbered 9007199254740992) (mirrorOf 9007199254740993)] := by
  have hstored : githubId? sampleIds (mirrorOf 9007199254740993) = some 9007199254740992 := by
    rw [githubId?_of_mirrors sampleIds_injective (mirrors_mirrorOf _)]
    decide +kernel
  rw [tasks_single, tasks_single, hstored]
  exact ⟨if_neg (by decide), if_pos rfl⟩

end IssueBridge.Proofs
