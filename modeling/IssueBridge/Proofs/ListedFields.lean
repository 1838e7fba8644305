import IssueBridge.Proofs.MirroredFields
import IssueBridge.Proofs.OrderedChecks
import Mathlib.Data.List.Nodup

/-!
# Tracked fields in a listing

Which entry of a listing gives a tracked field its number, which field is reported if a listing
lacks some, and what that means for the entries that are written: if the numbers differ, each field
has an entry of its own.
-/

namespace IssueBridge.Proofs

open Jira (CustomValue FieldEntry FieldNumbers TrackedField)

variable {listing listing' : List FieldEntry} {entry : FieldEntry} {f f' : TrackedField}
  {ids : FieldNumbers} {n : Int64} {i : Nat}

/-- An entry has the name of a field and a number. -/
def Numbers (f : TrackedField) (entry : FieldEntry) (n : Int64) : Prop :=
  entry.name = f.name ∧ entry.customId = some n

/-- An entry that is no entry of a field: it has another name, or no number. -/
def Silent (f : TrackedField) (entry : FieldEntry) : Prop :=
  entry.name ≠ f.name ∨ entry.customId = none

/-- A listing has an entry of a field. -/
def Listed (listing : List FieldEntry) (f : TrackedField) : Prop :=
  ∃ entry ∈ listing, ∃ n, Numbers f entry n

/-- A number is that of the first entry with the name of a field and any number. -/
inductive Chosen (listing : List FieldEntry) (f : TrackedField) (n : Int64) : Prop
  | intro {before after : List FieldEntry} {entry : FieldEntry}
    (hsplit : listing = before ++ entry :: after) (hentry : Numbers f entry n)
    (hbefore : ∀ other ∈ before, Silent f other)

/-- A listing lacks a field, which has a place among all tracked fields. -/
def Lacks (listing : List FieldEntry) (i : Nat) (f : TrackedField) : Prop :=
  TrackedField.all[i]? = some f ∧ ¬Listed listing f

/-- Entries of other fields, and entries without a number, are put anywhere into a listing. -/
inductive Widened (f : TrackedField) : List FieldEntry → List FieldEntry → Prop
  | nil : Widened f [] []
  | keep (entry : FieldEntry) {listing listing' : List FieldEntry}
    (h : Widened f listing listing') : Widened f (entry :: listing) (entry :: listing')
  | insert {entry : FieldEntry} (hentry : Silent f entry) {listing listing' : List FieldEntry}
    (h : Widened f listing listing') : Widened f listing (entry :: listing')

/-- The attribute of a GitHub issue that a field holds. -/
def contentOf (g : GitHub.Issue) (now : Instant) : TrackedField → CustomValue
  | .githubId => .ofInt64 g.id
  | .githubNumber => .ofInt64 g.number.toInt64
  | .githubLabels => .list (g.labels.map (Text.replace ' ' '-'))
  | .githubStatus => .text g.state
  | .githubReporter => .text g.reporter
  | .lastSync => .text now.syncText

/-- Entries of some fields, each with its own attribute. -/
def entriesOf (ids : FieldNumbers) (g : GitHub.Issue) (now : Instant)
    (fields : List TrackedField) : List (String × CustomValue) :=
  fields.map fun f => (ids.key f, contentOf g now f)

lemma mem_all (f : TrackedField) : f ∈ TrackedField.all := by
  cases f <;> decide

/-! ## One field -/

/-- The number that an entry gives a field. -/
def numberOf? (f : TrackedField) (entry : FieldEntry) : Option Int64 :=
  if entry.name = f.name then entry.customId else none

lemma numberOf?_eq_some_iff : numberOf? f entry = some n ↔ Numbers f entry n := by
  unfold numberOf? Numbers
  split <;> simp_all

lemma numberOf?_eq_none_iff : numberOf? f entry = none ↔ Silent f entry := by
  unfold numberOf? Silent
  split <;> simp_all

lemma find?_eq (listing : List FieldEntry) (f : TrackedField) :
    FieldNumbers.find? listing f = listing.findSome? (numberOf? f) := by
  unfold FieldNumbers.find?
  induction listing with
  | nil => rfl
  | cons entry listing ih =>
    rw [List.filter_cons, List.findSome?_cons, ← ih]
    unfold numberOf?
    by_cases hname : entry.name = f.name
    · rw [if_pos (beq_iff_eq.mpr hname), if_pos hname, List.findSome?_cons]
    · rw [if_neg (mt beq_iff_eq.mp hname), if_neg hname]

lemma find?_eq_some_iff : FieldNumbers.find? listing f = some n ↔ Chosen listing f n := by
  rw [find?_eq, List.findSome?_eq_some_iff]
  simp only [numberOf?_eq_some_iff, numberOf?_eq_none_iff]
  constructor
  · rintro ⟨before, entry, after, hsplit, hentry, hbefore⟩
    exact ⟨hsplit, hentry, hbefore⟩
  · rintro ⟨hsplit, hentry, hbefore⟩
    exact ⟨_, _, _, hsplit, hentry, hbefore⟩

lemma exists_chosen_iff : (∃ n, Chosen listing f n) ↔ Listed listing f := by
  simp only [← find?_eq_some_iff, find?_eq, ← Option.isSome_iff_exists,
    List.findSome?_isSome_iff]
  unfold Listed
  simp only [Option.isSome_iff_exists, numberOf?_eq_some_iff]

lemma find?_widened (h : Widened f listing listing') :
    FieldNumbers.find? listing' f = FieldNumbers.find? listing f := by
  rw [find?_eq, find?_eq]
  induction h with
  | nil => rfl
  | keep entry _ ih => rw [List.findSome?_cons, List.findSome?_cons, ih]
  | insert hentry _ ih =>
    rw [List.findSome?_cons, numberOf?_eq_none_iff.mpr hentry]
    exact ih

/-! ## All fields -/

lemma checked_find (hf : TrackedField.all[i]? = some f) :
    Checked (Lacks listing) i (i + 1) (Chosen listing f) (FieldNumbers.find listing f) := by
  unfold FieldNumbers.find
  cases hfind : FieldNumbers.find? listing f with
  | some n =>
    have hchosen := find?_eq_some_iff.mp hfind
    refine checked_pass hchosen ?_
    rintro f' ⟨hf', hlacks⟩
    rw [hf] at hf'
    cases hf'
    exact hlacks (exists_chosen_iff.mp ⟨n, hchosen⟩)
  | none =>
    refine checked_fail ⟨hf, fun hlisted => ?_⟩
    obtain ⟨n, hchosen⟩ := exists_chosen_iff.mpr hlisted
    rw [find?_eq_some_iff.mpr hchosen] at hfind
    cases hfind

lemma checked_ofListing (listing : List FieldEntry) :
    Checked (Lacks listing) 0 6 (fun ids => ∀ f, Chosen listing f (ids.number f))
      (FieldNumbers.ofListing listing) := by
  unfold FieldNumbers.ofListing
  refine checked_bind (checked_find rfl) fun githubId hgithubId => ?_
  refine checked_bind (checked_find rfl) fun githubNumber hgithubNumber => ?_
  refine checked_bind (checked_find rfl) fun githubLabels hgithubLabels => ?_
  refine checked_bind (checked_find rfl) fun githubStatus hgithubStatus => ?_
  refine checked_bind (checked_find rfl) fun githubReporter hgithubReporter => ?_
  refine checked_bind (checked_find rfl) fun lastSync hlastSync => ?_
  refine checked_pure fun f => ?_
  cases f with
  | githubId => exact hgithubId
  | githubNumber => exact hgithubNumber
  | githubLabels => exact hgithubLabels
  | githubStatus => exact hgithubStatus
  | githubReporter => exact hgithubReporter
  | lastSync => exact hlastSync

lemma lacks_lt (h : Lacks listing i f) : i < 6 :=
  (List.getElem?_eq_some_iff.mp h.1).1

lemma lacks_unique (h : Lacks listing i f) (h' : Lacks listing i f') : f = f' :=
  Option.some.inj (h.1.symm.trans h'.1)

lemma listed_iff_not_lacks : (∀ f, Listed listing f) ↔ ∀ i f, ¬Lacks listing i f := by
  constructor
  · exact fun h i f hlacks => hlacks.2 (h f)
  · intro h f
    by_contra hnot
    obtain ⟨i, hi⟩ := List.mem_iff_getElem?.mp (mem_all f)
    exact h i f ⟨hi, hnot⟩

lemma listed_widened (h : Widened f listing listing') (hlisted : Listed listing f') :
    Listed listing' f' := by
  induction h with
  | nil => exact hlisted
  | keep entry _ ih =>
    obtain ⟨other, hother, n, hn⟩ := hlisted
    rcases List.mem_cons.mp hother with rfl | hother
    · exact ⟨_, List.mem_cons_self, n, hn⟩
    · obtain ⟨found, hfound, hnumber⟩ := ih ⟨other, hother, n, hn⟩
      exact ⟨found, List.mem_cons_of_mem _ hfound, hnumber⟩
  | insert _ _ ih =>
    obtain ⟨found, hfound, hnumber⟩ := ih hlisted
    exact ⟨found, List.mem_cons_of_mem _ hfound, hnumber⟩

/-- Other fields keep their numbers when entries of one field are put into a listing. -/
lemma ofListing_widened (h : Widened f listing listing')
    (hids : FieldNumbers.ofListing listing = .ok ids) :
    ∃ ids', FieldNumbers.ofListing listing' = .ok ids' ∧ ids'.number f = ids.number f := by
  have hlisted := (checked_ok_iff (checked_ofListing listing) fun _ _ => lacks_lt).mp ⟨ids, hids⟩
  obtain ⟨ids', hids'⟩ := (checked_ok_iff (checked_ofListing listing') fun _ _ => lacks_lt).mpr
    (listed_iff_not_lacks.mp fun f' => listed_widened h (listed_iff_not_lacks.mpr hlisted f'))
  refine ⟨ids', hids', ?_⟩
  have hold := find?_eq_some_iff.mpr (checked_result (checked_ofListing listing) hids f)
  have hnew := find?_eq_some_iff.mpr (checked_result (checked_ofListing listing') hids' f)
  rw [find?_widened h, hold] at hnew
  exact (Option.some.inj hnew).symm

/-! ## Written entries -/

lemma nodup_keys (hkey : Function.Injective ids.key) {fields : List TrackedField}
    (h : fields.Nodup) (g : GitHub.Issue) (now : Instant) :
    ((entriesOf ids g now fields).map Prod.fst).Nodup := by
  unfold entriesOf
  rw [List.map_map]
  exact List.Nodup.map hkey h

lemma newDraft_perm (hkey : Function.Injective ids.key) (g : GitHub.Issue) (issueType : String)
    (now : Instant) :
    (newDraft g ids issueType now).custom.Perm (entriesOf ids g now TrackedField.all) := by
  have hentries : trackedEntries g ids now ++ identityEntries g ids = entriesOf ids g now
      [.githubStatus, .githubReporter, .githubLabels, .lastSync, .githubId, .githubNumber] := rfl
  unfold newDraft
  dsimp only
  rw [hentries]
  refine (ofList_perm (nodup_keys hkey (by decide) g now)).trans (List.Perm.map _ ?_)
  decide

lemma renewedDraft_perm (hkey : Function.Injective ids.key) (g : GitHub.Issue) (j : Jira.Issue)
    (issueType : String) (now : Instant) :
    (renewedDraft g j ids issueType now).custom.Perm (entriesOf ids g now
      [.githubLabels, .githubStatus, .githubReporter, .lastSync]) := by
  have hentries : trackedEntries g ids now = entriesOf ids g now
      [.githubStatus, .githubReporter, .githubLabels, .lastSync] := rfl
  unfold renewedDraft
  dsimp only
  rw [hentries]
  refine (ofList_perm (nodup_keys hkey (by decide) g now)).trans (List.Perm.map _ ?_)
  decide

lemma id_eq_toString (ids : FieldNumbers) (f : TrackedField) :
    ids.id f = toString (ids.number f) :=
  Decimal.ofList_ofInt _

/-- The tracked fields are found in a listing if each of them has an entry with its name and a
number; else the first that lacks one is reported. A field has the number of its first such entry,
whichever other entries are put between. If the numbers differ, so do the keys, and each write has
one entry for each field that it carries, with the attribute of that field. -/
theorem fields_resolved (listing : List FieldEntry) :
    ((∃ ids, FieldNumbers.ofListing listing = .ok ids) ↔ ∀ f, Listed listing f) ∧
    (∀ f, FieldNumbers.ofListing listing = .error f ↔ FirstFailure (Lacks listing) f) ∧
    ∀ ids, FieldNumbers.ofListing listing = .ok ids →
      (∀ f, ∃ n, Chosen listing f n ∧ ids.id f = toString n ∧
        ids.key f = "customfield_" ++ toString n) ∧
      (∀ f listing', Widened f listing listing' →
        ∃ ids', FieldNumbers.ofListing listing' = .ok ids' ∧ ids'.id f = ids.id f ∧
          ids'.key f = ids.key f) ∧
      ((∀ f f' n, Chosen listing f n → Chosen listing f' n → f = f') →
        Function.Injective ids.key ∧
        (∀ g issueType now, (newDraft g ids issueType now).custom.Perm
          (entriesOf ids g now TrackedField.all)) ∧
        ∀ g j issueType now, (renewedDraft g j ids issueType now).custom.Perm
          (entriesOf ids g now [.githubLabels, .githubStatus, .githubReporter, .lastSync])) := by
  have hchecked := checked_ofListing listing
  refine ⟨?_, fun f => ?_, fun ids hids => ⟨fun f => ?_, fun f listing' hwidened => ?_,
    fun hdistinct => ?_⟩⟩
  · rw [checked_ok_iff hchecked fun _ _ => lacks_lt, listed_iff_not_lacks]
  · exact checked_error_iff hchecked (fun _ _ => lacks_lt) fun _ _ _ => lacks_unique
  · refine ⟨ids.number f, checked_result hchecked hids f, id_eq_toString ids f, ?_⟩
    unfold FieldNumbers.key
    rw [id_eq_toString]
  · obtain ⟨ids', hids', hnumber⟩ := ofListing_widened hwidened hids
    have hid : ids'.id f = ids.id f := by rw [id_eq_toString, id_eq_toString, hnumber]
    refine ⟨ids', hids', hid, ?_⟩
    unfold FieldNumbers.key
    rw [hid]
  · have hchosen := checked_result hchecked hids
    have hkey : Function.Injective ids.key := key_injective fun f f' hnumber =>
      hdistinct f f' _ (hchosen f) (hnumber ▸ hchosen f')
    exact ⟨hkey, newDraft_perm hkey, renewedDraft_perm hkey⟩

/-- Of the entries with one name, the first that has a number counts. -/
example : FieldNumbers.find? [⟨"github-id", none⟩, ⟨"github-id", some 7⟩, ⟨"github-id", some 8⟩]
    .githubId = some 7 := by
  decide

end IssueBridge.Proofs
