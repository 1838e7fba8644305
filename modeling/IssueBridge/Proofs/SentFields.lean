import IssueBridge.Jira.Client
import IssueBridge.Proofs.MirroredFields
import IssueBridge.Proofs.Surroundings

/-!
# Fields as they are sent

What Jira makes of the fields of a write when it keeps them as they are sent: reading the issue
back gives what was written, and a write to an issue leaves the fields alone that it does not name.
-/

namespace IssueBridge.Proofs

open Jira (CustomValue Draft FieldNumbers Project TrackedField)

variable {ids : FieldNumbers} {v : CustomValue} {d : Draft} {old new : List (String × Json)}
  {k : String}

/-! ## Values -/

/-- A value that is read back as it was sent. -/
def Faithful (v : CustomValue) : Prop :=
  CustomValue.ofJson v.toJson = v ∧ v.isMissing = false

lemma faithful_text (s : String) : Faithful (.text s) :=
  ⟨rfl, rfl⟩

lemma mapM_str? (items : List String) : (items.map Json.str).mapM Json.str? = some items := by
  induction items with
  | nil => rfl
  | cons item items ih =>
    rw [List.map_cons, List.mapM_cons, ih]
    rfl

lemma faithful_list (items : List String) : Faithful (.list items) := by
  refine ⟨?_, rfl⟩
  unfold CustomValue.toJson CustomValue.ofJson
  dsimp only
  rw [mapM_str?]

/-- The double of an integer of 64 bits is sent as an integer or as itself; both are read as the
same double. -/
lemma ofJson_toJson_ofInt64 (n : Int64) :
    CustomValue.ofJson (CustomValue.ofInt64 n).toJson = .ofInt64 n := by
  obtain ⟨m, hm, hzero⟩ := exists_toInt?_ofInt (natAbs_toInt_lt n)
  change CustomValue.ofJson (CustomValue.numToJson (Binary64.ofInt n.toInt)) =
    .num (Binary64.ofInt n.toInt)
  unfold CustomValue.numToJson
  rw [hm]
  dsimp only
  split
  · change CustomValue.num (Binary64.ofInt m) = _
    by_cases h : m = 0
    · rw [h, hzero h]
    · rw [ofInt_toInt? hm h]
  · rfl

lemma faithful_ofInt64 (n : Int64) : Faithful (.ofInt64 n) :=
  ⟨ofJson_toJson_ofInt64 n, rfl⟩

/-! ## Drafts -/

/-- Fields of a write whose custom fields are all read back as they were sent. -/
structure Transmissible (d : Draft) : Prop where
  ascending : Ascending d.custom
  custom : ∀ k v, d.custom.get? k = some v → Jira.isCustom k = true ∧ Faithful v

lemma isCustom_key (ids : FieldNumbers) (f : TrackedField) : Jira.isCustom (ids.key f) = true := by
  unfold Jira.isCustom FieldNumbers.key
  rw [String.toList_append, List.isPrefixOf_iff_prefix]
  exact List.prefix_append _ _

lemma transmissible_of_keyed {fields : List (TrackedField × CustomValue)}
    {entries : List (String × CustomValue)} (hentries : entries.reverse = keyed ids fields)
    (hd : d.custom = Dictionary.ofList entries) (hfields : ∀ f v, (f, v) ∈ fields → Faithful v) :
    Transmissible d := by
  refine ⟨hd ▸ ascending_ofList entries, fun k v hk => ?_⟩
  rw [hd, get?_ofList, hentries] at hk
  obtain ⟨front, rest, hsplit, -⟩ := List.lookup_eq_some_iff.mp hk
  have hmem : (k, v) ∈ keyed ids fields := by
    rw [hsplit]
    exact List.mem_append_right front List.mem_cons_self
  obtain ⟨⟨f, v'⟩, hfield, heq⟩ := List.mem_map.mp hmem
  cases heq
  exact ⟨isCustom_key ids f, hfields f _ hfield⟩

lemma faithful_trackedFields {f : TrackedField} {g : GitHub.Issue} {now : Instant}
    (h : (f, v) ∈ trackedFields g now) : Faithful v := by
  unfold trackedFields at h
  simp only [List.mem_cons, Prod.mk.injEq, List.not_mem_nil, or_false] at h
  rcases h with ⟨-, rfl⟩ | ⟨-, rfl⟩ | ⟨-, rfl⟩ | ⟨-, rfl⟩
  · exact faithful_text _
  · exact faithful_list _
  · exact faithful_text _
  · exact faithful_text _

lemma transmissible_newDraft (g : GitHub.Issue) (ids : FieldNumbers) (issueType : String)
    (now : Instant) : Transmissible (newDraft g ids issueType now) := by
  refine transmissible_of_keyed (reverse_newEntries g ids now) (by rw [newDraft])
    fun f v hfield => ?_
  unfold newFields at hfield
  rcases List.mem_append.mp hfield with hfield | hfield
  · simp only [List.mem_cons, Prod.mk.injEq, List.not_mem_nil, or_false] at hfield
    rcases hfield with ⟨-, rfl⟩ | ⟨-, rfl⟩
    · exact faithful_ofInt64 _
    · exact faithful_ofInt64 _
  · exact faithful_trackedFields hfield

lemma transmissible_renewedDraft (g : GitHub.Issue) (j : Jira.Issue) (ids : FieldNumbers)
    (defaultType : String) (now : Instant) :
    Transmissible (renewedDraft g j ids defaultType now) :=
  transmissible_of_keyed (reverse_trackedEntries g ids now) (by rw [renewedDraft])
    fun _ _ => faithful_trackedFields

/-! ## Sending -/

/-- The fields of an issue in JSON. -/
def fieldsOf (v : Json) : List (String × Json) :=
  ((v.record? 3).bind fun r => r.defaulted "fields" 2 [] Jira.members?).getD []

/-- What the client sends for the fields of a write. -/
def sentFields (project : Project) (d : Draft) (creating : Bool) : List (String × Json) :=
  fieldsOf (Jira.payload project d creating)

/-- What a write sends besides the custom fields. -/
def plainFields (project : Project) (d : Draft) (creating : Bool) : List (String × Json) :=
  [("summary", .str d.summary), ("description", .str d.description),
    ("issuetype", .obj [("name", .str d.issueType)])] ++
    if creating then
      [("project", .obj [("id", .str project.id)])] ++
        (project.components.head?.map fun c =>
          ("components", Json.arr [.obj [("id", .str c)]])).toList
    else []

lemma sentFields_eq (project : Project) (d : Draft) (creating : Bool) :
    sentFields project d creating =
      Dictionary.ofList (plainFields project d creating ++
        d.custom.map fun entry => (entry.1, entry.2.toJson)) := by
  rfl

lemma lookup_sentFields (hd : Transmissible d) (project : Project) (creating : Bool) (k : String) :
    List.lookup k (sentFields project d creating).reverse =
      ((d.custom.get? k).map CustomValue.toJson).or
        (List.lookup k (plainFields project d creating).reverse) := by
  rw [sentFields_eq, lookup_reverse (ascending_ofList _), get?_ofList, List.reverse_append,
    List.lookup_append, lookup_reverse (ascending_map hd.ascending CustomValue.toJson),
    get?_map_value]

lemma names_plainFields (project : Project) (d : Draft) (creating : Bool) :
    (plainFields project d creating).map Prod.fst ⊆
      ["summary", "description", "issuetype", "project", "components"] := by
  unfold plainFields
  cases creating
  · simp
  · cases project.components.head? <;> simp

/-- No custom field is among the others. -/
lemma lookup_plainFields (hk : Jira.isCustom k = true) (project : Project) (d : Draft)
    (creating : Bool) : List.lookup k (plainFields project d creating).reverse = none := by
  refine List.lookup_eq_none_iff.mpr fun entry hentry => ?_
  have hname := names_plainFields project d creating
    (List.mem_map_of_mem (List.mem_reverse.mp hentry))
  refine bne_iff_ne.mpr fun heq => ?_
  subst heq
  revert hk
  rw [imp_false]
  generalize entry.1 = name at hname
  revert name
  decide

/-- Where an issue belongs is not read back. -/
lemma lookup_plainFields_of_ne (project : Project) (d : Draft) (creating : Bool)
    (hproject : k ≠ "project") (hcomponents : k ≠ "components") :
    List.lookup k (plainFields project d creating).reverse =
      List.lookup k [("issuetype", .obj [("name", .str d.issueType)]),
        ("description", .str d.description), ("summary", .str d.summary)] := by
  have hp : (k == "project") = false := beq_eq_false_iff_ne.mpr hproject
  have hc : (k == "components") = false := beq_eq_false_iff_ne.mpr hcomponents
  unfold plainFields
  rw [List.reverse_append, List.lookup_append]
  cases creating
  · rfl
  · cases project.components.head? with
    | none => simp [List.lookup_cons, hp]
    | some c => simp [List.lookup_cons, hp, hc]

/-! ## Receiving -/

/-- The fields of an issue after others are written over them. -/
def overlaid (old new : List (String × Json)) : Dictionary Json :=
  (Dictionary.ofList old).insertAll new

lemma get?_overlaid (old new : List (String × Json)) (k : String) :
    (Dictionary.ofList (overlaid old new)).get? k =
      (List.lookup k new.reverse).or ((Dictionary.ofList old).get? k) := by
  have hascending : Ascending (overlaid old new) :=
    ascending_insertAll (ascending_ofList old) new
  rw [ofList_of_ascending hascending]
  exact get?_insertAll _ _ _

lemma get?_obj_ofList (members : List (String × Json)) (k : String) :
    (Json.obj (Dictionary.ofList members)).get? k = (Dictionary.ofList members).get? k :=
  lookup_reverse (ascending_ofList members) k

lemma ascending_customOf (members : List (String × Json)) : Ascending (Jira.customOf members) :=
  ascending_ofList _

lemma get?_customOf (members : List (String × Json)) (k : String) :
    (Jira.customOf (Dictionary.ofList members)).get? k =
      if Jira.isCustom k then
        (((Dictionary.ofList members).get? k).map CustomValue.ofJson).filter fun v => !v.isMissing
      else none := by
  have hcustom := ascending_filter (ascending_ofList members) fun m => Jira.isCustom m.1
  have hread := ascending_map hcustom CustomValue.ofJson
  change (Dictionary.ofList ((List.map (fun m : String × Json =>
    (m.1, CustomValue.ofJson m.2)) _).filter fun m => !m.2.isMissing)).get? k = _
  rw [ofList_of_ascending (ascending_filter hread _),
    get?_filter_value hread fun v => !v.isMissing, get?_map_value, get?_filter_key]
  split <;> rfl

/-- The custom fields of a write come back, over those that were there. -/
lemma customOf_overlaid (hd : Transmissible d) (project : Project) (creating : Bool) :
    Jira.customOf (Dictionary.ofList (overlaid old (sentFields project d creating))) =
      (Jira.customOf (Dictionary.ofList old)).insertAll d.custom := by
  refine eq_of_get? (ascending_customOf _)
    (ascending_insertAll (ascending_customOf _) _) fun k => ?_
  rw [get?_insertAll, lookup_reverse hd.ascending, get?_customOf, get?_customOf, get?_overlaid,
    lookup_sentFields hd]
  by_cases hk : Jira.isCustom k = true
  · rw [if_pos hk, if_pos hk, lookup_plainFields hk, Option.or_none]
    cases hv : d.custom.get? k with
    | none => rfl
    | some v =>
      obtain ⟨hread, hfound⟩ := (hd.custom k v hv).2
      rw [Option.map_some, Option.some_or, Option.map_some, hread, Option.filter_some, hfound]
      rfl
  · rw [if_neg hk, if_neg hk, Option.or_none]
    cases hv : d.custom.get? k with
    | none => rfl
    | some v => exact absurd (hd.custom k v hv).1 hk

/-- Fields that are written over those of an issue are read as the issue overwritten. -/
theorem ofFields_overlaid (hd : Transmissible d) (id key : String) (project : Project)
    (creating : Bool) :
    Jira.Issue.ofFields id key (overlaid old (sentFields project d creating)) =
      (Jira.Issue.ofFields id key old).overwrite d := by
  have hget : ∀ k, k ≠ "project" → k ≠ "components" → Jira.isCustom k = false →
      (Json.obj (Dictionary.ofList (overlaid old (sentFields project d creating)))).get? k =
        (List.lookup k [("issuetype", .obj [("name", .str d.issueType)]),
          ("description", .str d.description), ("summary", .str d.summary)]).or
            ((Json.obj (Dictionary.ofList old)).get? k) := by
    intro k hproject hcomponents hk
    have hcustom : d.custom.get? k = none := by
      refine Option.eq_none_iff_forall_ne_some.mpr fun v hv => ?_
      rw [(hd.custom k v hv).1] at hk
      cases hk
    rw [get?_obj_ofList, get?_overlaid, lookup_sentFields hd, hcustom, Option.map_none,
      Option.none_or, lookup_plainFields_of_ne _ _ _ hproject hcomponents, get?_obj_ofList]
  have hsummary := hget "summary" (by decide) (by decide) (by decide)
  have hdescription := hget "description" (by decide) (by decide) (by decide)
  have htype := hget "issuetype" (by decide) (by decide) (by decide)
  have hcomment := hget "comment" (by decide) (by decide) (by decide)
  unfold Jira.Issue.ofFields Jira.Issue.overwrite Jira.commentsOf
  dsimp only
  rw [hsummary, hdescription, htype, hcomment, customOf_overlaid hd]
  rfl

/-- An issue in JSON, in either form of a record, with these fields in place of its own. -/
def withFields (fields : List (String × Json)) : Json → Json
  | .obj members => .obj (members.filter (fun m => m.1 != "fields") ++ [("fields", .obj fields)])
  | .arr items => .arr (items.take 2 ++ [.obj fields])
  | v => v

lemma filter_withFields {name : String} (hname : name ≠ "fields")
    (members fields : List (String × Json)) :
    (members.filter (fun m => m.1 != "fields") ++ [("fields", Json.obj fields)]).filter
      (fun m => m.1 == name) = members.filter fun m => m.1 == name := by
  have hfields : ("fields" == name) = false := beq_eq_false_iff_ne.mpr hname.symm
  rw [List.filter_append, List.filter_filter, List.filter_singleton, hfields]
  refine (List.append_nil _).trans (List.filter_congr fun m _ => ?_)
  by_cases h : m.1 = name
  · simp [h, hname]
  · simp [h]

/-- Putting fields in place of those of an issue changes nothing else of it. -/
lemma exists_record_withFields {r : Json.Record} {j id key : Json} (hr : j.record? 3 = some r)
    (hid : r.field? "id" 0 = some (some id)) (hkey : r.field? "key" 1 = some (some key))
    (fields : List (String × Json)) :
    ∃ r', (withFields fields j).record? 3 = some r' ∧ r'.field? "id" 0 = some (some id) ∧
      r'.field? "key" 1 = some (some key) ∧ r'.field? "fields" 2 = some (some (.obj fields)) := by
  cases j with
  | obj members =>
    obtain rfl := Option.some.inj hr
    refine ⟨_, rfl, ?_, ?_, ?_⟩
    · rw [← hid]
      unfold Json.Record.field?
      dsimp only
      rw [filter_withFields (by decide)]
    · rw [← hkey]
      unfold Json.Record.field?
      dsimp only
      rw [filter_withFields (by decide)]
    · have hone : (members.filter (fun m => m.1 != "fields") ++
          [("fields", Json.obj fields)]).filter (fun m => m.1 == "fields") =
            [("fields", Json.obj fields)] := by
        rw [List.filter_append, List.filter_filter]
        simp
      unfold Json.Record.field?
      dsimp only
      rw [hone]
  | arr items =>
    unfold Json.record? at hr
    dsimp only at hr
    split at hr
    · obtain rfl := Option.some.inj hr
      unfold Json.Record.field? at hid hkey
      rw [Option.some.injEq] at hid hkey
      rcases items with _ | ⟨_, _ | ⟨_, rest⟩⟩
      · cases hid
      · cases hkey
      · exact ⟨_, rfl, congrArg some hid, congrArg some hkey, rfl⟩
    · cases hr
  | _ => cases hr

/-- An issue that can be read can be read with any other fields, too. -/
lemma exists_ofFields {v : Json} {i : Jira.Issue} (h : Jira.Issue.ofJson? v = some i) :
    ∃ id key, i = Jira.Issue.ofFields id key (fieldsOf v) ∧ ∀ fields,
      Jira.Issue.ofJson? (withFields fields v) = some (Jira.Issue.ofFields id key fields) := by
  unfold Jira.Issue.ofJson? Json.Record.required at h
  simp only [Option.bind_eq_bind, Option.bind_eq_some_iff] at h
  obtain ⟨r, hr, id, ⟨_, hid, a, rfl, ha⟩, key, ⟨_, hkey, b, rfl, hb⟩, old, hold, hi⟩ := h
  have hfields : fieldsOf v = old := by
    unfold fieldsOf
    rw [hr, Option.bind_some, hold]
    rfl
  refine ⟨id, key, ?_, fun fields => ?_⟩
  · rw [hfields]
    exact (Option.some.inj hi).symm
  · obtain ⟨r', hr', hid', hkey', hfields'⟩ := exists_record_withFields hr hid hkey fields
    unfold Jira.Issue.ofJson? Json.Record.required Json.Record.defaulted
    rw [hr', Option.bind_eq_bind, Option.bind_some, hid', hkey', hfields']
    simp only [Option.bind_eq_bind, Option.bind_some, ha, hb]
    rfl

/-! ## Agreement -/

/-- An issue in JSON, as an object. -/
def issueJson (id key : String) (fields : List (String × Json)) : Json :=
  .obj [("id", .str id), ("key", .str key), ("fields", .obj fields)]

lemma ofJson?_issueJson (id key : String) (fields : List (String × Json)) :
    Jira.Issue.ofJson? (issueJson id key fields) = some (Jira.Issue.ofFields id key fields) :=
  rfl

/-- An issue holds what a write gives it. -/
structure Holds (j : Jira.Issue) (d : Draft) : Prop where
  summary : j.summary = d.summary
  description : j.description = d.description
  issueType : j.issueType = some d.issueType
  custom : ∀ k v, d.custom.get? k = some v → j.custom.get? k = some v

lemma holds_overwrite (hd : Ascending d.custom) (i : Jira.Issue) : Holds (i.overwrite d) d := by
  refine ⟨rfl, rfl, rfl, fun k v hv => ?_⟩
  change (i.custom.insertAll d.custom).get? k = some v
  rw [get?_insertAll, lookup_reverse hd, hv, Option.some_or]

/-- An issue that holds what a renewal gives it is up to date. -/
lemma isOutdated_of_holds (hids : Function.Injective ids.number) {g : GitHub.Issue}
    {j target : Jira.Issue} {issueType : String} {now : Instant}
    (h : Holds j (renewedDraft g target ids issueType now)) : isOutdated g j ids = false := by
  refine isOutdated_of_fields now h.summary h.description fun f value hvalue => ?_
  have hsent : (renewedDraft g target ids issueType now).custom.get? (ids.key f) = some value := by
    unfold renewedDraft
    rw [get?_ofList, reverse_trackedEntries, lookup_keyed (key_injective hids), hvalue]
  unfold Jira.Issue.field
  rw [h.custom _ _ hsent]
  rfl

lemma holds_toIssue (d : Draft) (id key : String) : Holds { d.toIssue with id, key } d :=
  ⟨rfl, rfl, rfl, fun _ _ h => h⟩

lemma custom_named (d : Draft) (id key : String) :
    { d.toIssue with id, key : Jira.Issue }.custom = d.custom :=
  rfl

lemma ofFields_sentFields (hd : Transmissible d) (id key : String) (project : Project) :
    Jira.Issue.ofFields id key (sentFields project d true) = { d.toIssue with id, key } := by
  have hsent : overlaid [] (sentFields project d true) = sentFields project d true := by
    rw [sentFields_eq]
    exact ofList_of_ascending (ascending_ofList _)
  have hempty : Jira.Issue.ofFields id key [] = { id, key } := rfl
  have hcustom : Dictionary.insertAll [] d.custom = d.custom := ofList_of_ascending hd.ascending
  rw [← hsent, ofFields_overlaid hd, hempty]
  unfold Jira.Issue.overwrite Jira.Draft.toIssue
  dsimp only
  rw [hcustom]

lemma isOutdated_named (g : GitHub.Issue) (j : Jira.Issue) (ids : FieldNumbers) (id key : String) :
    isOutdated g { j with id, key } ids = isOutdated g j ids :=
  rfl

lemma githubId?_named (ids : FieldNumbers) (j : Jira.Issue) (id key : String) :
    IssuePlan.githubId? ids { j with id, key } = IssuePlan.githubId? ids j :=
  rfl

/-- The task for one GitHub issue beside one Jira issue. -/
lemma tasks_single (ids : FieldNumbers) (g : GitHub.Issue) (j : Jira.Issue) :
    IssuePlan.tasks [g] [j] ids =
      if IssuePlan.githubId? ids j = some g.id then [.update g j] else [.create g] := by
  unfold IssuePlan.tasks IssuePlan.taskOf IssuePlan.counterpart
  rw [List.map_singleton, List.find?_singleton]
  by_cases h : IssuePlan.githubId? ids j = some g.id
  · simp [h]
  · have hne : (IssuePlan.githubId? ids j == some g.id) = false := beq_eq_false_iff_ne.mpr h
    rw [hne, if_neg h]
    rfl

/-- What a write sends is what reading the issue gives back. A new issue has the fields that were
sent and no others, is up to date, and goes with its GitHub issue if the number of that is short
enough for a double. Written over the fields of any issue, they change what they name. -/
theorem sent_fields_agree (hids : Function.Injective ids.number) (g : GitHub.Issue)
    (issueType : String) (now : Instant) (project : Project) :
    (∀ id key, ∃ j,
      Jira.Issue.ofJson? (issueJson id key
        (sentFields project (newDraft g ids issueType now) true)) = some j ∧
      Holds j (newDraft g ids issueType now) ∧ j.custom = (newDraft g ids issueType now).custom ∧
      isOutdated g j ids = false ∧
      (g.id.toInt.natAbs ≤ 2 ^ 53 → IssuePlan.tasks [g] [j] ids = [.update g j])) ∧
    ∀ v i target, Jira.Issue.ofJson? v = some i → ∃ j,
      Jira.Issue.ofJson? (withFields (overlaid (fieldsOf v)
        (sentFields project (renewedDraft g target ids issueType now) false)) v) = some j ∧
      j = i.overwrite (renewedDraft g target ids issueType now) ∧
      Holds j (renewedDraft g target ids issueType now) ∧ isOutdated g j ids = false := by
  refine ⟨fun id key => ?_, fun v i target hv => ?_⟩
  · have hd := transmissible_newDraft g ids issueType now
    refine ⟨_, ofJson?_issueJson id key _, ?_⟩
    rw [ofFields_sentFields hd]
    refine ⟨holds_toIssue _ id key, custom_named _ id key, ?_, fun hsmall => ?_⟩
    · have hfresh := isOutdated_newIssue hids g issueType now key
      unfold newIssue at hfresh
      rw [isOutdated_named] at hfresh ⊢
      exact hfresh
    · have hid := githubId?_newIssue hids hsmall issueType now key
      unfold newIssue at hid
      rw [githubId?_named] at hid
      rw [tasks_single, githubId?_named, if_pos hid]
  · have hd := transmissible_renewedDraft g target ids issueType now
    obtain ⟨id, key, rfl, hread⟩ := exists_ofFields hv
    refine ⟨_, hread _, ofFields_overlaid hd id key project false, ?_⟩
    rw [ofFields_overlaid hd]
    have hholds := holds_overwrite hd.ascending (Jira.Issue.ofFields id key (fieldsOf v))
    exact ⟨hholds, isOutdated_of_holds hids hholds⟩

/-- It holds of a small issue, sent as a new one and over one with a field of another kind. -/
theorem sent_fields_agree_discussed :
    Function.Injective sampleIds.number ∧ discussed.id.toInt.natAbs ≤ 2 ^ 53 ∧
      (∃ j, Jira.Issue.ofJson? (issueJson "1" "A-1" (sentFields ⟨"10", "A", ["20"]⟩
          (newDraft discussed sampleIds "Task" default) true)) = some j ∧
        IssuePlan.tasks [discussed] [j] sampleIds = [.update discussed j]) ∧
      ∃ j, Jira.Issue.ofJson? (withFields (overlaid
          (fieldsOf (issueJson "1" "A-1" [("customfield_9", .str "kept")]))
          (sentFields ⟨"10", "A", ["20"]⟩ (renewedDraft discussed default sampleIds "Task" default)
            false)) (issueJson "1" "A-1" [("customfield_9", .str "kept")])) = some j ∧
        isOutdated discussed j sampleIds = false := by
  have hagree := sent_fields_agree sampleIds_injective discussed "Task" default ⟨"10", "A", ["20"]⟩
  have hsmall : discussed.id.toInt.natAbs ≤ 2 ^ 53 := by decide
  obtain ⟨j, hnew, -, -, -, htasks⟩ := hagree.1 "1" "A-1"
  obtain ⟨j', hrenewed, -, -, hfresh⟩ := hagree.2 _ _ default
    (ofJson?_issueJson "1" "A-1" [("customfield_9", .str "kept")])
  exact ⟨sampleIds_injective, hsmall, ⟨j, hnew, htasks hsmall⟩, j', hrenewed, hfresh⟩

end IssueBridge.Proofs
