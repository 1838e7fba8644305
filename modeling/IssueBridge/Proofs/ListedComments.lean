import IssueBridge.Proofs.CommentNeeds
import IssueBridge.Proofs.Exchanges
import IssueBridge.Proofs.SentFields

/-!
# Comments in a listing

The comments of a Jira issue are read as a whole: they all come with it, in their order, unless one
of them cannot be read. Then the issue seems to have no comments, and every GitHub comment is added
to it once more.
-/

namespace IssueBridge.Jira

open Proofs CommentPlan

variable {v item : Json} {items : List Json} {j : Issue} {t : Comment} {c : GitHub.Comment}

/-! ## One comment -/

/-- The comment in an item of a listing, in either form of a record. Its text may be left out. -/
def commentOf? : Json → Option Comment
  | .obj members => do
    let id ← ((Json.obj members).get? "id").bind Json.str?
    let body ←
      match (Json.obj members).get? "body" with
      | some text => text.str?
      | none => some ""
    some ⟨id, body⟩
  | .arr [id] => id.str?.map fun id => ⟨id, ""⟩
  | .arr [id, body] => do some ⟨← id.str?, ← body.str?⟩
  | _ => none

/-- The comment in an object with an identifier and a text. -/
def spoken? (item : Json) : Option Comment := do
  let id ← (item.get? "id").bind Json.str?
  let body ← (item.get? "body").bind Json.str?
  some ⟨id, body⟩

lemma str?_canonical (v : Json) : v.canonical.str? = v.str? := by
  cases v <;> rfl

lemma length_canonicalItems (items : List Json) :
    (Json.canonicalItems items).length = items.length := by
  induction items with
  | nil => rfl
  | cons item items ih => exact congrArg (· + 1) ih

lemma canonicalMembers_eq (members : List (String × Json)) :
    Json.canonicalMembers members = members.map fun m => (m.1, m.2.canonical) := by
  induction members with
  | nil => rfl
  | cons m members ih =>
    obtain ⟨k, v⟩ := m
    rw [List.map_cons, ← ih]
    rfl

/-- Of a repeated member, the last one counts. -/
lemma field?_canonical (members : List (String × Json)) (name : String) (index : Nat) :
    (Json.Record.named (Dictionary.ofList (Json.canonicalMembers members))).field? name index =
      some (((Json.obj members).get? name).map Json.canonical) := by
  have hfound : (Dictionary.ofList (Json.canonicalMembers members)).get? name =
      ((Json.obj members).get? name).map Json.canonical := by
    rw [get?_ofList, canonicalMembers_eq, ← List.map_reverse]
    exact get?_map_value Json.canonical members.reverse name
  unfold Json.Record.field?
  dsimp only
  rw [filter_key (ascending_ofList _), hfound]
  cases (Json.obj members).get? name <;> rfl

lemma ofJson?_canonical (item : Json) : Comment.ofJson? item.canonical = commentOf? item := by
  cases item with
  | obj members =>
    change (do
      let r ← some (Json.Record.named (Dictionary.ofList (Json.canonicalMembers members)))
      some ⟨← r.required "id" 0 Json.str?, ← r.defaulted "body" 1 "" Json.str?⟩ :
        Option Comment) = _
    unfold Json.Record.required Json.Record.defaulted commentOf?
    simp only [field?_canonical, Option.bind_eq_bind, Option.bind_some]
    cases (Json.obj members).get? "id" with
    | none => rfl
    | some id =>
      cases (Json.obj members).get? "body" with
      | none => simp [str?_canonical]
      | some body => simp [str?_canonical]
  | arr items =>
    rcases items with _ | ⟨id, _ | ⟨body, _ | ⟨item, items⟩⟩⟩
    · rfl
    · change Option.bind (id.canonical.str?) (fun s => some (Comment.mk s "")) = _
      rw [str?_canonical]
      exact (Option.map_eq_bind ..).symm
    · change Option.bind (id.canonical.str?) (fun s =>
        Option.bind (body.canonical.str?) fun b => some (Comment.mk s b)) = _
      rw [str?_canonical, str?_canonical]
      rfl
    · unfold Comment.ofJson? Json.canonical Json.record?
      simp [length_canonicalItems, commentOf?]
  | _ => rfl

lemma commentOf?_of_spoken (h : spoken? item = some t) : commentOf? item = some t := by
  unfold spoken? at h
  simp only [Option.bind_eq_bind, Option.bind_eq_some_iff] at h
  obtain ⟨id, ⟨a, ha, hid⟩, body, ⟨b, hb, hbody⟩, ht⟩ := h
  cases item with
  | obj members =>
    unfold commentOf?
    simp only [ha, hb, hid, hbody, Option.bind_eq_bind, Option.bind_some]
    exact ht
  | _ => cases ha

/-! ## A listing -/

/-- The comments in the JSON of an issue, if it lists any. -/
def listing? (v : Json) : Option (List Json) :=
  (((Json.obj (fieldsOf v)).get? "comment").bind fun w => w.get? "comments").bind Json.items?

lemma comments_of_listing (h : Issue.ofJson? v = some j) (hitems : listing? v = some items) :
    j.comments = (items.mapM commentOf?).getD [] := by
  obtain ⟨id, key, rfl, -⟩ := exists_ofFields h
  have hfields : (Json.obj (Dictionary.ofList (fieldsOf v))).get? "comment" =
      (Json.obj (fieldsOf v)).get? "comment" := by
    rw [get?_obj_ofList, get?_ofList]
    rfl
  change commentsOf (Json.obj (Dictionary.ofList (fieldsOf v))) = _
  unfold listing? at hitems
  unfold commentsOf
  dsimp only
  rw [hfields, hitems, Option.bind_some]
  simp only [ofJson?_canonical]

lemma sublist_spoken (items : List Json) :
    (items.filterMap spoken?).Sublist (items.filterMap commentOf?) := by
  induction items with
  | nil => exact List.Sublist.slnil
  | cons item items ih =>
    cases hspoken : spoken? item with
    | none =>
      rw [List.filterMap_cons_none hspoken]
      cases hitem : commentOf? item with
      | none => rwa [List.filterMap_cons_none hitem]
      | some t => exact (List.filterMap_cons_some hitem).symm ▸ ih.cons t
    | some t =>
      rw [List.filterMap_cons_some hspoken,
        List.filterMap_cons_some (commentOf?_of_spoken hspoken)]
      exact ih.cons_cons t

/-- Nothing is added for a GitHub comment whose number a Jira comment carries. -/
lemma not_mem_additions {held : List Comment} {source : List GitHub.Comment} {p : CommentPlan}
    (ht : t ∈ held) (hid : Header.id? t.body = .ok (some c.id))
    (hp : ofComments source held = .ok p) : c ∉ p.additions := by
  intro hc
  have hwrite : CommentWrite.create c ∈ p.writes := by
    unfold CommentPlan.writes
    exact List.mem_append_left _ (List.mem_map_of_mem hc)
  have hneed := (create_mem_writes hp hwrite).2
  exact counterpart_none (counterpart_of_add hneed) t ht hid

/-- Beside no comments at all, every GitHub comment is added. -/
lemma ofComments_nil (source : List GitHub.Comment) :
    ofComments source [] = .ok ⟨source, [], 0⟩ := by
  induction source with
  | nil => rfl
  | cons c source ih =>
    unfold ofComments
    rw [needOf_none rfl, ih]
    rfl

/-- If all comments of a listing can be read, the issue has them all in their order, and none that
carries the number of a GitHub comment is missed by a plan. If a single one cannot be read, the
issue has no comments, and every plan adds all GitHub comments. -/
theorem comments_listed (h : Issue.ofJson? v = some j) (hitems : listing? v = some items) :
    ((∀ item ∈ items, (commentOf? item).isSome) →
      j.comments.map some = items.map commentOf? ∧
        (items.filterMap spoken?).Sublist j.comments ∧
        ∀ item ∈ items, ∀ t c source p, spoken? item = some t →
          Header.id? t.body = .ok (some c.id) → ofComments source j.comments = .ok p →
            c ∉ p.additions) ∧
      ((∃ item ∈ items, commentOf? item = none) →
        j.comments = [] ∧ ∀ source, ofComments source j.comments = .ok ⟨source, [], 0⟩) := by
  have hcomments := comments_of_listing h hitems
  refine ⟨fun hall => ?_, fun hbroken => ?_⟩
  · rw [mapM_eq_filterMap hall, Option.getD_some] at hcomments
    refine ⟨?_, hcomments ▸ sublist_spoken items, ?_⟩
    · rw [hcomments, List.map_filterMap_some_eq_filter_map_isSome, List.filter_eq_self]
      intro found hfound
      obtain ⟨item, hitem, rfl⟩ := List.mem_map.mp hfound
      exact hall item hitem
    · intro item hitem t c source p hspoken hid hp
      refine not_mem_additions ?_ hid hp
      rw [hcomments]
      exact List.mem_filterMap.mpr ⟨item, hitem, commentOf?_of_spoken hspoken⟩
  · rw [mapM_eq_none hbroken, Option.getD_none] at hcomments
    rw [hcomments]
    exact ⟨rfl, ofComments_nil⟩

/-! ## An issue with two comments -/

/-- An issue with a listing. -/
def listingJson (items : List Json) : Json :=
  issueJson "1" "A-1" [("comment", .obj [("comments", .arr items)])]

/-- A comment in JSON. -/
def commentJson (t : Comment) : Json :=
  .obj [("id", .str t.id), ("body", .str t.body)]

lemma spoken?_commentJson (t : Comment) : spoken? (commentJson t) = some t :=
  rfl

/-- A comment that was written for a GitHub comment. -/
def mirror : Comment :=
  ⟨"20", Header.written remark author⟩

/-- A comment without a text. -/
def emptyJson : Json :=
  .obj [("id", .str "21"), ("body", .null)]

lemma listing?_listingJson (items : List Json) : listing? (listingJson items) = some items :=
  rfl

theorem comments_listed_mirror :
    (∃ j, Issue.ofJson? (listingJson [commentJson mirror]) = some j ∧
        j.comments.map some = [some mirror]) ∧
      ∃ j, Issue.ofJson? (listingJson [commentJson mirror, emptyJson]) = some j ∧
        j.comments = [] := by
  refine ⟨⟨_, ofJson?_issueJson .., ?_⟩, _, ofJson?_issueJson .., ?_⟩
  · refine ((comments_listed (ofJson?_issueJson ..)
      (listing?_listingJson [commentJson mirror])).1 ?_).1
    intro item hitem
    rw [List.mem_singleton.mp hitem, commentOf?_of_spoken (spoken?_commentJson mirror)]
    rfl
  · refine ((comments_listed (ofJson?_issueJson ..)
      (listing?_listingJson [commentJson mirror, emptyJson])).2 ⟨emptyJson, ?_, rfl⟩).1
    exact List.mem_cons_of_mem _ List.mem_cons_self

/-- A comment without a text hides the one in front of it, which is added once more. -/
theorem empty_comment_hides_mirror :
    spoken? (commentJson mirror) = some mirror ∧ Header.id? mirror.body = .ok (some remark.id) ∧
      ∃ j, Issue.ofJson? (listingJson [commentJson mirror, emptyJson]) = some j ∧
        mirror ∉ j.comments ∧ ofComments [remark] j.comments = .ok ⟨[remark], [], 0⟩ := by
  have hcomments := comments_of_listing (ofJson?_issueJson "1" "A-1" _)
    (listing?_listingJson [commentJson mirror, emptyJson])
  refine ⟨spoken?_commentJson mirror, id?_written author (by decide), _, ofJson?_issueJson ..,
    ?_, ?_⟩
  · rw [hcomments]
    exact List.not_mem_nil
  · rw [hcomments]
    exact ofComments_nil [remark]

end IssueBridge.Jira
