import IssueBridge.Pass.Run
import IssueBridge.Proofs.KeyedProject
import Mathlib.Tactic.Lemma

/-!
# What comment plans ask for

A plan asks for new comments and new texts, each for one GitHub comment, by the first Jira comment
that carries its number.
-/

namespace IssueBridge.Proofs

open CommentPlan

/-- Comments of a GitHub issue that can be told apart by their headers. -/
structure Distinct (source : List GitHub.Comment) : Prop where
  ids : (source.map GitHub.Comment.id).Nodup
  nonneg : ∀ c ∈ source, 0 ≤ c.id

variable {source : List GitHub.Comment} {c : GitHub.Comment} {t : Jira.Comment}
  {held held' : List Jira.Comment} {p : CommentPlan}

/-- The new comment that is asked for. -/
def addition? (held : List Jira.Comment) (c : GitHub.Comment) : Option CommentWrite :=
  match needOf held c with
  | .ok .add => some (.create c)
  | _ => none

/-- The new text that is asked for. -/
def edition? (held : List Jira.Comment) (c : GitHub.Comment) : Option CommentWrite :=
  match needOf held c with
  | .ok (.edit t) => some (.edit c t)
  | _ => none

lemma addition?_eq_some {w : CommentWrite} (h : addition? held c = some w) :
    w = .create c ∧ needOf held c = .ok .add := by
  unfold addition? at h
  cases hneed : needOf held c with
  | error e =>
    rw [hneed] at h
    cases h
  | ok need =>
    rw [hneed] at h
    cases need with
    | add => exact ⟨(Option.some.inj h).symm, rfl⟩
    | edit t => cases h
    | nothing => cases h

lemma edition?_eq_some {w : CommentWrite} (h : edition? held c = some w) :
    ∃ t, w = .edit c t ∧ needOf held c = .ok (.edit t) := by
  unfold edition? at h
  cases hneed : needOf held c with
  | error e =>
    rw [hneed] at h
    cases h
  | ok need =>
    rw [hneed] at h
    cases need with
    | add => cases h
    | edit t => exact ⟨t, (Option.some.inj h).symm, rfl⟩
    | nothing => cases h

lemma ofComments_cons_ok {c : GitHub.Comment} (h : ofComments (c :: source) held = .ok p) :
    ∃ need q, needOf held c = .ok need ∧ ofComments source held = .ok q ∧ p = cons c need q := by
  unfold ofComments at h
  cases hneed : needOf held c with
  | error e =>
    rw [hneed] at h
    cases h
  | ok need =>
    rw [hneed] at h
    dsimp only at h
    cases hrest : ofComments source held with
    | error e =>
      rw [hrest] at h
      cases h
    | ok q =>
      rw [hrest] at h
      exact ⟨need, q, rfl, rfl, (Except.ok.inj h).symm⟩

lemma needOf_ok (h : ofComments source held = .ok p) :
    ∀ c ∈ source, ∃ need, needOf held c = .ok need := by
  induction source generalizing p with
  | nil => simp
  | cons c source ih =>
    obtain ⟨need, q, hneed, hrest, -⟩ := ofComments_cons_ok h
    intro d hd
    rcases List.mem_cons.mp hd with rfl | hd
    · exact ⟨need, hneed⟩
    · exact ih hrest d hd

/-- There is a plan as soon as every comment can be matched. -/
lemma exists_ofComments (h : ∀ c ∈ source, ∃ need, needOf held c = .ok need) :
    ∃ p, ofComments source held = .ok p := by
  induction source with
  | nil => exact ⟨_, rfl⟩
  | cons c source ih =>
    obtain ⟨need, hneed⟩ := h c List.mem_cons_self
    obtain ⟨q, hq⟩ := ih fun d hd => h d (List.mem_cons_of_mem c hd)
    refine ⟨cons c need q, ?_⟩
    unfold ofComments
    rw [hneed, hq]
    rfl

lemma additions_eq (h : ofComments source held = .ok p) :
    p.additions.map .create = source.filterMap (addition? held) := by
  induction source generalizing p with
  | nil =>
    rw [← Except.ok.inj h]
    rfl
  | cons c source ih =>
    obtain ⟨need, q, hneed, hrest, rfl⟩ := ofComments_cons_ok h
    have hq := ih hrest
    unfold addition?
    rw [List.filterMap_cons, hneed]
    cases need with
    | add => exact congrArg _ hq
    | edit t => exact hq
    | nothing => exact hq

lemma edits_eq (h : ofComments source held = .ok p) :
    (p.edits.map fun (c, t) => CommentWrite.edit c t) = source.filterMap (edition? held) := by
  induction source generalizing p with
  | nil =>
    rw [← Except.ok.inj h]
    rfl
  | cons c source ih =>
    obtain ⟨need, q, hneed, hrest, rfl⟩ := ofComments_cons_ok h
    have hq := ih hrest
    unfold edition?
    rw [List.filterMap_cons, hneed]
    cases need with
    | add => exact hq
    | edit t => exact congrArg _ hq
    | nothing => exact hq

lemma additions_sublist (h : ofComments source held = .ok p) : p.additions.Sublist source := by
  induction source generalizing p with
  | nil =>
    rw [← Except.ok.inj h]
  | cons c source ih =>
    obtain ⟨need, q, -, hrest, rfl⟩ := ofComments_cons_ok h
    have hq := ih hrest
    cases need with
    | add => exact hq.cons_cons c
    | edit t => exact hq.cons c
    | nothing => exact hq.cons c

lemma writes_eq (h : ofComments source held = .ok p) :
    p.writes = source.filterMap (addition? held) ++ source.filterMap (edition? held) := by
  unfold CommentPlan.writes
  rw [additions_eq h, edits_eq h]

lemma isEmpty_of_writes (h : p.writes = []) : p.isEmpty = true := by
  unfold CommentPlan.writes at h
  obtain ⟨hadditions, hedits⟩ := List.append_eq_nil_iff.mp h
  unfold CommentPlan.isEmpty
  rw [List.map_eq_nil_iff.mp hadditions, List.map_eq_nil_iff.mp hedits]
  rfl

lemma writes_of_isEmpty (h : p.isEmpty = true) : p.writes = [] := by
  unfold CommentPlan.isEmpty at h
  rw [Bool.and_eq_true, List.isEmpty_iff, List.isEmpty_iff] at h
  unfold CommentPlan.writes
  rw [h.1, h.2]
  rfl

lemma create_mem_writes (h : ofComments source held = .ok p) (hc : .create c ∈ p.writes) :
    c ∈ source ∧ needOf held c = .ok .add := by
  rw [writes_eq h, List.mem_append, List.mem_filterMap, List.mem_filterMap] at hc
  rcases hc with ⟨d, hd, hw⟩ | ⟨d, hd, hw⟩
  · obtain ⟨heq, hneed⟩ := addition?_eq_some hw
    cases heq
    exact ⟨hd, hneed⟩
  · obtain ⟨t, heq, -⟩ := edition?_eq_some hw
    cases heq

lemma edit_mem_writes (h : ofComments source held = .ok p) (hc : .edit c t ∈ p.writes) :
    c ∈ source ∧ needOf held c = .ok (.edit t) := by
  rw [writes_eq h, List.mem_append, List.mem_filterMap, List.mem_filterMap] at hc
  rcases hc with ⟨d, hd, hw⟩ | ⟨d, hd, hw⟩
  · obtain ⟨heq, -⟩ := addition?_eq_some hw
    cases heq
  · obtain ⟨t', heq, hneed⟩ := edition?_eq_some hw
    cases heq
    exact ⟨hd, hneed⟩

/-! ## Counterparts -/

lemma counterpart_cons (id : Int64) (t : Jira.Comment) (held : List Jira.Comment) :
    counterpart id (t :: held) =
      match Header.id? t.body with
      | .error e => .error e
      | .ok found => if found = some id then .ok (some t) else counterpart id held :=
  rfl

lemma counterpart_some {id : Int64} (h : counterpart id held = .ok (some t)) :
    t ∈ held ∧ Header.id? t.body = .ok (some id) := by
  induction held with
  | nil => cases h
  | cons x held ih =>
    rw [counterpart_cons] at h
    cases hx : Header.id? x.body with
    | error e =>
      rw [hx] at h
      cases h
    | ok found =>
      rw [hx] at h
      dsimp only at h
      by_cases hfound : found = some id
      · rw [if_pos hfound] at h
        obtain rfl := Option.some.inj (Except.ok.inj h)
        exact ⟨List.mem_cons_self, by rw [hx, hfound]⟩
      · rw [if_neg hfound] at h
        exact ⟨List.mem_cons_of_mem x (ih h).1, (ih h).2⟩

lemma counterpart_none {id : Int64} (h : counterpart id held = .ok none) :
    ∀ t ∈ held, Header.id? t.body ≠ .ok (some id) := by
  induction held with
  | nil => simp
  | cons x held ih =>
    rw [counterpart_cons] at h
    cases hx : Header.id? x.body with
    | error e =>
      rw [hx] at h
      cases h
    | ok found =>
      rw [hx] at h
      dsimp only at h
      by_cases hfound : found = some id
      · rw [if_pos hfound] at h
        cases h
      · rw [if_neg hfound] at h
        intro t ht
        rcases List.mem_cons.mp ht with rfl | ht
        · rw [hx]
          exact fun heq => hfound (Except.ok.inj heq)
        · exact ih h t ht

/-- The first of two lists of comments is searched first. -/
lemma counterpart_append (id : Int64) (held more : List Jira.Comment) :
    counterpart id (held ++ more) =
      (counterpart id held).bind fun
        | some t => .ok (some t)
        | none => counterpart id more := by
  induction held with
  | nil => rfl
  | cons x held ih =>
    rw [List.cons_append, counterpart_cons, counterpart_cons, ih]
    cases Header.id? x.body with
    | error e => rfl
    | ok number =>
      dsimp only
      by_cases hnumber : number = some id
      · rw [if_pos hnumber, if_pos hnumber]
        rfl
      · rw [if_neg hnumber, if_neg hnumber]

/-- A new text with the same number leaves all counterparts in place. -/
lemma counterpart_rewritten {id body : String} (n : Int64)
    (h : ∀ t ∈ held, t.id = id → Header.id? t.body = Header.id? body) :
    counterpart n (rewritten id body held) =
      (counterpart n held).map (Option.map fun t => if t.id = id then { t with body } else t) := by
  induction held with
  | nil => rfl
  | cons x held ih =>
    have hrest := ih fun t ht => h t (List.mem_cons_of_mem x ht)
    have hx : Header.id? (if x.id = id then { x with body } else x).body = Header.id? x.body := by
      by_cases hid : x.id = id
      · rw [if_pos hid, h x List.mem_cons_self hid]
      · rw [if_neg hid]
    change counterpart n ((if x.id = id then { x with body } else x) :: rewritten id body held) = _
    rw [counterpart_cons, counterpart_cons, hx, hrest]
    cases Header.id? x.body with
    | error e => rfl
    | ok number =>
      dsimp only
      by_cases hnumber : number = some n
      · rw [if_pos hnumber, if_pos hnumber]
        rfl
      · rw [if_neg hnumber, if_neg hnumber]

lemma needOf_none (h : counterpart c.id held = .ok none) : needOf held c = .ok .add := by
  unfold needOf
  rw [h]
  rfl

lemma needOf_some (h : counterpart c.id held = .ok (some t)) :
    needOf held c = (isStale c t).map fun stale => if stale then .edit t else .nothing := by
  unfold needOf
  rw [h]
  cases hstale : isStale c t with
  | error e =>
    change (isStale c t >>= _) = _
    rw [hstale]
    rfl
  | ok stale =>
    change (isStale c t >>= _) = _
    rw [hstale]
    cases stale <;> rfl

lemma needOf_eq_of_counterpart (h : counterpart c.id held = counterpart c.id held') :
    needOf held c = needOf held' c := by
  unfold needOf
  rw [h]

lemma counterpart_of_needOf_ok {need : Need} (h : needOf held c = .ok need) :
    ∃ found, counterpart c.id held = .ok found := by
  unfold needOf at h
  cases hfound : counterpart c.id held with
  | error e =>
    rw [hfound] at h
    cases h
  | ok found => exact ⟨found, rfl⟩

lemma counterpart_of_add (h : needOf held c = .ok .add) : counterpart c.id held = .ok none := by
  obtain ⟨found, hfound⟩ := counterpart_of_needOf_ok h
  cases found with
  | none => exact hfound
  | some t =>
    rw [needOf_some hfound] at h
    cases hstale : isStale c t with
    | error e =>
      rw [hstale] at h
      cases h
    | ok stale =>
      rw [hstale] at h
      cases stale <;> cases h

lemma counterpart_of_edit (h : needOf held c = .ok (.edit t)) :
    counterpart c.id held = .ok (some t) := by
  obtain ⟨found, hfound⟩ := counterpart_of_needOf_ok h
  cases found with
  | none =>
    rw [needOf_none hfound] at h
    cases h
  | some t' =>
    rw [hfound]
    rw [needOf_some hfound] at h
    cases hstale : isStale c t' with
    | error e =>
      rw [hstale] at h
      cases h
    | ok stale =>
      rw [hstale] at h
      cases stale with
      | false => cases h
      | true => rw [Need.edit.inj (Except.ok.inj h)]

/-- A plan edits only comments that are there. -/
lemma mem_held_of_edit (h : ofComments source held = .ok p) (hc : .edit c t ∈ p.writes) :
    t ∈ held :=
  (counterpart_some (counterpart_of_edit (edit_mem_writes h hc).2)).1

end IssueBridge.Proofs
