import IssueBridge.Proofs.CommentCarriers
import IssueBridge.Proofs.HeaderGrammar

/-!
# Comment plans as partitions

A plan has each GitHub comment in one of its parts, by the first Jira comment that carries its
number. It fails with the first GitHub comment whose search meets a number that is none, or ends at
a comment whose header is broken.
-/

namespace IssueBridge.Proofs

open CommentPlan

variable {source : List GitHub.Comment} {target : List Jira.Comment} {c c' : GitHub.Comment}
  {t : Jira.Comment} {e : HeaderError} {p : CommentPlan}

/-- The first Jira comment that carries the number of a GitHub comment. -/
def mate? (target : List Jira.Comment) (c : GitHub.Comment) : Option Jira.Comment :=
  target.find? (carries c.id)

/-- The Jira comments before that one; all of them if there is none. -/
def ahead (target : List Jira.Comment) (c : GitHub.Comment) : List Jira.Comment :=
  target.takeWhile fun t => !carries c.id t

/-- What is wrong with the number of a Jira comment. -/
def misnumbered? (t : Jira.Comment) : Option HeaderError :=
  match Header.id? t.body with
  | .error e => some e
  | .ok _ => none

/-- What is wrong with the header of a Jira comment behind its number. -/
def broken? (t : Jira.Comment) : Option HeaderError :=
  match Header.parse? t.body with
  | .ok none => some (.unparseable t.id)
  | _ => none

/-- What keeps a GitHub comment from being matched. -/
def flaw? (target : List Jira.Comment) (c : GitHub.Comment) : Option HeaderError :=
  ((ahead target c).findSome? misnumbered?).or ((mate? target c).bind broken?)

/-- The text of a GitHub comment differs from the one that a Jira comment holds. -/
def outdated (c : GitHub.Comment) (t : Jira.Comment) : Bool :=
  match isStale c t with
  | .ok stale => stale
  | .error _ => false

/-- A GitHub comment and its Jira comment that is to be edited. -/
def edit? (target : List Jira.Comment) (c : GitHub.Comment) :
    Option (GitHub.Comment × Jira.Comment) :=
  ((mate? target c).filter (outdated c)).map fun t => (c, t)

/-- A GitHub comment has a Jira comment, and it needs no other text. -/
def settled (target : List Jira.Comment) (c : GitHub.Comment) : Bool :=
  (mate? target c).any fun t => !outdated c t

/-! ## One comment -/

lemma counterpart_eq (target : List Jira.Comment) (c : GitHub.Comment) :
    counterpart c.id target =
      match (ahead target c).findSome? misnumbered? with
      | some e => .error e
      | none => .ok (mate? target c) := by
  induction target with
  | nil => rfl
  | cons t target ih =>
    unfold ahead mate? at ih ⊢
    rw [counterpart_cons, List.takeWhile_cons, List.find?_cons]
    cases hid : Header.id? t.body with
    | error e =>
      have hcarries : carries c.id t = false := by simp [carries, hid]
      simp [hcarries, misnumbered?, hid]
    | ok found =>
      by_cases hfound : found = some c.id
      · have hcarries : carries c.id t = true := by simp [carries, hid, hfound]
        simp [hcarries, hfound]
      · have hcarries : carries c.id t = false := by simp [carries, hid, hfound]
        simp [hcarries, misnumbered?, hid, hfound, ih]

lemma isStale_eq (h : carries c.id t = true) :
    isStale c t =
      match broken? t with
      | some e => .error e
      | none => .ok (outdated c t) := by
  rw [carries_iff] at h
  unfold outdated broken? isStale
  cases hparse : Header.parse? t.body with
  | error e =>
    -- the number in front would be wrong too
    rw [id?_of_parse?_error hparse] at h
    cases h
  | ok found =>
    cases found with
    | none => rfl
    | some parsed =>
      dsimp only
      split <;> rfl

lemma carries_of_mate? (h : mate? target c = some t) : carries c.id t = true :=
  List.find?_some h

lemma needOf_eq (target : List Jira.Comment) (c : GitHub.Comment) :
    needOf target c =
      match flaw? target c with
      | some e => .error e
      | none => .ok (match mate? target c with
        | none => .add
        | some t => if outdated c t then .edit t else .nothing) := by
  have hcounterpart := counterpart_eq target c
  unfold flaw?
  cases hahead : (ahead target c).findSome? misnumbered? with
  | some e =>
    rw [hahead] at hcounterpart
    unfold needOf
    rw [hcounterpart]
    rfl
  | none =>
    rw [hahead] at hcounterpart
    cases hmate : mate? target c with
    | none =>
      rw [hmate] at hcounterpart
      exact needOf_none hcounterpart
    | some t =>
      rw [hmate] at hcounterpart
      rw [needOf_some hcounterpart, isStale_eq (carries_of_mate? hmate)]
      simp only [Option.none_or, Option.bind_some]
      cases broken? t with
      | some e => rfl
      | none => rfl

/-! ## All comments -/

/-- The parts of a plan, each described on its own. -/
structure Partitioned (source : List GitHub.Comment) (target : List Jira.Comment)
    (p : CommentPlan) : Prop where
  additions : p.additions = source.filter fun c => (mate? target c).isNone
  edits : p.edits = source.filterMap (edit? target)
  unchanged : p.unchanged = source.countP (settled target)

lemma partitioned_cons {need : Need} (hneed : needOf target c = .ok need)
    (h : Partitioned source target p) : Partitioned (c :: source) target (cons c need p) := by
  rw [needOf_eq] at hneed
  cases hflaw : flaw? target c with
  | some e =>
    rw [hflaw] at hneed
    cases hneed
  | none =>
    rw [hflaw] at hneed
    obtain rfl := Except.ok.inj hneed
    cases hmate : mate? target c with
    | none =>
      constructor <;> simp [CommentPlan.cons, edit?, settled, hmate, h.additions, h.edits,
        h.unchanged]
    | some t =>
      cases hstale : outdated c t with
      | true =>
        constructor <;> simp [CommentPlan.cons, edit?, settled, hmate, hstale, h.additions,
          h.edits, h.unchanged]
      | false =>
        constructor <;> simp [CommentPlan.cons, edit?, settled, hmate, hstale, h.additions,
          h.edits, h.unchanged]

lemma ofComments_cases (source : List GitHub.Comment) (target : List Jira.Comment) :
    (∃ e, source.findSome? (flaw? target) = some e ∧ ofComments source target = .error e) ∨
      (source.findSome? (flaw? target) = none ∧
        ∃ p, ofComments source target = .ok p ∧ Partitioned source target p) := by
  induction source with
  | nil => exact Or.inr ⟨rfl, _, rfl, ⟨rfl, rfl, rfl⟩⟩
  | cons c source ih =>
    rw [List.findSome?_cons]
    unfold ofComments
    cases hflaw : flaw? target c with
    | some e =>
      refine Or.inl ⟨e, rfl, ?_⟩
      rw [needOf_eq, hflaw]
    | none =>
      obtain ⟨need, hneed⟩ : ∃ need, needOf target c = .ok need := by
        rw [needOf_eq, hflaw]
        exact ⟨_, rfl⟩
      rw [hneed]
      rcases ih with ⟨e, hfirst, hrest⟩ | ⟨hfirst, q, hrest, hq⟩
      · refine Or.inl ⟨e, hfirst, ?_⟩
        rw [hrest]
        rfl
      · refine Or.inr ⟨hfirst, cons c need q, ?_, partitioned_cons hneed hq⟩
        rw [hrest]
        rfl

lemma length_parts (source : List GitHub.Comment) (target : List Jira.Comment) :
    (source.filter fun c => (mate? target c).isNone).length +
      (source.filterMap (edit? target)).length + source.countP (settled target) =
        source.length := by
  induction source with
  | nil => rfl
  | cons c source ih =>
    cases hmate : mate? target c with
    | none =>
      simp [edit?, settled, hmate] at ih ⊢
      omega
    | some t =>
      cases hstale : outdated c t with
      | true =>
        simp [edit?, settled, hmate, hstale] at ih ⊢
        omega
      | false =>
        simp [edit?, settled, hmate, hstale] at ih ⊢
        omega

lemma Partitioned.ext_plan {q : CommentPlan} (h : Partitioned source target p)
    (h' : Partitioned source target q) : p = q := by
  obtain ⟨additions, edits, unchanged⟩ := p
  obtain ⟨rfl, rfl, rfl⟩ := h
  obtain ⟨additions', edits', unchanged'⟩ := q
  obtain ⟨rfl, rfl, rfl⟩ := h'
  rfl

lemma ofComments_error_iff :
    ofComments source target = .error e ↔ source.findSome? (flaw? target) = some e := by
  rcases ofComments_cases source target with ⟨e', hfirst, hplan⟩ | ⟨hfirst, q, hplan, -⟩
  · rw [hplan, hfirst, Option.some_inj]
    exact ⟨Except.error.inj, congrArg Except.error⟩
  · simp [hplan, hfirst]

lemma ofComments_ok_iff :
    ofComments source target = .ok p ↔
      (∀ c ∈ source, flaw? target c = none) ∧ Partitioned source target p := by
  rw [← List.findSome?_eq_none_iff]
  rcases ofComments_cases source target with ⟨e', hfirst, hplan⟩ | ⟨hfirst, q, hplan, hq⟩
  · simp [hplan, hfirst]
  · rw [hplan]
    constructor
    · intro h
      obtain rfl := Except.ok.inj h
      exact ⟨hfirst, hq⟩
    · rintro ⟨-, hp⟩
      rw [hq.ext_plan hp]

/-- A Jira comment that is paired has a header that is read in full. -/
lemma headed_of_flawless (hflaw : flaw? target c = none) (hmate : mate? target c = some t) :
    ∃ found, Header.parse? t.body = .ok (some found) ∧ found.id = c.id := by
  have hid := carries_iff.mp (carries_of_mate? hmate)
  have hbroken : broken? t = none := by
    unfold flaw? at hflaw
    rw [Option.or_eq_none_iff, hmate] at hflaw
    exact hflaw.2
  unfold broken? at hbroken
  cases hparse : Header.parse? t.body with
  | error e =>
    rw [id?_of_parse?_error hparse] at hid
    cases hid
  | ok found =>
    rw [hparse] at hbroken
    cases found with
    | none => cases hbroken
    | some parsed =>
      rw [id?_of_parse? hparse] at hid
      exact ⟨parsed, rfl, Option.some.inj (Except.ok.inj hid)⟩

lemma misnumbered?_eq_some_iff :
    misnumbered? t = some e ↔ ∃ digits rest, Opened t.body digits rest ∧ ¬Denotes digits ∧
      e = .invalidId (String.ofList digits) := by
  have herror : misnumbered? t = some e ↔ Header.id? t.body = .error e := by
    unfold misnumbered?
    cases Header.id? t.body with
    | error e' => simp
    | ok found => simp
  rw [herror, (id?_readAs t.body).rejected]
  exact Prod.exists

lemma begins_of_carries {n : Int64} (h : carries n t = true) : Header.begins t.body = true := by
  obtain ⟨⟨digits, rest⟩, hopened, -⟩ := ((id?_readAs t.body).read n).mp (carries_iff.mp h)
  exact (begins_iff t.body).mpr ⟨digits, rest, hopened⟩

lemma eq_of_carries {m n : Int64} (hm : carries m t = true) (hn : carries n t = true) : m = n := by
  have hid := carries_iff.mp hm
  rw [carries_iff.mp hn] at hid
  exact (Option.some.inj (Except.ok.inj hid)).symm

/-- A plan fails with the first flaw of the GitHub comments, in their order. Otherwise it splits
them by their Jira comments, none of which is without a header or goes with two numbers. -/
theorem plans_partition (source : List GitHub.Comment) (target : List Jira.Comment) :
    (∀ e, ofComments source target = .error e ↔ source.findSome? (flaw? target) = some e) ∧
      (∀ p, ofComments source target = .ok p ↔
        (∀ c ∈ source, flaw? target c = none) ∧ Partitioned source target p) ∧
      (∀ p, ofComments source target = .ok p →
        p.additions.length + p.edits.length + p.unchanged = source.length ∧
          ∀ c ∈ source, ∀ t, mate? target c = some t →
            ∃ found, Header.parse? t.body = .ok (some found) ∧ found.id = c.id) ∧
      (∀ t e, misnumbered? t = some e ↔ ∃ digits rest, Opened t.body digits rest ∧
        ¬Denotes digits ∧ e = .invalidId (String.ofList digits)) ∧
      ∀ c t, mate? target c = some t → t ∈ target ∧ Header.begins t.body = true ∧
        ∀ c', mate? target c' = some t → c.id = c'.id := by
  refine ⟨fun e => ofComments_error_iff, fun p => ofComments_ok_iff, fun p hp => ?_,
    fun t e => misnumbered?_eq_some_iff, fun c t hmate => ?_⟩
  · obtain ⟨hflawless, hadditions, hedits, hunchanged⟩ := ofComments_ok_iff.mp hp
    refine ⟨?_, fun c hc t hmate => headed_of_flawless (hflawless c hc) hmate⟩
    rw [hadditions, hedits, hunchanged]
    exact length_parts source target
  · have hcarries := carries_of_mate? hmate
    exact ⟨List.mem_of_find?_eq_some hmate, begins_of_carries hcarries,
      fun c' hmate' => eq_of_carries hcarries (carries_of_mate? hmate')⟩

end IssueBridge.Proofs
