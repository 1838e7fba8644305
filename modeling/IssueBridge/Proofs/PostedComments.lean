import IssueBridge.Proofs.CommentNeeds
import IssueBridge.Proofs.HeaderRoundTrip

/-!
# Posting comments

What the writes of a plan make of the comments of an issue. Every write settles what its GitHub
comment asked for and leaves what the others ask for, so a plan that was carried out in part is
continued by the plan that is made next.
-/

namespace IssueBridge.Proofs

open CommentPlan

/-- The comments of an issue before and after writes. -/
inductive Posted (users : Dictionary GitHub.User) :
    List CommentWrite → List Jira.Comment → List Jira.Comment → Prop where
  | nil (held : List Jira.Comment) : Posted users [] held held
  | create {c : GitHub.Comment} {u : GitHub.User} {t : Jira.Comment} {ws : List CommentWrite}
      {held held' : List Jira.Comment} (hu : users.get? c.author = some u)
      (hbody : t.body = Header.written c u) (hid : t.id ∉ held.map Jira.Comment.id)
      (hrest : Posted users ws (held ++ [t]) held') : Posted users (.create c :: ws) held held'
  | edit {c : GitHub.Comment} {u : GitHub.User} {t : Jira.Comment} {ws : List CommentWrite}
      {held held' : List Jira.Comment} (hu : users.get? c.author = some u)
      (hrest : Posted users ws (rewritten t.id (Header.written c u) held) held') :
      Posted users (.edit c t :: ws) held held'

variable {users : Dictionary GitHub.User} {source : List GitHub.Comment} {c : GitHub.Comment}
  {u : GitHub.User} {t : Jira.Comment} {held held' held'' : List Jira.Comment}
  {ws done rest : List CommentWrite} {p : CommentPlan}

lemma posted_append (h : Posted users done held held') (h' : Posted users rest held' held'') :
    Posted users (done ++ rest) held held'' := by
  induction h with
  | nil held => exact h'
  | create hu hbody hid _ ih => exact Posted.create hu hbody hid (ih h')
  | edit hu _ ih => exact Posted.edit hu (ih h')

lemma nodup_posted (h : Posted users ws held held') (hheld : (held.map Jira.Comment.id).Nodup) :
    (held'.map Jira.Comment.id).Nodup := by
  induction h with
  | nil held => exact hheld
  | create _ _ hid _ ih =>
    refine ih ?_
    rw [List.map_append, List.map_singleton]
    refine List.nodup_append.mpr ⟨hheld, List.nodup_singleton _, fun a ha b hb hab => hid ?_⟩
    rw [← List.mem_singleton.mp hb, ← hab]
    exact ha
  | edit _ _ ih =>
    refine ih ?_
    rw [map_id_rewritten]
    exact hheld

lemma mem_ids_posted (h : Posted users ws held held') {id : String}
    (hid : id ∈ held.map Jira.Comment.id) : id ∈ held'.map Jira.Comment.id := by
  induction h with
  | nil held => exact hid
  | create _ _ _ _ ih =>
    refine ih ?_
    rw [List.map_append]
    exact List.mem_append_left _ hid
  | edit _ _ ih =>
    refine ih ?_
    rw [map_id_rewritten]
    exact hid

/-! ## Carrying out a plan -/

/-- Of the writes asked for, settling the comment of the first leaves the others. -/
lemma filterMap_settled {f f' : GitHub.Comment → Option CommentWrite} {w : CommentWrite}
    (hnodup : source.Nodup) (hsource : ∀ d x, f d = some x → x.source = d)
    (hf' : ∀ d ∈ source, f' d = if d = w.source then none else f d)
    (h : source.filterMap f = w :: rest) : source.filterMap f' = rest := by
  induction source with
  | nil => cases h
  | cons d source ih =>
    obtain ⟨hd, hnodup⟩ := List.nodup_cons.mp hnodup
    have htail : ∀ x ∈ source, f' x = if x = w.source then none else f x :=
      fun x hx => hf' x (List.mem_cons_of_mem d hx)
    have hhead := hf' d List.mem_cons_self
    rw [List.filterMap_cons] at h ⊢
    cases hfd : f d with
    | none =>
      rw [hfd] at h hhead
      rw [hhead, ite_self]
      exact ih hnodup htail h
    | some x =>
      rw [hfd] at h
      obtain ⟨rfl, hrest⟩ := List.cons.inj h
      have hdx := hsource d x hfd
      rw [hhead, if_pos hdx.symm]
      dsimp only
      rw [← hrest]
      refine List.filterMap_congr fun y hy => ?_
      rw [htail y hy, if_neg]
      rintro rfl
      exact hd (hdx ▸ hy)

lemma nodup_source (h : Distinct source) : source.Nodup :=
  h.ids.of_map _

lemma eq_of_id_eq (h : Distinct source) {c d : GitHub.Comment} (hc : c ∈ source) (hd : d ∈ source)
    (hid : c.id = d.id) : c = d :=
  List.inj_on_of_nodup_map h.ids hc hd hid

lemma source_addition? (d : GitHub.Comment) (w : CommentWrite) (h : addition? held d = some w) :
    w.source = d := by
  rw [(addition?_eq_some h).1]
  rfl

lemma source_edition? (d : GitHub.Comment) (w : CommentWrite) (h : edition? held d = some w) :
    w.source = d := by
  obtain ⟨t, rfl, -⟩ := edition?_eq_some h
  rfl

/-- Once the first comment of a plan is settled, the plan is the rest of it. -/
lemma plan_step {w : CommentWrite} (hsource : Distinct source)
    (hp : ofComments source held = .ok p) (hw : p.writes = w :: rest)
    (hneeds : ∀ d ∈ source,
      needOf held' d = if d = w.source then .ok .nothing else needOf held d) :
    ∃ p', ofComments source held' = .ok p' ∧ p'.writes = rest := by
  have hok : ∀ d ∈ source, ∃ need, needOf held' d = .ok need := by
    intro d hd
    rw [hneeds d hd]
    by_cases hdw : d = w.source
    · exact ⟨_, if_pos hdw⟩
    · rw [if_neg hdw]
      exact needOf_ok hp d hd
  obtain ⟨p', hp'⟩ := exists_ofComments hok
  refine ⟨p', hp', ?_⟩
  have hadd : ∀ d ∈ source,
      addition? held' d = if d = w.source then none else addition? held d := by
    intro d hd
    unfold addition?
    rw [hneeds d hd]
    by_cases hdw : d = w.source
    · rw [if_pos hdw, if_pos hdw]
    · rw [if_neg hdw, if_neg hdw]
  have hedit : ∀ d ∈ source,
      edition? held' d = if d = w.source then none else edition? held d := by
    intro d hd
    unfold edition?
    rw [hneeds d hd]
    by_cases hdw : d = w.source
    · rw [if_pos hdw, if_pos hdw]
    · rw [if_neg hdw, if_neg hdw]
  rw [writes_eq hp] at hw
  rw [writes_eq hp']
  cases hadditions : source.filterMap (addition? held) with
  | nil =>
    -- no additions are left, so the first write is an edit
    rw [hadditions, List.nil_append] at hw
    have hnone : source.filterMap (addition? held') = [] := by
      rw [List.filterMap_eq_nil_iff] at hadditions ⊢
      intro d hd
      rw [hadd d hd, hadditions d hd, ite_self]
    rw [hnone, List.nil_append]
    exact filterMap_settled (nodup_source hsource) source_edition? hedit hw
  | cons x additions =>
    rw [hadditions, List.cons_append] at hw
    obtain ⟨rfl, hrest⟩ := List.cons.inj hw
    have hx : x ∈ source.filterMap (addition? held) := by
      rw [hadditions]
      exact List.mem_cons_self
    obtain ⟨d, hd, hdx⟩ := List.mem_filterMap.mp hx
    obtain ⟨rfl, hneed⟩ := addition?_eq_some hdx
    have hsame : ∀ e ∈ source, edition? held' e = edition? held e := by
      intro e he
      rw [hedit e he]
      by_cases hed : e = d
      · subst hed
        have hnone : edition? held e = none := by
          unfold edition?
          rw [hneed]
        rw [hnone, ite_self]
      · exact if_neg hed
    rw [filterMap_settled (nodup_source hsource) source_addition? hadd hadditions,
      List.filterMap_congr hsame]
    exact hrest

lemma needs_after_create (hsource : Distinct source) (hp : ofComments source held = .ok p)
    (hc : .create c ∈ p.writes) (hu : Legible c u) (hbody : t.body = Header.written c u) :
    ∀ d ∈ source, needOf (held ++ [t]) d = if d = c then .ok .nothing else needOf held d := by
  obtain ⟨hmem, hadd⟩ := create_mem_writes hp hc
  have hlast : ∀ d : GitHub.Comment, counterpart d.id [t] =
      if some c.id = some d.id then .ok (some t) else .ok none := by
    intro d
    rw [counterpart_cons, hbody, id?_written u hu.id]
    rfl
  intro d hd
  obtain ⟨need, hneed⟩ := needOf_ok hp d hd
  obtain ⟨found, hfound⟩ := counterpart_of_needOf_ok hneed
  have happend := counterpart_append d.id held [t]
  rw [hfound] at happend
  by_cases hdc : d = c
  · subst hdc
    rw [counterpart_of_add hadd] at hfound
    obtain rfl := Except.ok.inj hfound
    have hcounterpart : counterpart d.id (held ++ [t]) = .ok (some t) := by
      rw [happend]
      exact (hlast d).trans (if_pos rfl)
    have hstale : isStale d t = .ok false := by
      have hwritten := isStale_written hu t.id
      rw [← hbody] at hwritten
      exact hwritten
    rw [if_pos rfl, needOf_some hcounterpart, hstale]
    rfl
  · rw [if_neg hdc]
    refine needOf_eq_of_counterpart ?_
    rw [happend, hfound]
    cases found with
    | some x => rfl
    | none =>
      refine (hlast d).trans (if_neg fun heq => hdc ?_)
      exact eq_of_id_eq hsource hd hmem (Option.some.inj heq).symm

lemma id?_of_edit (hheld : (held.map Jira.Comment.id).Nodup)
    (hedit : needOf held c = .ok (.edit t)) :
    ∀ x ∈ held, x.id = t.id → Header.id? x.body = .ok (some c.id) := by
  obtain ⟨ht, hid⟩ := counterpart_some (counterpart_of_edit hedit)
  intro x hx hxt
  rw [List.inj_on_of_nodup_map hheld hx ht hxt]
  exact hid

lemma needs_after_edit (hsource : Distinct source) (hheld : (held.map Jira.Comment.id).Nodup)
    (hp : ofComments source held = .ok p) (hc : .edit c t ∈ p.writes) (hu : Legible c u) :
    ∀ d ∈ source, needOf (rewritten t.id (Header.written c u) held) d =
      if d = c then .ok .nothing else needOf held d := by
  obtain ⟨hmem, hedit⟩ := edit_mem_writes hp hc
  have hcounterpart := counterpart_of_edit hedit
  have hmarks := id?_of_edit hheld hedit
  have hsame : ∀ x ∈ held, x.id = t.id →
      Header.id? x.body = Header.id? (Header.written c u) := by
    intro x hx hxt
    rw [hmarks x hx hxt, id?_written u hu.id]
  intro d hd
  have hd' := counterpart_rewritten d.id hsame
  by_cases hdc : d = c
  · subst hdc
    rw [hcounterpart] at hd'
    have hnew : counterpart d.id (rewritten t.id (Header.written d u) held) =
        .ok (some ⟨t.id, Header.written d u⟩) := by
      rw [hd']
      change Except.ok (some (if t.id = t.id then { t with body := Header.written d u } else t)) = _
      rw [if_pos rfl]
    rw [if_pos rfl, needOf_some hnew, isStale_written hu]
    rfl
  · rw [if_neg hdc]
    refine needOf_eq_of_counterpart ?_
    rw [hd']
    cases hfound : counterpart d.id held with
    | error e => rfl
    | ok found =>
      cases found with
      | none => rfl
      | some x =>
        obtain ⟨hx, hxid⟩ := counterpart_some hfound
        have hne : x.id ≠ t.id := by
          intro hxt
          rw [hmarks x hx hxt] at hxid
          exact hdc (eq_of_id_eq hsource hd hmem (Option.some.inj (Except.ok.inj hxid)).symm)
        change Except.ok (some (if x.id = t.id then _ else x)) = _
        rw [if_neg hne]

/-- After some of the writes of a plan, the next plan asks for the rest of them. -/
theorem plan_resumes (hsource : Distinct source)
    (hlegible : ∀ c ∈ source, ∀ u, users.get? c.author = some u → Legible c u)
    (hheld : (held.map Jira.Comment.id).Nodup) (hp : ofComments source held = .ok p)
    (hw : p.writes = done ++ rest) (h : Posted users done held held') :
    ∃ p', ofComments source held' = .ok p' ∧ p'.writes = rest := by
  induction h generalizing p with
  | nil held => exact ⟨p, hp, hw⟩
  | @create c u t ws held held' hu hbody hid hrest ih =>
    have hmem : .create c ∈ p.writes := by
      rw [hw]
      exact List.mem_cons_self
    have hlegible' := hlegible c (create_mem_writes hp hmem).1 u hu
    obtain ⟨q, hq, hqw⟩ := plan_step hsource hp hw
      (needs_after_create hsource hp hmem hlegible' hbody)
    exact ih (nodup_posted (Posted.create hu hbody hid (Posted.nil _)) hheld) hq hqw
  | @edit c u t ws held held' hu hrest ih =>
    have hmem : .edit c t ∈ p.writes := by
      rw [hw]
      exact List.mem_cons_self
    have hlegible' := hlegible c (edit_mem_writes hp hmem).1 u hu
    obtain ⟨q, hq, hqw⟩ := plan_step hsource hp hw
      (needs_after_edit hsource hheld hp hmem hlegible')
    exact ih (nodup_posted (Posted.edit hu (Posted.nil _)) hheld) hq hqw

/-! ## Identifiers do not matter -/

/-- Comments that agree in their texts, and in the identifiers that are told apart. -/
def Twins (ids : List String) (held held' : List Jira.Comment) : Prop :=
  List.Forall₂ (fun t t' => t.body = t'.body ∧ ∀ id ∈ ids, t.id = id ↔ t'.id = id) held held'

lemma twins_refl (ids : List String) (held : List Jira.Comment) : Twins ids held held :=
  List.forall₂_same.mpr fun _ _ => ⟨rfl, fun _ _ => Iff.rfl⟩

lemma twins_append {ids : List String} {t t' : Jira.Comment} (h : Twins ids held held')
    (hbody : t.body = t'.body) (ht : t.id ∉ ids) (ht' : t'.id ∉ ids) :
    Twins ids (held ++ [t]) (held' ++ [t']) := by
  refine List.rel_append h (List.Forall₂.cons ⟨hbody, fun id hid => ?_⟩ List.Forall₂.nil)
  constructor
  · intro heq
    exact absurd (heq ▸ hid) ht
  · intro heq
    exact absurd (heq ▸ hid) ht'

lemma twins_rewritten {ids : List String} {id : String} (h : Twins ids held held')
    (hid : id ∈ ids) (body : String) :
    Twins ids (rewritten id body held) (rewritten id body held') := by
  unfold Twins rewritten
  rw [List.forall₂_map_left_iff, List.forall₂_map_right_iff]
  refine List.Forall₂.imp (fun t t' htwin => ?_) h
  obtain ⟨hbody, hids⟩ := htwin
  by_cases ht : t.id = id
  · rw [if_pos ht, if_pos ((hids id hid).mp ht)]
    exact ⟨rfl, hids⟩
  · rw [if_neg ht, if_neg fun ht' => ht ((hids id hid).mpr ht')]
    exact ⟨hbody, hids⟩

lemma twins_posted {ids : List String} {after after' : List Jira.Comment}
    (hedits : ∀ c t, .edit c t ∈ ws → t.id ∈ ids) (htwins : Twins ids held held')
    (hheld : ∀ id ∈ ids, id ∈ held.map Jira.Comment.id)
    (hheld' : ∀ id ∈ ids, id ∈ held'.map Jira.Comment.id) (h : Posted users ws held after)
    (h' : Posted users ws held' after') : Twins ids after after' := by
  induction h generalizing held' with
  | nil held =>
    cases h'
    exact htwins
  | @create c u t ws held after hu hbody hid hrest ih =>
    cases h' with
    | @create _ u' t' _ _ _ hu' hbody' hid' hrest' =>
      rw [hu] at hu'
      obtain rfl := Option.some.inj hu'
      refine ih (fun d x hx => hedits d x (List.mem_cons_of_mem _ hx)) ?_ ?_ ?_ hrest'
      · refine twins_append htwins (hbody.trans hbody'.symm) ?_ ?_
        · exact fun ht => hid (hheld _ ht)
        · exact fun ht => hid' (hheld' _ ht)
      · intro id hmem
        rw [List.map_append]
        exact List.mem_append_left _ (hheld id hmem)
      · intro id hmem
        rw [List.map_append]
        exact List.mem_append_left _ (hheld' id hmem)
  | @edit c u t ws held after hu hrest ih =>
    cases h' with
    | @edit _ u' _ _ _ _ hu' hrest' =>
      rw [hu] at hu'
      obtain rfl := Option.some.inj hu'
      refine ih (fun d x hx => hedits d x (List.mem_cons_of_mem _ hx)) ?_ ?_ ?_ hrest'
      · exact twins_rewritten htwins (hedits c t List.mem_cons_self) _
      · intro id hmem
        rw [map_id_rewritten]
        exact hheld id hmem
      · intro id hmem
        rw [map_id_rewritten]
        exact hheld' id hmem

/-- The texts that a plan leaves do not depend on the identifiers that new comments get. -/
theorem bodies_posted {after after' : List Jira.Comment} (hp : ofComments source held = .ok p)
    (h : Posted users p.writes held after) (h' : Posted users p.writes held after') :
    after.map Jira.Comment.body = after'.map Jira.Comment.body := by
  have hedits : ∀ c t, .edit c t ∈ p.writes → t.id ∈ held.map Jira.Comment.id := by
    intro c t hc
    exact List.mem_map_of_mem (mem_held_of_edit hp hc)
  have htwins := twins_posted hedits (twins_refl _ held) (fun _ hid => hid) (fun _ hid => hid) h h'
  have hbodies := List.Forall₂.imp (fun _ _ htwin => htwin.1) htwins
  rw [← List.forall₂_eq_eq_eq, List.forall₂_map_left_iff, List.forall₂_map_right_iff]
  exact hbodies

end IssueBridge.Proofs
