import IssueBridge.Proofs.PostedComments

/-!
# Comments that carry a number

A new comment carries a number that no comment carried before, and a new text carries the number of
the old one. So no plan, carried out as far as it may be, makes a second comment with one number.
-/

namespace IssueBridge.Proofs

open CommentPlan

/-- The header of a comment has a number. -/
def carries (n : Int64) (t : Jira.Comment) : Bool :=
  match Header.id? t.body with
  | .ok found => found == some n
  | .error _ => false

/-- The GitHub comments that writes add. -/
def created (ws : List CommentWrite) : List GitHub.Comment :=
  ws.filterMap fun
    | .create c => some c
    | .edit .. => none

/-- Every comment to edit is there, and carries the number of its GitHub comment. -/
def Matched (ws : List CommentWrite) (held : List Jira.Comment) : Prop :=
  ∀ c t, .edit c t ∈ ws → t.id ∈ held.map Jira.Comment.id ∧
    ∀ x ∈ held, x.id = t.id → Header.id? x.body = .ok (some c.id)

variable {users : Dictionary GitHub.User} {source : List GitHub.Comment} {c : GitHub.Comment}
  {t : Jira.Comment} {held held' : List Jira.Comment} {ws done rest : List CommentWrite}
  {p : CommentPlan} {n : Int64}

lemma carries_iff : carries n t = true ↔ Header.id? t.body = .ok (some n) := by
  unfold carries
  cases Header.id? t.body with
  | error e => simp
  | ok found => simp

lemma created_append (done rest : List CommentWrite) :
    created (done ++ rest) = created done ++ created rest :=
  List.filterMap_append

lemma created_writes (p : CommentPlan) : created p.writes = p.additions := by
  have hadditions : created (p.additions.map .create) = p.additions := by
    unfold created
    rw [List.filterMap_map]
    exact List.filterMap_some
  have hedits : created (p.edits.map fun e => .edit e.1 e.2) = [] := by
    unfold created
    rw [List.filterMap_map]
    exact List.filterMap_eq_nil_iff.mpr fun _ _ => rfl
  unfold CommentPlan.writes
  rw [created_append, hadditions]
  exact (congrArg (p.additions ++ ·) hedits).trans (List.append_nil _)

lemma matched_create (h : Matched (.create c :: ws) held) (hid : t.id ∉ held.map Jira.Comment.id) :
    Matched ws (held ++ [t]) := by
  intro d x hx
  obtain ⟨hthere, hcarries⟩ := h d x (List.mem_cons_of_mem _ hx)
  refine ⟨?_, fun y hy hyx => ?_⟩
  · rw [List.map_append]
    exact List.mem_append_left _ hthere
  · rcases List.mem_append.mp hy with hy | hy
    · exact hcarries y hy hyx
    · rw [List.mem_singleton.mp hy] at hyx
      rw [hyx] at hid
      exact absurd hthere hid

lemma matched_edit {body : String} (h : Matched (.edit c t :: ws) held)
    (hbody : Header.id? body = .ok (some c.id)) : Matched ws (rewritten t.id body held) := by
  obtain ⟨-, hold⟩ := h c t List.mem_cons_self
  intro d x hx
  obtain ⟨hthere, hcarries⟩ := h d x (List.mem_cons_of_mem _ hx)
  refine ⟨?_, fun y hy hyx => ?_⟩
  · rw [map_id_rewritten]
    exact hthere
  · obtain ⟨z, hz, rfl⟩ := List.mem_map.mp hy
    by_cases hzt : z.id = t.id
    · rw [if_pos hzt] at hyx ⊢
      have hsame := hold z hz hzt
      rw [hcarries z hz hyx] at hsame
      change Header.id? body = _
      rw [hbody, hsame]
    · rw [if_neg hzt] at hyx ⊢
      exact hcarries z hz hyx

/-- Only a new comment adds to the comments that carry a number. -/
lemma countP_posted (hnonneg : ∀ w ∈ ws, 0 ≤ w.source.id) (hmatched : Matched ws held)
    (h : Posted users ws held held') (n : Int64) :
    held'.countP (carries n) = held.countP (carries n) +
      (created ws).countP fun c => c.id == n := by
  induction h with
  | nil held => rfl
  | @create c u t ws held held' hu hbody hid hrest ih =>
    have hnumber : Header.id? (Header.written c u) = .ok (some c.id) :=
      id?_written u (hnonneg (.create c) List.mem_cons_self)
    have hnew : carries n t = (c.id == n) := by
      unfold carries
      rw [hbody, hnumber]
      rfl
    have hcreated : created (.create c :: ws) = c :: created ws := rfl
    rw [ih (fun w hw => hnonneg w (List.mem_cons_of_mem _ hw)) (matched_create hmatched hid),
      List.countP_append, List.countP_singleton, hcreated, List.countP_cons, hnew]
    omega
  | @edit c u t ws held held' hu hrest ih =>
    have hnumber : Header.id? (Header.written c u) = .ok (some c.id) :=
      id?_written u (hnonneg (.edit c t) List.mem_cons_self)
    have hcreated : created (.edit c t :: ws) = created ws := rfl
    have hsame : (rewritten t.id (Header.written c u) held).countP (carries n) =
        held.countP (carries n) := by
      unfold rewritten
      rw [List.countP_map]
      refine List.countP_congr fun x hx => ?_
      rw [Function.comp_apply]
      by_cases hxt : x.id = t.id
      · rw [if_pos hxt]
        have hx' := (hmatched c t List.mem_cons_self).2 x hx hxt
        rw [carries_iff, carries_iff, hx', hnumber]
      · rw [if_neg hxt]
    rw [ih (fun w hw => hnonneg w (List.mem_cons_of_mem _ hw)) (matched_edit hmatched hnumber),
      hsame, hcreated]

lemma matched_writes (hheld : (held.map Jira.Comment.id).Nodup)
    (hp : ofComments source held = .ok p) : Matched p.writes held := by
  intro c t hc
  refine ⟨List.mem_map_of_mem (mem_held_of_edit hp hc), ?_⟩
  exact id?_of_edit hheld (edit_mem_writes hp hc).2

lemma source_mem_of_mem_writes (hp : ofComments source held = .ok p) {w : CommentWrite}
    (hw : w ∈ p.writes) : w.source ∈ source := by
  cases w with
  | create c => exact (create_mem_writes hp hw).1
  | edit c t => exact (edit_mem_writes hp hw).1

/-- A plan that is carried out in part makes no second comment with one number. -/
theorem countP_carries_le_one (hsource : Distinct source)
    (hheld : (held.map Jira.Comment.id).Nodup) (hp : ofComments source held = .ok p)
    (hw : p.writes = done ++ rest) (h : Posted users done held held')
    (hone : held.countP (carries n) ≤ 1) : held'.countP (carries n) ≤ 1 := by
  have hdone : ∀ w ∈ done, w ∈ p.writes := by
    intro w hmem
    rw [hw]
    exact List.mem_append_left _ hmem
  have hcount := countP_posted (fun w hmem => hsource.nonneg _
    (source_mem_of_mem_writes hp (hdone w hmem)))
    (fun c t hc => matched_writes hheld hp c t (hdone _ hc)) h n
  have hcreated : (created done).Sublist source := by
    have hprefix := created_writes p
    rw [hw, created_append] at hprefix
    have hsub : (created done).Sublist p.additions := by
      rw [← hprefix]
      exact List.sublist_append_left _ _
    exact hsub.trans (additions_sublist hp)
  have hnodup : ((created done).map GitHub.Comment.id).Nodup :=
    hsource.ids.sublist (hcreated.map _)
  by_cases hnew : ∃ c ∈ created done, c.id = n
  · obtain ⟨c, hc, rfl⟩ := hnew
    have hmem : .create c ∈ p.writes := by
      obtain ⟨w, hmem, hwc⟩ := List.mem_filterMap.mp hc
      cases w with
      | create d =>
        rw [← Option.some.inj hwc]
        exact hdone _ hmem
      | edit d t => cases hwc
    have hnone := counterpart_none (counterpart_of_add (create_mem_writes hp hmem).2)
    have hzero : held.countP (carries c.id) = 0 := by
      rw [List.countP_eq_zero]
      exact fun t ht hcarries => hnone t ht (carries_iff.mp hcarries)
    have hle : (created done).countP (fun d => d.id == c.id) ≤ 1 := by
      have hcountP := List.nodup_iff_count_le_one.mp hnodup c.id
      rw [List.count, List.countP_map] at hcountP
      exact hcountP
    omega
  · have hzero : (created done).countP (fun c => c.id == n) = 0 := by
      rw [List.countP_eq_zero]
      exact fun c hc heq => hnew ⟨c, hc, by simpa using heq⟩
    omega

end IssueBridge.Proofs
