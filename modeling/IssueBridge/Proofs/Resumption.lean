import IssueBridge.Proofs.MirroredIssues

/-!
# Resumed work

Work on an issue that stopped anywhere is finished by later work as if it had been done at once, and
finished work is the same whenever it is done, apart from the time of the last write and from what
Jira names the new comments.
-/

namespace IssueBridge.Proofs

variable {s : Setting} {m : Memory} {g : GitHub.Issue} {i j k : Jira.Issue}
  {ids : Jira.FieldNumbers} {issueType : String} {users : Dictionary GitHub.User}
  {held held' held'' : List Jira.Comment} {x : CommentWrite} {ws : List CommentWrite}

/-- The comments on a GitHub issue can be told apart and their headers can be read back. -/
def Readable (m : Memory) (g : GitHub.Issue) : Prop :=
  Distinct (listedComments m g) ∧
    ∀ c ∈ listedComments m g, ∀ u, m.users.get? c.author = some u → Legible c u

lemma readable_of_snapshot (h : Snapshot m) (hg : g ∈ m.issues) : Readable m g :=
  ⟨h.comments g hg, h.legible g hg⟩

/-- What is left of a plan completes it. -/
lemma fullyPosted_resumed (hreadable : Readable m g) (hheld : (held.map Jira.Comment.id).Nodup)
    (h : PartlyPosted m g held held') (h' : FullyPosted m g held' held'') :
    FullyPosted m g held held'' := by
  rcases h with rfl | ⟨hcomments, p, done, rest, hp, hw, hposted⟩
  · exact h'
  · rcases h' with ⟨hzero, -⟩ | ⟨-, q, hq, hrest⟩
    · exact absurd hzero hcomments
    · obtain ⟨q', hq', hrest'⟩ := plan_resumes hreadable.1 hreadable.2 hheld hp hw hposted
      rw [hq] at hq'
      obtain rfl := Except.ok.inj hq'
      rw [hrest'] at hrest
      refine Or.inr ⟨hcomments, p, hp, ?_⟩
      rw [hw]
      exact posted_append hposted hrest

/-- Work that is finished after it was done in part is finished. -/
theorem finished_resumed (hids : Function.Injective ids.number) (hreadable : Readable m g)
    (hi : (i.comments.map Jira.Comment.id).Nodup) (h : Advanced ids issueType m g i j)
    (h' : Finished ids issueType m g j k) : Finished ids issueType m g i k := by
  obtain ⟨a, held, ha, hheld, rfl⟩ := h
  obtain ⟨b, held', hb, hheld', rfl⟩ := h'
  have hposted := fullyPosted_resumed hreadable hi hheld hheld'
  rcases ha with rfl | ha
  · exact ⟨{ b with comments := a.comments }, held', renewed_comments hb a.comments, hposted, rfl⟩
  · refine ⟨a, held', ha, hposted, ?_⟩
    rcases hb with ⟨-, rfl⟩ | ⟨hold, -⟩
    · rfl
    · rw [isOutdated_comments, isOutdated_renewed hids ha] at hold
      cases hold

lemma bodies_fullyPosted (h : FullyPosted m g held held') (h' : FullyPosted m g held held'') :
    held'.map Jira.Comment.body = held''.map Jira.Comment.body := by
  rcases h with ⟨hzero, rfl⟩ | ⟨hcomments, p, hp, hposted⟩
  · rcases h' with ⟨-, rfl⟩ | ⟨hcomments, -⟩
    · rfl
    · exact absurd hzero hcomments
  · rcases h' with ⟨hzero, -⟩ | ⟨-, q, hq, hposted'⟩
    · exact absurd hzero hcomments
    · rw [hp] at hq
      obtain rfl := Except.ok.inj hq
      exact bodies_posted hp hposted hposted'

/-- Finished work on alike issues leaves alike issues. -/
theorem finished_alike (hids : Function.Injective ids.number) {i' j' : Jira.Issue}
    (h : Alike ids i j) (hcomments : i.comments = j.comments)
    (hi : Finished ids issueType m g i i') (hj : Finished ids issueType m g j j') :
    Alike ids i' j' := by
  obtain ⟨a, held, ha, hheld, rfl⟩ := hi
  obtain ⟨b, held', hb, hheld', rfl⟩ := hj
  rw [← hcomments] at hheld'
  have halike := renewed_alike hids h ha hb
  exact ⟨halike.summary, halike.description, halike.issueType, halike.custom,
    bodies_fullyPosted hheld hheld'⟩

/-! ## What can be finished -/

lemma known_of_posted (h : Posted users ws held held') :
    ∀ x ∈ ws, users.get? x.source.author ≠ none := by
  induction h with
  | nil held => simp
  | @create c u t ws held held' hu hbody hid hrest ih =>
    intro x hx
    rcases List.mem_cons.mp hx with rfl | hx
    · change users.get? c.author ≠ none
      rw [hu]
      exact Option.some_ne_none u
    · exact ih x hx
  | @edit c u t ws held held' hu hrest ih =>
    intro x hx
    rcases List.mem_cons.mp hx with rfl | hx
    · change users.get? c.author ≠ none
      rw [hu]
      exact Option.some_ne_none u
    · exact ih x hx

/-- Nothing but a failing call stands in the way of what was finished once. -/
lemma not_hindered_of_fullyPosted (hreliable : ¬MayFail s.rules) (h : FullyPosted m g held held') :
    ¬CommentsHindered s m g held := by
  rintro (hfail | ⟨hcomments, hwhy⟩)
  · exact hreliable hfail
  · rcases h with ⟨hzero, -⟩ | ⟨-, p, hp, hposted⟩
    · exact hcomments hzero
    · rcases hwhy with ⟨e, he⟩ | ⟨q, hq, x, hx, hhindered⟩
      · rw [hp] at he
        cases he
      · rw [hp] at hq
        obtain rfl := Except.ok.inj hq
        rcases hhindered with hfail | hnone | ⟨c, t, rfl, ht⟩
        · exact hreliable hfail
        · exact known_of_posted hposted x hx hnone
        · exact ht (List.mem_map_of_mem (mem_held_of_edit hp hx))

lemma not_hindered_of_finished (hreliable : ¬MayFail s.rules)
    (h : Finished ids issueType m g i j) : ¬CommentsHindered s m g i.comments := by
  obtain ⟨a, held, -, hheld, -⟩ := h
  exact not_hindered_of_fullyPosted hreliable hheld

end IssueBridge.Proofs
