import IssueBridge.Proofs.IssueAccounts

/-!
# What a pass counts

The report of a pass against all calls that were made. Each issue that was listed has calls of its
own, whatever became of those before it.
-/

namespace IssueBridge.Proofs

open IssuePlan (taskOf)

variable {σ : Type} {p : Pass σ} {g : GitHub.Issue} {a : IssueTask} {deeds : List Deed}
  {o : IssueOutcome} {report after : Report} {existing : List Jira.Issue}
  {work : List (GitHub.Issue × List Deed)}

/-- What a report has more than another one, by the calls made for each issue in between. -/
structure Accounts (before after : Report) (work : List (GitHub.Issue × List Deed)) : Prop where
  created : after.created = before.created + (work.flatMap Prod.snd).countP Deed.created
  updated : after.updated = before.updated + (work.flatMap Prod.snd).countP Deed.updated
  commentsCreated : after.commentsCreated =
    before.commentsCreated + (work.flatMap Prod.snd).countP Deed.commentAdded
  commentsUpdated : after.commentsUpdated =
    before.commentsUpdated + (work.flatMap Prod.snd).countP Deed.commentEdited
  failed : after.failed = before.failed + work.countP fun x => metError x.2
  failedIssues : after.failedIssues = before.failedIssues ++
    (work.filter fun x => metError x.2).map fun x => x.1.number
  settled : after.created + after.updated + after.unchanged +
      work.countP (fun x => x.2.any Deed.refused) =
    before.created + before.updated + before.unchanged + work.length

lemma accounts_cons (h : Account o deeds) (hwork : Accounts (report.add g.number o) after work) :
    Accounts report after ((g, deeds) :: work) := by
  have hcreated := hwork.created
  have hupdated := hwork.updated
  have hadded := hwork.commentsCreated
  have hedited := hwork.commentsUpdated
  have hsettled := hwork.settled
  have hone := h.settled
  dsimp only [Report.add] at hcreated hupdated hadded hedited hsettled
  refine ⟨?_, ?_, ?_, ?_, ?_, ?_, ?_⟩
  · rw [hcreated, h.created, List.flatMap_cons, List.countP_append, Nat.add_assoc]
  · rw [hupdated, h.updated, List.flatMap_cons, List.countP_append, Nat.add_assoc]
  · rw [hadded, h.commentsCreated, List.flatMap_cons, List.countP_append, Nat.add_assoc]
  · rw [hedited, h.commentsUpdated, List.flatMap_cons, List.countP_append, Nat.add_assoc]
  · rw [hwork.failed, Report.add, List.countP_cons, ← h.failure, Nat.add_assoc,
      Nat.add_comm (ite ..)]
  · rw [hwork.failedIssues, Report.add, List.filter_cons, ← h.failure, List.append_assoc]
    cases o.failure with
    | none => rfl
    | some e => rfl
  · rw [List.countP_cons, List.length_cons]
    dsimp only
    omega

lemma source_taskOf (ids : Jira.FieldNumbers) (existing : List Jira.Issue) (g : GitHub.Issue) :
    (taskOf ids existing g).source = g := by
  unfold taskOf
  cases IssuePlan.counterpart ids existing g <;> rfl

lemma workOnAll_notes (p : Pass σ) (existing : List Jira.Issue) (report : Report)
    (issues : List GitHub.Issue) :
    Notes (p.watched.workOnAll report (issues.map (taskOf p.ids existing)))
      (p.workOnAll report (issues.map (taskOf p.ids existing))) fun after c =>
      ∃ work, work.map Prod.fst = issues ∧ c = work.flatMap Prod.snd ∧
        (∀ x ∈ work, Attempt p (taskOf p.ids existing x.1) x.2) ∧ Accounts report after work := by
  induction issues generalizing report with
  | nil =>
    exact notes_pure
      ⟨[], rfl, rfl, by simp, ⟨rfl, rfl, rfl, rfl, rfl, (List.append_nil _).symm, rfl⟩⟩
  | cons g issues ih =>
    rw [List.map_cons, Pass.workOnAll, Pass.workOnAll]
    refine notes_bind (workOn_notes p _) fun o c ⟨hattempt, haccount⟩ => ?_
    rw [source_taskOf]
    have hrest : Notes
        (p.watched.workOnAll (report.add g.number o) (issues.map (taskOf p.ids existing)))
        (p.workOnAll (report.add g.number o) (issues.map (taskOf p.ids existing))) fun after c' =>
        ∃ work, work.map Prod.fst = g :: issues ∧ c ++ c' = work.flatMap Prod.snd ∧
          (∀ x ∈ work, Attempt p (taskOf p.ids existing x.1) x.2) ∧
          Accounts report after work := by
      refine notes_mono (ih _) ?_
      rintro after c' ⟨work, hissues, rfl, hattempts, haccounts⟩
      refine ⟨(g, c) :: work, ?_, rfl, ?_, accounts_cons haccount haccounts⟩
      · rw [List.map_cons, hissues]
      · exact List.forall_mem_cons.mpr ⟨hattempt, hattempts⟩
    cases o.failure with
    | none => exact hrest
    | some e => exact notes_emit_bind hrest

/-- The listings of a pass that succeed; an empty one is the last. -/
def listings (p : Pass σ) (issues : List GitHub.Issue) (existing : List Jira.Issue) : List Deed :=
  if issues.isEmpty then [.issues p.repo p.since (.ok issues)]
  else [.issues p.repo p.since (.ok issues), .mirrors (issues.map GitHub.Issue.id) (.ok existing)]

/-- The listing of GitHub issues failed, or it was not empty and that of Jira issues failed. -/
def Unlisted (p : Pass σ) (deeds : List Deed) : Prop :=
  (∃ e, .issues p.repo p.since (.error e) ∈ deeds) ∨
    ∃ issues e, issues ≠ [] ∧ .issues p.repo p.since (.ok issues) ∈ deeds ∧
      .mirrors (issues.map GitHub.Issue.id) (.error e) ∈ deeds

/-- The result of a pass, by the calls made. -/
inductive Course (p : Pass σ) : Except Failure Report → List Deed → Prop
  | unlisted (e e' : Failure) : Course p (.error e) [.issues p.repo p.since (.error e')]
  | unmatched {issues : List GitHub.Issue} (h : issues ≠ []) (e e' : Failure) :
    Course p (.error e)
      [.issues p.repo p.since (.ok issues), .mirrors (issues.map GitHub.Issue.id) (.error e')]
  | worked {existing : List Jira.Issue} {work : List (GitHub.Issue × List Deed)} {report : Report}
      (hattempts : ∀ x ∈ work, Attempt p (taskOf p.ids existing x.1) x.2)
      (haccounts : Accounts {} report work) :
    Course p (.ok report) (listings p (work.map Prod.fst) existing ++ work.flatMap Prod.snd)

lemma run_notes (p : Pass σ) : Notes p.watched.run.run p.run.run (Course p) := by
  unfold Pass.run
  refine notes_noting_bind (fun issues => ?_) fun e => .unlisted _ e
  by_cases hempty : issues.isEmpty = true
  · rw [if_pos hempty, if_pos hempty]
    obtain rfl := List.isEmpty_iff.mp hempty
    refine notes_call_emit_bind (notes_call_pure ?_)
    exact @Course.worked σ p [] [] {} (by simp) ⟨rfl, rfl, rfl, rfl, rfl, rfl, rfl⟩
  · rw [if_neg hempty, if_neg hempty]
    refine notes_noting_bind (fun existing => ?_) fun e =>
      .unmatched (fun hnil => hempty (List.isEmpty_iff.mpr hnil)) _ e
    refine notes_forM_emit_bind (notes_lift_bind (workOnAll_notes p existing {} issues) ?_)
    rintro report c ⟨work, rfl, rfl, hattempts, haccounts⟩
    refine notes_call_emit_bind (notes_call_pure ?_)
    have hlistings : listings p (work.map Prod.fst) existing =
        [.issues p.repo p.since (.ok (work.map Prod.fst)),
          .mirrors ((work.map Prod.fst).map GitHub.Issue.id) (.ok existing)] :=
      if_neg hempty
    have hworked := Course.worked hattempts haccounts
    rw [hlistings] at hworked
    rw [List.append_nil]
    exact hworked

lemma not_listing_of_attempt (h : Attempt p a deeds) : ∀ d ∈ deeds, d.isListing = false := by
  obtain ⟨first, rest, rfl, hopens, hrest⟩ := h
  refine List.forall_mem_cons.mpr ⟨by cases hopens <;> rfl, fun d hd => ?_⟩
  rcases hrest d hd with ⟨key, r, rfl⟩ | ⟨r, rfl⟩ | hposting
  · rfl
  · rfl
  · cases d with
    | user | addComment | editComment => rfl
    | _ => cases hposting

/-- A listing that fails is made before the work on any issue, and would have been the last call. -/
lemma not_unlisted (hattempts : ∀ x ∈ work, Attempt p (taskOf p.ids existing x.1) x.2) :
    ¬Unlisted p (listings p (work.map Prod.fst) existing ++ work.flatMap Prod.snd) := by
  have hlisted : ∀ d ∈ listings p (work.map Prod.fst) existing, d.failed = false := by
    unfold listings
    split <;> simp [Deed.failed]
  have hwork : ∀ d ∈ work.flatMap Prod.snd, d.isListing = false := by
    intro d hd
    obtain ⟨x, hx, hd⟩ := List.mem_flatMap.mp hd
    exact not_listing_of_attempt (hattempts x hx) d hd
  rintro (⟨e, he⟩ | ⟨issues, e, -, -, he⟩)
  · rcases List.mem_append.mp he with he | he
    · cases hlisted _ he
    · cases hwork _ he
  · rcases List.mem_append.mp he with he | he
    · cases hlisted _ he
    · cases hwork _ he

lemma countP_listings {q : Deed → Bool} (hissues : ∀ repo since r, q (.issues repo since r) = false)
    (hmirrors : ∀ numbers r, q (.mirrors numbers r) = false) (p : Pass σ)
    (issues : List GitHub.Issue) (existing : List Jira.Issue) (deeds : List Deed) :
    (listings p issues existing ++ deeds).countP q = deeds.countP q := by
  unfold listings
  split <;> simp [hissues, hmirrors]

/-- A report against all calls of the pass, and those made for each issue. -/
structure Balanced (report : Report) (deeds : List Deed) (work : List (GitHub.Issue × List Deed)) :
    Prop where
  created : report.created = deeds.countP Deed.created
  updated : report.updated = deeds.countP Deed.updated
  commentsCreated : report.commentsCreated = deeds.countP Deed.commentAdded
  commentsUpdated : report.commentsUpdated = deeds.countP Deed.commentEdited
  failed : report.failed = report.failedIssues.length
  failedIssues : report.failedIssues =
    (work.filter fun x => metError x.2).map fun x => x.1.number
  settled : report.created + report.updated + report.unchanged =
    work.length - work.countP fun x => x.2.any Deed.refused

lemma balanced_of_accounts (h : Accounts {} report work) (p : Pass σ) (issues : List GitHub.Issue)
    (existing : List Jira.Issue) :
    Balanced report (listings p issues existing ++ work.flatMap Prod.snd) work := by
  have hcount := fun (q : Deed → Bool) hissues hmirrors =>
    countP_listings (q := q) hissues hmirrors p issues existing (work.flatMap Prod.snd)
  refine ⟨?_, ?_, ?_, ?_, ?_, h.failedIssues, ?_⟩
  · rw [hcount _ (fun _ _ _ => rfl) (fun _ _ => rfl), h.created]
    exact Nat.zero_add _
  · rw [hcount _ (fun _ _ _ => rfl) (fun _ _ => rfl), h.updated]
    exact Nat.zero_add _
  · rw [hcount _ (fun _ _ _ => rfl) (fun _ _ => rfl), h.commentsCreated]
    exact Nat.zero_add _
  · rw [hcount _ (fun _ _ _ => rfl) (fun _ _ => rfl), h.commentsUpdated]
    exact Nat.zero_add _
  · rw [h.failed, h.failedIssues, List.length_append, List.length_map, List.countP_eq_length_filter]
    rfl
  · have hsettled := h.settled
    dsimp only at hsettled
    omega

/-- A pass fails if and only if a listing fails, and has written nothing then. Otherwise each issue
that was listed has its own calls, and the report counts them all. -/
theorem run_accounts (p : Pass σ) (w : World σ) :
    ∃ deeds, p.watched.run.run (w.watched []) = ((p.run.run w).1, (p.run.run w).2.watched deeds) ∧
      ((∃ e, (p.run.run w).1 = .error e) ↔ Unlisted p deeds) ∧
      (Unlisted p deeds → ∀ d ∈ deeds, d.isWrite = false) ∧
      ∀ report, (p.run.run w).1 = .ok report → ∃ work existing,
        deeds = listings p (work.map Prod.fst) existing ++ work.flatMap Prod.snd ∧
        (∀ x ∈ work, Attempt p (taskOf p.ids existing x.1) x.2) ∧ Balanced report deeds work := by
  obtain ⟨deeds, hrun, hcourse⟩ := run_notes p w []
  refine ⟨deeds, hrun, ?_⟩
  generalize (p.run.run w).1 = r at hcourse ⊢
  cases hcourse with
  | unlisted e e' =>
    refine ⟨⟨fun _ => ?_, fun _ => ⟨e, rfl⟩⟩, fun _ => ?_, fun _ h => by cases h⟩
    · exact Or.inl ⟨e', by simp⟩
    · simp [Deed.isWrite]
  | @unmatched issues hne e e' =>
    refine ⟨⟨fun _ => ?_, fun _ => ⟨e, rfl⟩⟩, fun _ => ?_, fun _ h => by cases h⟩
    · exact Or.inr ⟨issues, e', hne, by simp, by simp⟩
    · simp [Deed.isWrite]
  | @worked existing work report hattempts haccounts =>
    have hlisted := not_unlisted hattempts
    refine ⟨⟨?_, fun h => absurd h hlisted⟩, fun h => absurd h hlisted, ?_⟩
    · rintro ⟨e, he⟩
      cases he
    · rintro _ ⟨⟩
      exact ⟨work, existing, rfl, hattempts, balanced_of_accounts haccounts p _ existing⟩

end IssueBridge.Proofs
