import IssueBridge.Proofs.DryCalls

/-!
# Passes in which only lookups fail

Where no call fails but lookups of users, all other calls are those of a memory without failures.
Whether a user is found depends on the user and on the issue whose comments are worked on.
-/

namespace IssueBridge.Proofs

/-- A call asks for a user. -/
def isLookup (name : String) : Bool :=
  "gh user ".toList.isPrefixOf name.toList

/-- A call lists the comments on a GitHub issue. -/
def listsComments (name : String) : Bool :=
  "gh comments ".toList.isPrefixOf name.toList

/-- The call that listed comments last: work is on the comments of its issue. -/
def atWork? (m : Memory) : Option String :=
  m.calls.reverse.find? listsComments

/-- No call fails but lookups of users, and whether one of them does depends only on the user and
on the issue whose comments are worked on. -/
structure OnlyLookupsFail (rules : Memory.Rules) : Prop where
  only : ∀ m name, rules.fails m name = true → isLookup name = true
  alike : ∀ m m' login, atWork? m = atWork? m' →
    rules.fails m ("gh user " ++ login) = rules.fails m' ("gh user " ++ login)

/-- The rules without any failures. -/
def calm (rules : Memory.Rules) : Memory.Rules :=
  { rules with fails := fun _ _ => false }

def Setting.calm (s : Setting) : Setting :=
  { s with rules := Proofs.calm s.rules }

/-- How the listing of the comments on an issue is called. -/
def listingName (g : GitHub.Issue) : String :=
  "gh comments " ++ toString g.number

/-- A user is found during the work on an issue. -/
def found (s : Setting) (m : Memory) (g : GitHub.Issue) (login : String) : Bool :=
  (m.users.get? login).isSome &&
    !s.rules.fails { calls := [listingName g] } ("gh user " ++ login)

variable {s : Setting} {m : Memory} {g : GitHub.Issue} {j : Jira.Issue} {w v : World Memory}
  {known : Dictionary GitHub.User} {login key : String} {rules : Memory.Rules}

/-! ## Calls that do not fail -/

lemma not_mayFail_calm (rules : Memory.Rules) : ¬MayFail (calm rules) := by
  rintro ⟨m, name, hfails⟩
  cases hfails

lemma call_calm {α : Type} {name : String} (h : OnlyLookupsFail rules)
    (hname : isLookup name = false) (effect : Memory → Except Cause (α × Memory)) :
    Memory.call rules name effect = Memory.call (calm rules) name effect := by
  funext w
  have hfails : rules.fails (noted name w.state) name = false := by
    by_contra hne
    have htrue := h.only _ _ (Bool.not_eq_false _ ▸ hne)
    rw [hname] at htrue
    cases htrue
  refine (run_call rules name effect w).trans ((run_call (calm rules) name effect w).trans ?_).symm
  rw [hfails]
  rfl

lemma isLookup_append {start : String} (rest : String)
    (h : ∀ cs, "gh user ".toList.isPrefixOf (start.toList ++ cs) = false) :
    isLookup (start ++ rest) = false := by
  unfold isLookup
  rw [String.toList_append]
  exact h rest.toList

/-- No call to the project fails. -/
lemma target_calm (h : OnlyLookupsFail rules) (ids : Jira.FieldNumbers) (dryRun : Bool) :
    Memory.target rules ids dryRun = Memory.target (calm rules) ids dryRun := by
  unfold Memory.target
  congr 1
  · funext numbers
    exact call_calm h rfl _
  · funext key
    exact call_calm h (isLookup_append key fun _ => rfl) _
  · funext fields
    exact call_calm h (isLookup_append fields.summary fun _ => rfl) _
  · funext key fields
    exact call_calm h (isLookup_append key fun _ => rfl) _
  · funext key body
    exact call_calm h (isLookup_append key fun _ => rfl) _
  · funext key id body
    rw [String.append_assoc, String.append_assoc]
    exact call_calm h (isLookup_append _ fun _ => rfl) _

lemma listIssues_calm (h : OnlyLookupsFail rules) (repo : GitHub.Repo) (since : Option Instant) :
    (Memory.source rules).issues repo since = (Memory.source (calm rules)).issues repo since := by
  unfold Memory.source Memory.query
  dsimp only
  rw [call_calm h (isLookup_append repo.path fun _ => rfl)]

lemma listComments_calm (h : OnlyLookupsFail rules) (repo : GitHub.Repo) (number : UInt64)
    (since : Option Instant) :
    (Memory.source rules).comments repo number since =
      (Memory.source (calm rules)).comments repo number since := by
  unfold Memory.source Memory.query
  dsimp only
  rw [call_calm h (isLookup_append (toString number) fun _ => rfl)]

section Pass

variable (h : OnlyLookupsFail s.rules)

include h

lemma passTarget_calm : s.pass.target = s.calm.pass.target :=
  target_calm h s.ids s.dryRun

lemma writeIssue_calm (a : IssueTask) : s.pass.writeIssue a = s.calm.pass.writeIssue a := by
  unfold Pass.writeIssue
  rw [passTarget_calm h]
  rfl

lemma readBack_calm (change : IssueChange) (j : Jira.Issue) :
    s.pass.readBack change j = s.calm.pass.readBack change j := by
  unfold Pass.readBack
  rw [passTarget_calm h]

lemma planComments_calm (g : GitHub.Issue) (j : Jira.Issue) :
    s.pass.planComments g j = s.calm.pass.planComments g j := by
  have hcomments : s.pass.source.comments s.pass.repo g.number s.pass.since =
      s.calm.pass.source.comments s.calm.pass.repo g.number s.calm.pass.since :=
    listComments_calm h s.repo g.number s.since
  unfold Pass.planComments
  rw [hcomments]

end Pass

/-! ## The issue that is worked on -/

lemma atWork?_noted (name : String) (m : Memory) :
    atWork? (noted name m) = if listsComments name = true then some name else atWork? m := by
  unfold atWork? noted
  rw [List.reverse_append, List.reverse_singleton, List.singleton_append, List.find?_cons]
  cases listsComments name with
  | true => rfl
  | false => rfl

lemma atWork?_noted_append {start : String} (rest : String) (m : Memory)
    (h : ∀ cs, "gh comments ".toList.isPrefixOf (start.toList ++ cs) = false) :
    atWork? (noted (start ++ rest) m) = atWork? m := by
  have hother : listsComments (start ++ rest) = false := by
    unfold listsComments
    rw [String.toList_append]
    exact h rest.toList
  rw [atWork?_noted, hother]
  rfl

lemma listsComments_listingName (g : GitHub.Issue) : listsComments (listingName g) = true := by
  unfold listsComments listingName
  rw [String.toList_append]
  rfl

lemma atWork?_planComments {r : Except Failure CommentPlan}
    (hrun : (s.pass.planComments g j).run w = (r, v)) :
    atWork? v.state = some (listingName g) := by
  have hlist : ∀ {u : World Memory} {r : Except Failure (List GitHub.Comment)},
      ((Memory.source s.rules).comments s.repo g.number s.since).run w = (r, u) →
      atWork? u.state = some (listingName g) := by
    intro u r hlist
    rcases call_bind hlist with ⟨_, u₁, -, hquery⟩ | ⟨e, hnote, -⟩
    · rw [(query_course hquery).1]
      change atWork? (noted (listingName g) _) = _
      rw [atWork?_noted, if_pos (listsComments_listingName g)]
    · cases hnote
  unfold Pass.planComments at hrun
  rcases within_bind hrun with ⟨comments, u, hcomments, hplan⟩ | ⟨e, e', hcomments, -⟩
  · have hsame : v = u := by
      obtain ⟨-, rfl⟩ := Prod.mk.inj hplan
      rfl
    rw [hsame]
    exact hlist hcomments
  · exact hlist hcomments

lemma keeps_atWork?_call {α : Type} {start rest : String}
    {effect : Memory → Except Cause (α × Memory)}
    (hstart : ∀ cs, "gh comments ".toList.isPrefixOf (start.toList ++ cs) = false)
    (heffect : ∀ m a m', effect m = .ok (a, m') → m'.calls = m.calls) :
    Keeps atWork? (Memory.call rules (start ++ rest) effect).run := by
  apply keeps_memory_call
  · intro m
    exact atWork?_noted_append rest m hstart
  · intro m a m' hm
    unfold atWork?
    rw [heffect m a m' hm]

lemma calls_change {m m' : Memory} {f : Jira.Issue → Jira.Issue} (h : m.change key f = .ok m') :
    m'.calls = m.calls := by
  obtain ⟨project, -, rfl⟩ := except_map h
  rfl

lemma addComment_atWork? (ids : Jira.FieldNumbers) (dryRun : Bool) (key body : String) :
    Keeps atWork? ((Memory.target rules ids dryRun).addComment key body).run := by
  apply keeps_atWork?_call fun _ => rfl
  intro m a m' hm
  cases dryRun with
  | true =>
    obtain ⟨-, rfl⟩ := Prod.mk.inj (Except.ok.inj hm)
    rfl
  | false =>
    obtain ⟨n, hchange, heq⟩ := except_map hm
    have hcalls : n.calls = m.calls := calls_change hchange
    rw [← (Prod.mk.inj heq).2]
    exact hcalls

lemma editComment_atWork? (ids : Jira.FieldNumbers) (dryRun : Bool) (key id body : String) :
    Keeps atWork? ((Memory.target rules ids dryRun).editComment key id body).run := by
  change Keeps atWork? (Memory.call rules ("edit " ++ key ++ "/" ++ id) _).run
  rw [String.append_assoc, String.append_assoc]
  apply keeps_atWork?_call fun _ => rfl
  intro m a m' hm
  cases dryRun with
  | true =>
    obtain ⟨-, rfl⟩ := Prod.mk.inj (Except.ok.inj hm)
    rfl
  | false =>
    obtain ⟨j, -, hm⟩ := except_bind hm
    obtain ⟨comments, -, hm⟩ := except_bind hm
    obtain ⟨n, hchange, hm⟩ := except_bind hm
    rw [← (Prod.mk.inj (Except.ok.inj hm)).2]
    exact calls_change hchange

lemma lookUp_keeps_part {τ : Type} {part : Memory → τ} (s : Setting)
    (known : Dictionary GitHub.User) (login : String)
    (hnote : ∀ m, part (noted ("gh user " ++ login) m) = part m) :
    Keeps part (s.pass.lookUp known login).run := by
  unfold Pass.lookUp
  cases known.get? login with
  | some user => exact keeps_call_pure part _
  | none =>
    exact keeps_call_bind (keeps_within _ (keeps_query hnote)) fun _ => keeps_call_pure part _

lemma writeComment_atWork? (s : Setting) (key : String) (known : Dictionary GitHub.User)
    (x : CommentWrite) : Keeps atWork? (s.pass.writeComment key known x).run := by
  unfold Pass.writeComment
  apply keeps_call_bind (lookUp_keeps_part s known _ fun m => atWork?_noted_append _ m fun _ => rfl)
  intro looked
  cases x with
  | create c =>
    exact keeps_call_bind (keeps_within _ (addComment_atWork? s.ids s.dryRun _ _)) fun _ =>
      keeps_call_pure atWork? _
  | edit c t =>
    exact keeps_call_bind (keeps_within _ (editComment_atWork? s.ids s.dryRun _ _ _)) fun _ =>
      keeps_call_pure atWork? _

/-! ## Looking up -/

/-- Users that were looked up are as GitHub has them, and are found. -/
def KnownFound (s : Setting) (m : Memory) (g : GitHub.Issue) (known : Dictionary GitHub.User) :
    Prop :=
  ∀ login u, known.get? login = some u → m.users.get? login = some u ∧ found s m g login = true

lemma knownFound_nil (s : Setting) (m : Memory) (g : GitHub.Issue) : KnownFound s m g [] := by
  intro login u h
  cases h

lemma knownFound_insert (h : KnownFound s m g known) {u : GitHub.User}
    (hu : m.users.get? login = some u) (hfound : found s m g login = true) :
    KnownFound s m g (known.insert login u) := by
  intro other u' h'
  by_cases hother : other = login
  · subst hother
    rw [Dictionary.get?_insert_self] at h'
    rw [hu, h']
    exact ⟨rfl, hfound⟩
  · rw [Dictionary.get?_insert_of_ne known u hother] at h'
    exact h other u' h'

lemma atWork?_single (g : GitHub.Issue) :
    atWork? { calls := [listingName g] } = some (listingName g) := by
  change atWork? (noted (listingName g) {}) = _
  rw [atWork?_noted, if_pos (listsComments_listingName g)]

/-- A user is asked for with success exactly if it is found. -/
lemma user_exact (h : OnlyLookupsFail s.rules) (hrepo : repository w.state = repository m)
    (hwork : atWork? w.state = some (listingName g)) {r : Except Failure GitHub.User}
    (hrun : (s.pass.source.user login).run w = (r, v)) :
    (found s m g login = true ∧ ∃ u, r = .ok u ∧ m.users.get? login = some u) ∨
      (found s m g login = false ∧ ∃ e, r = .error e) := by
  have hfails : s.rules.fails (noted ("gh user " ++ login) w.state) ("gh user " ++ login) =
      s.rules.fails { calls := [listingName g] } ("gh user " ++ login) := by
    apply h.alike
    rw [atWork?_noted_append login w.state fun _ => rfl, hwork, atWork?_single]
  have husers : (noted ("gh user " ++ login) w.state).users = m.users := users_of_repository hrepo
  have hasked := run_call s.rules ("gh user " ++ login) (fun m =>
    (Memory.orAbsent ("user " ++ login) (m.users.get? login)).map fun u => (u, m)) w
  have hcall := hasked.symm.trans hrun
  rw [hfails, husers] at hcall
  unfold found
  cases hf : s.rules.fails { calls := [listingName g] } ("gh user " ++ login) with
  | true =>
    rw [hf] at hcall
    exact Or.inr ⟨by simp, _, (Prod.mk.inj hcall).1.symm⟩
  | false =>
    rw [hf] at hcall
    cases hu : m.users.get? login with
    | none =>
      rw [hu] at hcall
      exact Or.inr ⟨rfl, _, (Prod.mk.inj hcall).1.symm⟩
    | some u =>
      rw [hu] at hcall
      exact Or.inl ⟨rfl, u, (Prod.mk.inj hcall).1.symm, rfl⟩

lemma lookUp_exact (h : OnlyLookupsFail s.rules) (hrepo : repository w.state = repository m)
    (hwork : atWork? w.state = some (listingName g)) (hknown : KnownFound s m g known)
    {r : Except Failure (GitHub.User × Dictionary GitHub.User)}
    (hrun : (s.pass.lookUp known login).run w = (r, v)) :
    (found s m g login = true ∧ ∃ u known', r = .ok (u, known') ∧
        m.users.get? login = some u ∧ KnownFound s m g known') ∨
      (found s m g login = false ∧ ∃ e, r = .error e) := by
  unfold Pass.lookUp at hrun
  cases hlogin : known.get? login with
  | some u =>
    rw [hlogin] at hrun
    obtain ⟨hu, hfound⟩ := hknown login u hlogin
    exact Or.inl ⟨hfound, u, known, (call_pure hrun).1, hu, hknown⟩
  | none =>
    rw [hlogin] at hrun
    rcases within_bind hrun with ⟨u, w₁, huser, hrest⟩ | ⟨e, e', huser, hr⟩
    · rcases user_exact h hrepo hwork huser with ⟨hfound, u', hu', hget⟩ | ⟨-, e, he⟩
      · obtain rfl := Except.ok.inj hu'
        exact Or.inl ⟨hfound, u, _, (call_pure hrest).1, hget, knownFound_insert hknown hget hfound⟩
      · cases he
    · rcases user_exact h hrepo hwork huser with ⟨-, u, hu, -⟩ | ⟨hfound, -⟩
      · cases hu
      · exact Or.inr ⟨hfound, e, hr⟩

end IssueBridge.Proofs
