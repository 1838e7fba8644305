import IssueBridge.GitHub.Client
import IssueBridge.Jira.Client
import IssueBridge.Proofs.PassFrame

/-!
# What the clients leave alone

The clients act on their world by attempts at requests and by waits only, so a pass through them
leaves alone whatever those leave alone. A client that only tells its writes leaves alone whatever
reading leaves alone.
-/

namespace IssueBridge.Proofs

variable {σ τ α : Type} {part : σ → τ}

/-- No attempt and no wait changes a part of the state. -/
structure Isolated (part : σ → τ) (t : Http.Transport σ) : Prop where
  attempt : ∀ r limit, Keeps part (t.attempt r limit)
  wait : ∀ time, Keeps part (t.wait time)

/-- No attempt to read and no wait changes a part of the state. -/
structure Undisturbed (part : σ → τ) (t : Http.Transport σ) : Prop where
  attempt : ∀ r limit, r.method = .get → Keeps part (t.attempt r limit)
  wait : ∀ time, Keeps part (t.wait time)

lemma undisturbed_of_isolated {t : Http.Transport σ} (h : Isolated part t) : Undisturbed part t :=
  ⟨fun r limit _ => h.attempt r limit, h.wait⟩

lemma sendFrom_keeps {t : Http.Transport σ} {r : Http.Request}
    (hattempt : ∀ limit, Keeps part (t.attempt r limit)) (hwait : ∀ time, Keeps part (t.wait time))
    (p : Http.Policy) (patience : Nat) (attempts : UInt32) (elapsed : Duration) :
    Keeps part (Http.sendFrom t p r patience attempts elapsed) := by
  induction patience generalizing attempts elapsed with
  | zero => exact keeps_pure part _
  | succ patience ih =>
    rw [Http.sendFrom]
    refine keeps_bind (hattempt _) fun tried => ?_
    rcases tried with ⟨outcome, took⟩
    dsimp only
    cases p.turn r.url attempts elapsed took outcome with
    | done result => exact keeps_pure part _
    | again error wait due =>
      refine keeps_bind (keeps_emit part _) fun _ => ?_
      exact keeps_bind (hwait _) fun _ => ih _ _

lemma keeps_lift {x : Action σ α} (h : Keeps part x) : Keeps part (ExceptT.lift x : Call σ α).run :=
  h

lemma keeps_failing (part : σ → τ) (cause : Cause) :
    Keeps part (Call.failing cause : Call σ α).run :=
  fun _ => rfl

lemma send_keeps {c : Http.Connection σ} {request : Option Http.Request}
    (hattempt : ∀ r limit, request = some r → Keeps part (c.transport.attempt r limit))
    (hwait : ∀ time, Keeps part (c.transport.wait time)) : Keeps part (c.send request).run := by
  unfold Http.Connection.send
  cases request with
  | none => exact keeps_failing part _
  | some r =>
    have hsend := sendFrom_keeps (fun limit => hattempt r limit rfl) hwait c.policy c.patience 0 0
    refine keeps_call_bind (keeps_lift hsend) fun result => ?_
    cases result with
    | none => exact keeps_failing part _
    | some result => exact keeps_ofExcept part _

lemma method_of_make? {method : Http.Method} {address : String} {query : List (String × String)}
    {authorization agent : Option String} {accept : String} {body : Option Json} {r : Http.Request}
    (h : Http.Request.make? method address query authorization accept agent body = some r) :
    r.method = method := by
  unfold Http.Request.make? at h
  rw [Option.bind_eq_bind, Option.bind_eq_some_iff] at h
  obtain ⟨url, -, hr⟩ := h
  split at hr
  · rw [← Option.some.inj hr]
  · cases hr

lemma read_keeps {c : Http.Connection σ} {request : Option Http.Request}
    (h : Undisturbed part c.transport) (hread : ∀ r, request = some r → r.method = .get) :
    Keeps part (c.send request).run :=
  send_keeps (fun r limit hr => h.attempt r limit (hread r hr)) h.wait

/-! ### GitHub -/

section GitHub

variable {c : GitHub.Client σ} (h : Undisturbed part c.connection.transport)

include h

omit h in
lemma method_of_pageRequest {address : String} {query : List (String × String)}
    {r : Http.Request} (hr : c.pageRequest address query = some r) : r.method = .get := by
  unfold GitHub.Client.pageRequest at hr
  obtain ⟨r', hmake, rfl⟩ := Option.map_eq_some_iff.mp hr
  have hmethod : r'.method = .get := method_of_make? hmake
  exact hmethod

lemma page_keeps (form : Json.Form α) (address : String) (query : List (String × String)) :
    Keeps part (c.page form address query).run := by
  unfold GitHub.Client.page
  refine keeps_call_bind (keeps_within _ (read_keeps h fun _ => method_of_pageRequest))
    fun reply => ?_
  refine keeps_call_bind (keeps_within _ (keeps_ofExcept part _)) fun entries => ?_
  exact keeps_call_pure part _

lemma pages_keeps (form : Json.Form α) (patience : Nat) (address : String)
    (query : List (String × String)) : Keeps part (c.pages form patience address query).run := by
  induction patience generalizing address query with
  | zero => exact keeps_failing part _
  | succ patience ih =>
    rw [GitHub.Client.pages]
    refine keeps_call_bind (page_keeps h form address query) fun listed => ?_
    rcases listed with ⟨entries, next⟩
    cases next with
    | none => exact keeps_call_pure part _
    | some address => exact keeps_call_bind (ih _ _) fun _ => keeps_call_pure part _

lemma listIssues_keeps (repo : GitHub.Repo) (since : Option Instant) :
    Keeps part (c.issues repo since).run := by
  unfold GitHub.Client.issues
  exact keeps_call_bind (keeps_within _ (pages_keeps h _ _ _ _)) fun _ => keeps_call_pure part _

lemma listComments_keeps (repo : GitHub.Repo) (number : UInt64) (since : Option Instant) :
    Keeps part (c.comments repo number since).run :=
  keeps_within _ (pages_keeps h _ _ _ _)

lemma user_keeps (login : String) : Keeps part (c.user login).run := by
  unfold GitHub.Client.user
  refine keeps_call_bind (keeps_within _ (read_keeps h fun _ => method_of_make?)) fun reply => ?_
  exact keeps_within _ (keeps_ofExcept part _)

end GitHub

/-! ### Jira -/

lemma get_keeps {a : Jira.Access σ} (h : Undisturbed part a.connection.transport)
    (address : String) (form : Json.Form α) : Keeps part (a.get address form).run := by
  unfold Jira.Access.get
  refine keeps_call_bind (keeps_within _ (read_keeps h fun _ => method_of_make?)) fun reply => ?_
  exact keeps_within _ (keeps_ofExcept part _)

lemma write_keeps {a : Jira.Access σ} (h : Isolated part a.connection.transport)
    (method : Http.Method) (address : String) (body : Json) :
    Keeps part (a.write method address body).run :=
  keeps_within _ (send_keeps (fun r limit _ => h.attempt r limit) h.wait)

lemma tell_keeps (part : σ → τ) (lines : List String) :
    Keeps part (Jira.Client.tell lines : Call σ Unit).run :=
  forM_emit_keeps part _ lines

/-- Connecting leaves the part alone, and so does what is connected. -/
lemma connect_keeps {connection : Http.Connection σ} (h : Undisturbed part connection.transport)
    (a : Jira.Account) : Keeps part (Jira.Client.connect connection a).run := by
  unfold Jira.Client.connect
  refine keeps_call_bind (keeps_within _ (get_keeps h _ _)) fun project => ?_
  refine keeps_call_bind (keeps_within _ (get_keeps h _ _)) fun listing => ?_
  exact keeps_call_bind (keeps_ofExcept part _) fun ids => keeps_call_pure part _

/-- A client that is connected has the connection and the reserve that it was asked for. -/
lemma connect_ok {connection : Http.Connection σ} {a : Jira.Account} {c : Jira.Client σ}
    {w v : World σ} (h : (Jira.Client.connect connection a).run w = (.ok c, v)) :
    c.access.connection = connection ∧ c.dryRun = a.dryRun := by
  unfold Jira.Client.connect at h
  rcases call_bind h with ⟨project, u, -, h⟩ | ⟨e, -, he⟩
  · rcases call_bind h with ⟨listing, u', -, h⟩ | ⟨e, -, he⟩
    · rcases call_bind h with ⟨ids, u'', -, h⟩ | ⟨e, -, he⟩
      · obtain ⟨hc, -⟩ := call_pure h
        rw [Except.ok.inj hc]
        exact ⟨rfl, rfl⟩
      · cases he
    · cases he
  · cases he

section Jira

variable {c : Jira.Client σ}

section Reads

variable (h : Undisturbed part c.access.connection.transport)

include h

lemma search_keeps (jql : String) (patience start : Nat) :
    Keeps part (c.search jql patience start).run := by
  induction patience generalizing start with
  | zero => exact keeps_failing part _
  | succ patience ih =>
    rw [Jira.Client.search]
    refine keeps_call_bind (get_keeps h _ _) fun found => ?_
    rcases found with ⟨total, issues⟩
    dsimp only
    by_cases hlast : issues.isEmpty = true ∨ total ≤ start + issues.length
    · rw [if_pos hlast]
      exact keeps_call_pure part _
    · rw [if_neg hlast]
      exact keeps_call_bind (ih _) fun _ => keeps_call_pure part _

lemma searchIssues_keeps (numbers : List Int64) : Keeps part (c.issues numbers).run := by
  unfold Jira.Client.issues
  by_cases hempty : numbers.isEmpty = true
  · rw [if_pos hempty]
    exact keeps_call_pure part _
  · rw [if_neg hempty]
    exact keeps_call_bind (search_keeps h _ _ _) fun _ => keeps_call_pure part _

lemma issue_keeps (key : String) : Keeps part (c.issue key).run :=
  keeps_within _ (get_keeps h _ _)

end Reads

section Writes

variable (h : c.dryRun = false → Isolated part c.access.connection.transport)

include h

lemma create_keeps (fields : Jira.Draft) : Keeps part (c.create fields).run := by
  unfold Jira.Client.create
  by_cases hdry : c.dryRun = true
  · rw [if_pos hdry]
    exact keeps_call_bind (tell_keeps part _) fun _ => keeps_call_pure part _
  · rw [if_neg hdry]
    refine keeps_call_bind (write_keeps (h (eq_false_of_ne_true hdry)) _ _ _) fun reply => ?_
    refine keeps_call_bind (keeps_within _ (keeps_ofExcept part _)) fun made => ?_
    exact keeps_call_pure part _

lemma update_keeps (key : String) (fields : Jira.Draft) : Keeps part (c.update key fields).run := by
  unfold Jira.Client.update
  by_cases hdry : c.dryRun = true
  · rw [if_pos hdry]
    exact tell_keeps part _
  · rw [if_neg hdry]
    exact keeps_call_bind (write_keeps (h (eq_false_of_ne_true hdry)) _ _ _) fun _ =>
      keeps_call_pure part _

lemma addComment_keeps (key body : String) : Keeps part (c.addComment key body).run := by
  unfold Jira.Client.addComment
  by_cases hdry : c.dryRun = true
  · rw [if_pos hdry]
    exact keeps_call_bind (tell_keeps part _) fun _ => keeps_call_pure part _
  · rw [if_neg hdry]
    refine keeps_call_bind (write_keeps (h (eq_false_of_ne_true hdry)) _ _ _) fun reply => ?_
    exact keeps_within _ (keeps_ofExcept part _)

lemma editComment_keeps (key id body : String) :
    Keeps part (c.editComment key id body).run := by
  unfold Jira.Client.editComment
  by_cases hdry : c.dryRun = true
  · rw [if_pos hdry]
    exact keeps_call_bind (tell_keeps part _) fun _ => keeps_call_pure part _
  · rw [if_neg hdry]
    refine keeps_call_bind (write_keeps (h (eq_false_of_ne_true hdry)) _ _ _) fun reply => ?_
    exact keeps_within _ (keeps_ofExcept part _)

end Writes

end Jira

/-- No call of a source changes a part of the state. -/
structure Sourced (part : σ → τ) (s : GitHub.Source σ) : Prop where
  issues : ∀ repo since, Keeps part (s.issues repo since).run
  comments : ∀ repo number since, Keeps part (s.comments repo number since).run
  user : ∀ login, Keeps part (s.user login).run

lemma github_sourced {c : GitHub.Client σ} (h : Undisturbed part c.connection.transport) :
    Sourced part c.source :=
  ⟨listIssues_keeps h, listComments_keeps h, user_keeps h⟩

/-- A pass to Jira is confined to what the source and the requests of the client change. -/
theorem jira_confined {p : Pass σ} {c : Jira.Client σ} (hsource : Sourced part p.source)
    (htarget : p.target = c.target) (hread : Undisturbed part c.access.connection.transport)
    (hwrite : c.dryRun = false → Isolated part c.access.connection.transport) :
    Confined part p := by
  obtain ⟨source, target, ids, repo, issueType, now, since⟩ := p
  subst htarget
  exact {
    listIssues := hsource.issues
    listComments := hsource.comments
    user := hsource.user
    issues := searchIssues_keeps hread
    issue := issue_keeps hread
    create := create_keeps hwrite
    update := update_keeps hwrite
    addComment := addComment_keeps hwrite
    editComment := editComment_keeps hwrite }

/-- A pass through the two clients is confined to what their transports change. -/
theorem clients_confined {p : Pass σ} {github : GitHub.Client σ} {jira : Jira.Client σ}
    (hsource : p.source = github.source) (htarget : p.target = jira.target)
    (hgithub : Isolated part github.connection.transport)
    (hjira : Isolated part jira.access.connection.transport) : Confined part p :=
  jira_confined (hsource ▸ github_sourced (undisturbed_of_isolated hgithub)) htarget
    (undisturbed_of_isolated hjira) fun _ => hjira

end IssueBridge.Proofs
