import IssueBridge.Http.Script
import IssueBridge.Proofs.ClientFrame
import IssueBridge.Proofs.JiraListing
import IssueBridge.Proofs.Surroundings

/-!
# Sessions that only tell

A client that was connected for a dry run reads from its server and writes nothing to it, whatever
is asked of it and whatever the server answers. A write yields what would have been written, and
goes no further than the log.
-/

namespace IssueBridge

variable {σ ν α : Type}

/-- An action that is not noted. -/
def Action.unnoted (x : Action σ α) : Action (Watched σ ν) α := fun w =>
  let (a, v) := x ⟨w.state.inner, w.log⟩
  (a, v.watched w.state.notes)

def Call.unnoted (x : Call σ α) : Call (Watched σ ν) α :=
  ExceptT.mk (Action.unnoted x.run)

/-- A source none of whose calls is noted. -/
def GitHub.Source.unnoted (s : GitHub.Source σ) : GitHub.Source (Watched σ ν) where
  issues repo since := (s.issues repo since).unnoted
  comments repo number since := (s.comments repo number since).unnoted
  user login := (s.user login).unnoted

namespace Jira

/-! ## Sessions -/

/-- What may be asked of a client. -/
inductive Operation (σ : Type) where
  | issues (numbers : List Int64)
  | issue (key : String)
  | create (fields : Draft)
  | update (key : String) (fields : Draft)
  | addComment (key body : String)
  | editComment (key id body : String)
  /-- A whole pass to the project. -/
  | pass (source : GitHub.Source σ) (repo : GitHub.Repo) (issueType : String)
      (now : GitHub.Issue → Instant) (since : Option Instant)

/-- What an operation yields. -/
inductive Answer where
  | issues (result : Except Failure (List Issue))
  | issue (result : Except Failure Issue)
  | done (result : Except Failure Unit)
  | comment (result : Except Failure Comment)
  | report (result : Except Failure Report)

/-- The operation in a world where requests to Jira are noted. -/
def Operation.unnoted : Operation σ → Operation (Watched σ ν)
  | issues numbers => .issues numbers
  | issue key => .issue key
  | create fields => .create fields
  | update key fields => .update key fields
  | addComment key body => .addComment key body
  | editComment key id body => .editComment key id body
  | pass source repo issueType now since => .pass source.unnoted repo issueType now since

/-- What a write yields if it is only told: the fields or the text that it was given. -/
def Operation.echo? (project : Project) : Operation σ → Option Answer
  | create fields => some (.issue (.ok { fields.toIssue with key := project.key ++ "-?" }))
  | update _ _ => some (.done (.ok ()))
  | addComment _ body => some (.comment (.ok ⟨"", body⟩))
  | editComment _ id body => some (.comment (.ok ⟨id, body⟩))
  | issues _ | issue _ | pass .. => none

namespace Client

def perform (c : Client σ) : Operation σ → Action σ Answer
  | .issues numbers => return .issues (← (c.issues numbers).run)
  | .issue key => return .issue (← (c.issue key).run)
  | .create fields => return .issue (← (c.create fields).run)
  | .update key fields => return .done (← (c.update key fields).run)
  | .addComment key body => return .comment (← (c.addComment key body).run)
  | .editComment key id body => return .comment (← (c.editComment key id body).run)
  | .pass source repo issueType now since =>
    let p : Pass σ := { source, target := c.target, ids := c.ids, repo, issueType, now, since }
    return .report (← p.run.run)

/-- Performs operations one after another, whatever becomes of each of them. -/
def performAll (c : Client σ) : List (Operation σ) → Action σ (List Answer)
  | [] => return []
  | o :: rest => return (← c.perform o) :: (← performAll c rest)

/-- Connects to a project and performs operations on it. -/
def session (connection : Http.Connection σ) (a : Account) (operations : List (Operation σ)) :
    Call σ (List Answer) := do
  let c ← connect connection a
  (ExceptT.lift (c.performAll operations) : Call σ (List Answer))

end Client

open Proofs

variable {τ : Type} {part : σ → τ} {c : Client σ} {a : Account} {o : Operation σ}

/-! ## What a session leaves alone -/

/-- The source of a pass leaves a part of the state alone. -/
def Operation.Spares (part : σ → τ) : Operation σ → Prop
  | pass source .. => Sourced part source
  | _ => True

lemma perform_keeps (hdry : c.dryRun = true)
    (h : Undisturbed part c.access.connection.transport) (ho : o.Spares part) :
    Keeps part (c.perform o) := by
  have hwrite : c.dryRun = false → Isolated part c.access.connection.transport := by
    intro hwet
    rw [hdry] at hwet
    cases hwet
  cases o with
  | issues numbers => exact keeps_bind (searchIssues_keeps h _) fun _ => keeps_pure part _
  | issue key => exact keeps_bind (issue_keeps h _) fun _ => keeps_pure part _
  | create fields => exact keeps_bind (create_keeps hwrite _) fun _ => keeps_pure part _
  | update key fields => exact keeps_bind (update_keeps hwrite _ _) fun _ => keeps_pure part _
  | addComment key body => exact keeps_bind (addComment_keeps hwrite _ _) fun _ => keeps_pure part _
  | editComment key id body =>
    exact keeps_bind (editComment_keeps hwrite _ _ _) fun _ => keeps_pure part _
  | pass source repo issueType now since =>
    exact keeps_bind (run_keeps (jira_confined ho rfl h hwrite)) fun _ => keeps_pure part _

lemma performAll_keeps (hdry : c.dryRun = true)
    (h : Undisturbed part c.access.connection.transport) {operations : List (Operation σ)}
    (hoperations : ∀ o ∈ operations, o.Spares part) : Keeps part (c.performAll operations) := by
  induction operations with
  | nil => exact keeps_pure part _
  | cons o rest ih =>
    rw [List.forall_mem_cons] at hoperations
    refine keeps_bind (perform_keeps hdry h hoperations.1) fun _ => ?_
    exact keeps_bind (ih hoperations.2) fun _ => keeps_pure part _

/-- A dry session leaves alone whatever reading and its sources leave alone. -/
theorem session_keeps {connection : Http.Connection σ} (hdry : a.dryRun = true)
    (h : Undisturbed part connection.transport) {operations : List (Operation σ)}
    (hoperations : ∀ o ∈ operations, o.Spares part) :
    Keeps part (Client.session connection a operations).run := by
  intro w
  have hconnect := connect_keeps h a w
  unfold Client.session
  rw [run_bind]
  rcases hrun : (Client.connect connection a).run w with ⟨r, v⟩
  rw [hrun] at hconnect
  cases r with
  | error e => exact hconnect
  | ok c =>
    obtain ⟨haccess, hreserve⟩ := connect_ok hrun
    exact (performAll_keeps (hreserve.trans hdry) (haccess ▸ h) hoperations v).trans hconnect

/-! ## Requests of a session -/

/-- The requests that do more than to read. -/
def writesAmong (requests : List Http.Request) : List Http.Request :=
  requests.filter fun r => r.method != .get

lemma writesAmong_append {requests : List Http.Request} {r : Http.Request} (hr : r.method = .get) :
    writesAmong (requests ++ [r]) = writesAmong requests := by
  unfold writesAmong
  rw [List.filter_append, List.filter_singleton, hr]
  exact List.append_nil _

lemma undisturbed_watched (t : Http.Transport σ) :
    Undisturbed (fun s => writesAmong s.notes) t.watched :=
  ⟨fun _ _ hr _ => writesAmong_append hr, fun _ _ => rfl⟩

lemma undisturbed_script :
    Undisturbed (fun s => writesAmong s.requests) Http.Script.transport := by
  refine ⟨fun r limit hr w => ?_, fun time w => rfl⟩
  change writesAmong (Http.Script.attempt r limit w.state).2.requests = _
  unfold Http.Script.attempt
  split
  · exact writesAmong_append hr
  · rfl

/-- A request that came about while the writing ones stayed the same reads. -/
lemma read_of_kept {before after : List Http.Request} {r : Http.Request}
    (h : writesAmong after = writesAmong before) (hr : r ∈ after) :
    r ∈ before ∨ r.method = .get := by
  by_cases hread : r.method = .get
  · exact Or.inr hread
  · have hwrite : r ∈ writesAmong after := List.mem_filter.mpr ⟨hr, bne_iff_ne.mpr hread⟩
    rw [h] at hwrite
    exact Or.inl (List.mem_filter.mp hwrite).1

lemma spares_unnoted (f : List ν → τ) (o : Operation σ) :
    o.unnoted.Spares fun s : Watched σ ν => f s.notes := by
  cases o with
  | pass source => exact ⟨fun _ _ _ => rfl, fun _ _ _ _ => rfl, fun _ _ => rfl⟩
  | _ => trivial

/-! ## Writes that are only told -/

lemma run_tell (lines : List String) (w : World σ) :
    (Client.tell lines : Call σ Unit).run w =
      (.ok (), { w with log := w.log ++ lines.map .write }) :=
  run_forM_emit Event.write lines w

/-- Telling lines and yielding a value. -/
lemma run_tell_bind (lines : List String) (x : α) (w : World σ) :
    (do
      Client.tell lines
      return x : Call σ α).run w = (.ok x, { w with log := w.log ++ lines.map .write }) := by
  rw [call_bind_of_ok (run_tell lines w)]
  rfl

/-- An action yields a value and does nothing but tell lines. -/
def Tells (x : Action σ α) (a : α) : Prop :=
  ∀ w, ∃ lines : List String, x w = (a, { w with log := w.log ++ lines.map .write })

section Dry

variable (hdry : c.dryRun = true)

include hdry

lemma create_tells (fields : Draft) :
    Tells (c.create fields).run (.ok { fields.toIssue with key := c.project.key ++ "-?" }) := by
  intro w
  unfold Client.create
  rw [if_pos hdry]
  exact ⟨_, run_tell_bind _ _ w⟩

lemma update_tells (key : String) (fields : Draft) :
    Tells (c.update key fields).run (.ok ()) := by
  intro w
  unfold Client.update
  rw [if_pos hdry]
  exact ⟨_, run_tell _ w⟩

lemma addComment_tells (key body : String) :
    Tells (c.addComment key body).run (.ok ⟨"", body⟩) := by
  intro w
  unfold Client.addComment
  rw [if_pos hdry]
  exact ⟨_, run_tell_bind _ _ w⟩

lemma editComment_tells (key id body : String) :
    Tells (c.editComment key id body).run (.ok ⟨id, body⟩) := by
  intro w
  unfold Client.editComment
  rw [if_pos hdry]
  exact ⟨_, run_tell_bind _ _ w⟩

end Dry

lemma tells_map {β : Type} {x : Action σ α} {b : α} (h : Tells x b) (f : α → β) :
    Tells (do return f (← x)) (f b) := by
  intro w
  obtain ⟨lines, hx⟩ := h w
  exact ⟨lines, action_bind_of_eq hx⟩

/-- A write during a dry run yields what it was given. -/
lemma perform_tells {answer : Answer} (hdry : c.dryRun = true)
    (ho : o.echo? c.project = some answer) : Tells (c.perform o) answer := by
  cases o with
  | create fields =>
    obtain rfl := Option.some.inj ho
    exact tells_map (create_tells hdry fields) Answer.issue
  | update key fields =>
    obtain rfl := Option.some.inj ho
    exact tells_map (update_tells hdry key fields) Answer.done
  | addComment key body =>
    obtain rfl := Option.some.inj ho
    exact tells_map (addComment_tells hdry key body) Answer.comment
  | editComment key id body =>
    obtain rfl := Option.some.inj ho
    exact tells_map (editComment_tells hdry key id body) Answer.comment
  | _ => cases ho

/-- What a dry session asks of the servers, and what its writes come to. However the servers
answer, every request reads: among the requests to Jira that are noted, and among those that a
server with a script receives from a session with sources that only read. Each write yields what
it was given and does nothing but tell it, wherever in the session it is made. -/
theorem dry_session_reads (hdry : a.dryRun = true) :
    (∀ (connection : Http.Connection σ) (operations : List (Operation σ)) (w : World σ),
      ∀ r ∈ ((Client.session connection.watched a (operations.map Operation.unnoted)).run
        (w.watched [])).2.state.notes, r.method = .get) ∧
    (∀ (connection : Http.Connection Http.Script) (operations : List (Operation Http.Script))
      (w : World Http.Script), connection.transport = Http.Script.transport →
      (∀ o ∈ operations, o.Spares fun s => writesAmong s.requests) →
      ∀ r ∈ ((Client.session connection a operations).run w).2.state.requests,
        r ∈ w.state.requests ∨ r.method = .get) ∧
    ∀ (connection : Http.Connection σ) (c : Client σ) (u v : World σ),
      (Client.connect connection a).run u = (.ok c, v) →
      ∀ o answer, o.echo? c.project = some answer → Tells (c.perform o) answer := by
  refine ⟨fun connection operations w r hr => ?_,
    fun connection operations w hscript hspares r hr => ?_,
    fun connection c u v hconnect o answer ho => ?_⟩
  · have hspares : ∀ o ∈ operations.map Operation.unnoted,
        o.Spares fun s : Watched σ Http.Request => writesAmong s.notes := by
      intro o ho
      obtain ⟨o', -, rfl⟩ := List.mem_map.mp ho
      exact spares_unnoted writesAmong o'
    have hread : Undisturbed (fun s => writesAmong s.notes) connection.watched.transport :=
      undisturbed_watched connection.transport
    have hkept := session_keeps hdry hread hspares (w.watched [])
    exact (read_of_kept hkept hr).resolve_left List.not_mem_nil
  · exact read_of_kept (session_keeps hdry (hscript ▸ undisturbed_script) hspares w) hr
  · exact perform_tells ((connect_ok hconnect).2.trans hdry) ho

/-! ## A scripted server -/

/-- An account for a dry run. -/
def dryAccount : Account :=
  { baseUrl := "http://jira", user := "u", token := "t", project := "A", dryRun := true }

/-- A server that shows a project and a listing of its fields, and is silent once. -/
def scriptedServer : Http.Script :=
  { origin := some "http://jira".toList
    exchanges :=
      [.answer ⟨200, [], "[\"1\",\"A\"]"⟩,
        .answer ⟨200, [], "[[\"github-id\",[1]],[\"github-number\",[2]],[\"github-labels\",[3]]," ++
          "[\"github-status\",[4]],[\"github-reporter\",[5]],[\"github-last-sync\",[6]]]"⟩,
        .hang] }

def scriptedConnection : Http.Connection Http.Script :=
  ⟨Http.Script.transport, .ofTimeout 0, 3⟩

/-- GitHub behind the same server. -/
def scriptedGitHub : GitHub.Client Http.Script :=
  { connection := scriptedConnection, baseUrl := "http://jira", token := "t" }

/-- A search, two writes and a pass. -/
def sampleOperations : List (Operation Http.Script) :=
  [.issues [7], .create (newDraft discussed sampleIds "Task" default), .addComment "A-1" "text",
    .pass scriptedGitHub.source ⟨"owner", "name"⟩ "Task" default none]

lemma connect_scriptedServer :
    ∃ c v, (Client.connect scriptedConnection dryAccount).run ⟨scriptedServer, []⟩ =
      (.ok c, v) := by
  have hok :
      ((Client.connect scriptedConnection dryAccount).run ⟨scriptedServer, []⟩).1.isOk = true := by
    decide +kernel
  rcases hrun : (Client.connect scriptedConnection dryAccount).run ⟨scriptedServer, []⟩ with
    ⟨r, v⟩
  rw [hrun] at hok
  cases r with
  | error e => cases hok
  | ok c => exact ⟨c, v, rfl⟩

lemma spares_sampleOperations :
    ∀ o ∈ sampleOperations, o.Spares fun s : Http.Script => writesAmong s.requests := by
  intro o ho
  simp only [sampleOperations, List.mem_cons, List.not_mem_nil, or_false] at ho
  rcases ho with rfl | rfl | rfl | rfl
  · trivial
  · trivial
  · trivial
  · exact github_sourced (c := scriptedGitHub) undisturbed_script

theorem dry_session_reads_scripted :
    dryAccount.dryRun = true ∧
      (∀ r ∈ ((Client.session scriptedConnection dryAccount sampleOperations).run
        ⟨scriptedServer, []⟩).2.state.requests, r.method = .get) ∧
      ∃ c v, (Client.connect scriptedConnection dryAccount).run ⟨scriptedServer, []⟩ = (.ok c, v) ∧
        Tells (c.perform (.update "A-1" default)) (.done (.ok ())) := by
  have hdry : dryAccount.dryRun = true := rfl
  obtain ⟨-, hscript, htells⟩ := dry_session_reads (σ := Http.Script) hdry
  have hreads := hscript scriptedConnection sampleOperations ⟨scriptedServer, []⟩ rfl
    spares_sampleOperations
  obtain ⟨c, v, hconnect⟩ := connect_scriptedServer
  refine ⟨hdry, fun r hr => ?_, c, v, hconnect, htells _ c _ v hconnect _ _ rfl⟩
  rcases hreads r hr with hbefore | hread
  · exact absurd hbefore List.not_mem_nil
  · exact hread

end Jira

end IssueBridge
