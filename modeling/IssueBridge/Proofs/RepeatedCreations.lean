import IssueBridge.Proofs.ClientFrame
import IssueBridge.Proofs.Surroundings
import IssueBridge.Proofs.Verdicts

/-!
# Creations that are made again

A server may do what a request asks for and not say so. The client then sends the same request once
more, so what it asks for is done at most once more than there are such attempts. An answer that
settles the request, good or bad, is the last one.
-/

namespace IssueBridge

namespace Http

/-- What a server makes of an attempt at a request. -/
structure Handling where
  outcome : Outcome
  took : Duration
  /-- The server did what the request asks for, whatever came back. -/
  carriedOut : Bool

structure Attempt where
  request : Request
  handling : Handling

/-- A server that decides by all attempts before. -/
abbrev Behaviour := List Attempt → Request → Handling

/-- The way to such a server, which notes all attempts. -/
def Behaviour.transport (server : Behaviour) : Transport (List Attempt) where
  attempt r _ := onState fun past =>
    let handling := server past r
    ((handling.outcome, handling.took), past ++ [⟨r, handling⟩])
  wait _ := onState fun past => ((), past)

/-- The server did what the request asks for, and did not say so. -/
def Attempt.isUntold (a : Attempt) : Bool :=
  a.handling.carriedOut && a.handling.outcome.isUnsettled

/-- How often the server did what was asked for. -/
def carriedOut (attempts : List Attempt) : Nat :=
  attempts.countP fun a => a.handling.carriedOut

/-- What the attempts of one call are: all at one request, each after an outcome that settled
nothing. So the server does at most once more than untold what is asked for. -/
structure Repeated (request : Option Request) (attempts : List Attempt) : Prop where
  request_eq : ∀ a ∈ attempts, request = some a.request
  isUnsettled : ∀ a ∈ attempts.dropLast, a.handling.outcome.isUnsettled = true
  carriedOut_le : carriedOut attempts ≤ attempts.dropLast.countP Attempt.isUntold + 1
  once : (∀ a ∈ attempts.dropLast, a.isUntold = false) → carriedOut attempts ≤ 1

/-- Attempts at one request, each after an outcome that settled nothing. -/
inductive Tries (r : Request) : List Attempt → Prop
  | none : Tries r []
  | last (handling : Handling) : Tries r [⟨r, handling⟩]
  | again {handling : Handling} {rest : List Attempt} :
      handling.outcome.isUnsettled = true → Tries r rest → Tries r (⟨r, handling⟩ :: rest)

variable {r : Request} {attempts : List Attempt} {p : Policy} {server : Behaviour}

namespace Tries

lemma request_eq (h : Tries r attempts) : ∀ a ∈ attempts, a.request = r := by
  induction h with
  | none => simp
  | last handling => simp
  | again _ _ ih => simpa using ih

lemma isUnsettled (h : Tries r attempts) :
    ∀ a ∈ attempts.dropLast, a.handling.outcome.isUnsettled = true := by
  induction h with
  | none => simp
  | last handling => simp
  | @again handling rest hunsettled hrest ih =>
    cases rest with
    | nil => simp
    | cons next rest =>
      rw [List.dropLast_cons_of_ne_nil (List.cons_ne_nil next rest)]
      exact List.forall_mem_cons.mpr ⟨hunsettled, ih⟩

/-- Only the last attempt may do something and say so. -/
lemma carriedOut_le (h : Tries r attempts) :
    carriedOut attempts ≤ attempts.dropLast.countP Attempt.isUntold + 1 := by
  rcases List.eq_nil_or_concat' attempts with rfl | ⟨before, last, rfl⟩
  · simp [carriedOut]
  · have hunsettled := h.isUnsettled
    rw [List.dropLast_concat] at hunsettled ⊢
    have hsame : carriedOut before = before.countP Attempt.isUntold := by
      apply List.countP_congr
      intro a ha
      simp [Attempt.isUntold, hunsettled a ha]
    have hlast : carriedOut [last] ≤ 1 := List.countP_le_length
    have hsplit : carriedOut (before ++ [last]) = carriedOut before + carriedOut [last] :=
      List.countP_append
    omega

lemma repeated (h : Tries r attempts) : Repeated (some r) attempts := by
  refine ⟨fun a ha => congrArg some (h.request_eq a ha).symm, h.isUnsettled, h.carriedOut_le,
    fun htold => ?_⟩
  have hnone : attempts.dropLast.countP Attempt.isUntold = 0 := by
    apply List.countP_eq_zero.mpr
    intro a ha
    simp [htold a ha]
  have hle := h.carriedOut_le
  omega

end Tries

/-! ## Sending -/

lemma isUnsettled_of_again {url : Url} {attempts : UInt32} {wait : Duration} {error : String}
    {outcome : Outcome} (h : Judged p url attempts outcome (.again error wait)) :
    outcome.isUnsettled = true := by
  cases h with
  | again hunsettled => exact hunsettled

lemma sendFrom_tries (server : Behaviour) (p : Policy) (r : Request) (patience : Nat)
    (count : UInt32) (elapsed : Duration) (w : World (List Attempt)) :
    ∃ attempts, (sendFrom server.transport p r patience count elapsed w).2.state =
      w.state ++ attempts ∧ Tries r attempts := by
  induction patience generalizing count elapsed w with
  | zero => exact ⟨[], (List.append_nil _).symm, .none⟩
  | succ patience ih =>
    let handling := server w.state r
    have hattempt : server.transport.attempt r p.attemptLimit w =
        ((handling.outcome, handling.took), ⟨w.state ++ [⟨r, handling⟩], w.log⟩) := rfl
    rw [sendFrom, Proofs.action_bind_of_eq hattempt]
    dsimp only
    have hturned := turn_turned p r.url count elapsed handling.took handling.outcome
    generalize p.turn r.url count elapsed handling.took handling.outcome = turn at hturned ⊢
    cases hturned with
    | done => exact ⟨[⟨r, handling⟩], rfl, .last handling⟩
    | @again error wait due hjudged =>
      obtain ⟨rest, hstate, hrest⟩ := ih (count + 1) due
        ⟨w.state ++ [⟨r, handling⟩], w.log ++ [.retrying (count + 1) wait.millis error]⟩
      exact ⟨⟨r, handling⟩ :: rest, hstate.trans (List.append_cons ..).symm,
        .again (isUnsettled_of_again hjudged) hrest⟩

/-- A call makes attempts at one request only. -/
def Sends {α : Type} (request : Option Request) (x : Call (List Attempt) α) : Prop :=
  ∀ w, ∃ attempts, (x.run w).2.state = w.state ++ attempts ∧ Repeated request attempts

section Calls

variable {α β : Type} {request : Option Request} {x : Call (List Attempt) α}

lemma sends_of_keeps (h : Proofs.Keeps id x.run) : Sends request x := by
  intro w
  refine ⟨[], (h w).trans (List.append_nil _).symm, ?_⟩
  constructor <;> simp [carriedOut]

lemma sends_within (operation : String) (h : Sends request x) :
    Sends request (x.within operation) := by
  intro w
  rw [Proofs.run_within]
  exact h w

lemma sends_bind {f : α → Call (List Attempt) β} (h : Sends request x)
    (hf : ∀ a, Proofs.Keeps id (f a).run) : Sends request (x >>= f) := by
  intro w
  obtain ⟨attempts, hstate, hattempts⟩ := h w
  refine ⟨attempts, ?_, hattempts⟩
  rw [Proofs.run_bind]
  rcases hrun : x.run w with ⟨r, v⟩
  rw [hrun] at hstate
  cases r with
  | ok a => exact (hf a v).trans hstate
  | error e => exact hstate

lemma send_sends {c : Connection (List Attempt)} (hserver : c.transport = server.transport) :
    Sends request (c.send request) := by
  unfold Connection.send
  cases request with
  | none => exact sends_of_keeps (Proofs.keeps_failing id _)
  | some r =>
    apply sends_bind
    · intro w
      obtain ⟨attempts, hstate, htries⟩ := sendFrom_tries server c.policy r c.patience 0 0 w
      rw [← hserver] at hstate
      exact ⟨attempts, hstate, htries.repeated⟩
    · intro result
      cases result with
      | none => exact Proofs.keeps_failing id _
      | some result => exact Proofs.keeps_ofExcept id _

end Calls

end Http

namespace Jira

open Http Proofs

variable {server : Behaviour} {c : Client (List Attempt)}

/-- The request for a new issue. -/
def Client.creation (c : Client (List Attempt)) (fields : Draft) : Option Request :=
  c.access.request .post (c.access.baseUrl ++ "/rest/api/2/issue")
    (some (payload c.project fields true))

def Client.addition (c : Client (List Attempt)) (key body : String) : Option Request :=
  c.access.request .post (c.issueAddress key ++ "/comment") (some (Client.commentPayload body))

section Server

variable (hserver : c.access.connection.transport = server.transport)

include hserver

lemma create_sends (fields : Draft) : Sends (c.creation fields) (c.create fields) := by
  unfold Client.create
  by_cases hdry : c.dryRun = true
  · rw [if_pos hdry]
    exact sends_of_keeps (keeps_call_bind (tell_keeps id _) fun _ => keeps_call_pure id _)
  · rw [if_neg hdry]
    apply sends_bind (sends_within _ (send_sends hserver))
    intro reply
    exact keeps_call_bind (keeps_within _ (keeps_ofExcept id _)) fun _ => keeps_call_pure id _

lemma addComment_sends (key body : String) :
    Sends (c.addition key body) (c.addComment key body) := by
  unfold Client.addComment
  by_cases hdry : c.dryRun = true
  · rw [if_pos hdry]
    exact sends_of_keeps (keeps_call_bind (tell_keeps id _) fun _ => keeps_call_pure id _)
  · rw [if_neg hdry]
    apply sends_bind (sends_within _ (send_sends hserver))
    intro reply
    exact keeps_within _ (keeps_ofExcept id _)

/-- However a server behaves, one call for a new issue or a new comment comes to attempts at one
request, all but the last of which settled nothing. So the server makes at most one more than those
that it made without saying so before another attempt, and one at most if there are none. -/
theorem creations_repeated :
    (∀ fields, Sends (c.creation fields) (c.create fields)) ∧
      ∀ key body, Sends (c.addition key body) (c.addComment key body) :=
  ⟨create_sends hserver, addComment_sends hserver⟩

end Server

/-! ## A server that is slow once -/

/-- A server that leaves the first attempt without an answer and makes what is asked for in all
later ones. It may have made it in the first, too. -/
def slowOnce (untold : Bool) : Behaviour := fun past _ =>
  if past.isEmpty then ⟨.timedOut, .ofSeconds 1, untold⟩
  else ⟨.reply ⟨201, [], "[\"1\",\"A-1\"]"⟩, 0, true⟩

def slowClient (untold : Bool) : Client (List Attempt) :=
  { access :=
      { connection := ⟨(slowOnce untold).transport, .ofTimeout (.ofSeconds 10), 3⟩
        baseUrl := "http://jira"
        authorization := "Basic" }
    project := ⟨"1", "A", []⟩
    ids := sampleIds
    dryRun := false }

def slowDraft : Draft :=
  newDraft discussed sampleIds "Task" default

theorem creations_repeated_slow :
    (slowClient false).access.connection.transport = (slowOnce false).transport ∧
      Sends ((slowClient false).creation slowDraft) ((slowClient false).create slowDraft) ∧
      carriedOut (((slowClient false).create slowDraft).run ⟨[], []⟩).2.state = 1 := by
  have hserver : (slowClient false).access.connection.transport = (slowOnce false).transport := rfl
  exact ⟨hserver, (creations_repeated hserver).1 slowDraft, by decide +kernel⟩

/-- One call for a new issue, and one for a new comment, has two of them made. -/
theorem created_twice :
    (slowClient true).dryRun = false ∧
      carriedOut (((slowClient true).create slowDraft).run ⟨[], []⟩).2.state = 2 ∧
      carriedOut (((slowClient true).addComment "A-1" "text").run ⟨[], []⟩).2.state = 2 := by
  decide +kernel

end Jira

end IssueBridge
