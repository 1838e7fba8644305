import IssueBridge.Http.Connection
import IssueBridge.Proofs.NotedCalls
import IssueBridge.Proofs.Verdicts

/-!
# Requests and their replies

A reply that a request comes to is one that the server gave to it. A server that answers at once is
asked once. The items in a reply are read all together or not at all.
-/

namespace IssueBridge

variable {σ : Type}

/-- The way to the servers with every attempt at a request noted. -/
def Http.Transport.watched (t : Http.Transport σ) : Http.Transport (Watched σ Http.Request) where
  attempt r limit := Action.noting (fun _ => r) (t.attempt r limit)
  wait time := fun w =>
    ((), (t.wait time ⟨w.state.inner, w.log⟩).2.watched w.state.notes)

def Http.Connection.watched (c : Http.Connection σ) :
    Http.Connection (Watched σ Http.Request) :=
  { c with transport := c.transport.watched }

namespace Proofs

variable {c : Http.Connection σ} {r : Http.Request} {reply : Http.Reply} {w v : World σ}

/-- The server answers an attempt at a request with a reply of success. -/
structure Answered (c : Http.Connection σ) (r : Http.Request) (reply : Http.Reply)
    (w v : World σ) : Prop where
  attempt : ∃ took, c.transport.attempt r c.policy.attemptLimit w = ((.reply reply, took), v)
  success : reply.isSuccess = true

lemma turn_success (p : Http.Policy) (url : Http.Url) (attempts : UInt32)
    (elapsed took : Duration) (h : reply.isSuccess = true) :
    p.turn url attempts elapsed took (.reply reply) = .done (.ok reply) := by
  have haccept : p.judge url attempts (.reply reply) = .accept reply := if_pos h
  unfold Http.Policy.turn
  rw [haccept]

lemma sendFrom_answered (h : Answered c r reply w v) (patience : Nat) (attempts : UInt32)
    (elapsed : Duration) :
    Http.sendFrom c.transport c.policy r (patience + 1) attempts elapsed w =
      (some (.ok reply), v) := by
  obtain ⟨took, hattempt⟩ := h.attempt
  rw [Http.sendFrom, action_bind_of_eq hattempt]
  dsimp only
  rw [turn_success _ _ _ _ _ h.success]
  rfl

/-- One attempt is enough where the server answers at once. -/
lemma send_answered (h : Answered c r reply w v) (hpatience : 0 < c.patience) :
    (c.send (some r)).run w = (.ok reply, v) := by
  obtain ⟨patience, hsucc⟩ := Nat.exists_eq_add_of_lt hpatience
  unfold Http.Connection.send
  rw [hsucc]
  exact lift_bind_of_eq (sendFrom_answered h _ 0 0)

lemma sendFrom_ok {patience : Nat} : ∀ {attempts : UInt32} {elapsed : Duration} {w : World σ},
    Http.sendFrom c.transport c.policy r patience attempts elapsed w = (some (.ok reply), v) →
    ∃ u, Answered c r reply u v := by
  induction patience with
  | zero =>
    intro attempts elapsed w h
    cases action_pure h |>.1
  | succ patience ih =>
    intro attempts elapsed w h
    rw [Http.sendFrom] at h
    obtain ⟨⟨outcome, took⟩, u, hattempt, h⟩ := action_bind h
    dsimp only at h
    have hturned := Http.turn_turned c.policy r.url attempts elapsed took outcome
    generalize c.policy.turn r.url attempts elapsed took outcome = turn at hturned h
    cases hturned with
    | done hconcluded =>
      obtain ⟨hresult, rfl⟩ := action_pure h
      cases hresult
      obtain ⟨rfl, hsuccess⟩ := Http.reply_of_concluded hconcluded
      exact ⟨w, ⟨took, hattempt⟩, hsuccess⟩
    | again =>
      obtain ⟨_, _, -, h⟩ := action_bind h
      obtain ⟨_, _, -, h⟩ := action_bind h
      exact ih h

/-- A reply that a request comes to is one of success that the server gave to it. -/
lemma send_ok {request : Option Http.Request} (h : (c.send request).run w = (.ok reply, v)) :
    ∃ r u, request = some r ∧ Answered c r reply u v := by
  cases request with
  | none => cases (call_ofExcept h).1
  | some r =>
    unfold Http.Connection.send at h
    obtain ⟨result, u, hsend, h⟩ := call_lift h
    cases result with
    | none => cases (call_ofExcept h).1
    | some result =>
      obtain ⟨rfl, rfl⟩ := call_ofExcept h
      obtain ⟨u', hanswered⟩ := sendFrom_ok hsend
      exact ⟨r, u', rfl, hanswered⟩

/-! ## Items of replies -/

lemma mapM_eq_filterMap {ι α : Type} {decode : ι → Option α} {items : List ι}
    (h : ∀ item ∈ items, (decode item).isSome) :
    items.mapM decode = some (items.filterMap decode) := by
  induction items with
  | nil => rfl
  | cons item items ih =>
    obtain ⟨a, ha⟩ := Option.isSome_iff_exists.mp (h item List.mem_cons_self)
    rw [List.mapM_cons, ha, ih fun i hi => h i (List.mem_cons_of_mem _ hi),
      List.filterMap_cons_some ha]
    rfl

lemma mapM_eq_none {ι α : Type} {decode : ι → Option α} {items : List ι}
    (h : ∃ item ∈ items, decode item = none) : items.mapM decode = none := by
  induction items with
  | nil => simp at h
  | cons item items ih =>
    rw [List.mapM_cons]
    cases hitem : decode item with
    | none => rfl
    | some a =>
      obtain ⟨broken, hmem, hbroken⟩ := h
      rcases List.mem_cons.mp hmem with rfl | hmem
      · rw [hitem] at hbroken
        cases hbroken
      · rw [ih ⟨broken, hmem, hbroken⟩]
        rfl

end Proofs

end IssueBridge
