import IssueBridge.Http.Retry
import IssueBridge.Json.Reader

/-!
# Connections

How clients send requests and read the values in replies.
-/

namespace IssueBridge.Http

/-- A way to servers, how long to try, and how many attempts and pages to go through at most. -/
structure Connection (σ : Type) where
  transport : Transport σ
  policy : Policy
  patience : Nat

/-- The failure of a loop that would go on. -/
def outOfPatience : Cause :=
  .other "the server asks to go on without an end"

variable {σ α : Type}

/-- Sends a request, unless it cannot be sent. -/
def Connection.send (c : Connection σ) (request : Option Request) : Call σ Reply := do
  match request with
  | none => Call.failing .requestFailed
  | some r =>
    match ← (sendFrom c.transport c.policy r c.patience 0 0 : Action σ _) with
    | some result => Call.ofExcept result
    | none => Call.failing outOfPatience

/-- The value in the body of a reply. -/
def Reply.decode (r : Reply) (form : Json.Form α) : Except Cause α :=
  match form.read? r.body with
  | some value => .ok value
  | none => .error .undecodable

end IssueBridge.Http
