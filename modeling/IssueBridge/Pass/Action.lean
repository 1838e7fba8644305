import IssueBridge.Pass.Event

/-!
# Actions

An action reads and changes a world and may tell events. A call is an action that may fail; a
failure does not undo what the call did to the world before.
-/

namespace IssueBridge

/-- A state, and the events told so far, the latest last. -/
structure World (σ : Type) where
  state : σ
  log : List Event := []

/-- An action on a world with states in `σ`. -/
abbrev Action (σ : Type) := StateM (World σ)

/-- An action that yields a value or a failure. -/
abbrev Call (σ : Type) := ExceptT Failure (Action σ)

variable {σ α : Type}

def emit (e : Event) : Action σ Unit :=
  modify fun w => { w with log := w.log ++ [e] }

/-- Replaces the state by its image and yields the value that comes with it. -/
def onState (f : σ → α × σ) : Action σ α := fun w =>
  let (a, s) := f w.state
  (a, { w with state := s })

def Action.onPart {τ : Type} (part : σ → τ) (put : τ → σ → σ) (action : Action τ α) :
    Action σ α := fun w =>
  let (a, inner) := action ⟨part w.state, w.log⟩
  (a, ⟨put inner.state w.state, inner.log⟩)

namespace Call

/-- The value, or a failure of the given cause. -/
def ofExcept (e : Except Cause α) : Call σ α :=
  ExceptT.mk (pure (e.mapError Failure.of))

def failing (cause : Cause) : Call σ α :=
  ofExcept (.error cause)

def emit (e : Event) : Call σ Unit :=
  ExceptT.lift (IssueBridge.emit e)

/-- The call in the course of an operation. -/
def within (operation : String) (call : Call σ α) : Call σ α :=
  call.adapt (Failure.within operation)

def onPart {τ : Type} (part : σ → τ) (put : τ → σ → σ) (call : Call τ α) : Call σ α :=
  ExceptT.mk (call.run.onPart part put)

end Call

end IssueBridge
