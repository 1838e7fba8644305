import IssueBridge.Pass.Action
import Mathlib.Tactic.Lemma

/-!
# The course of calls

How a call that is made of others runs, and calls that leave a part of the state alone. A failure
ends a sequence of calls in the world that the failing one left.
-/

namespace IssueBridge.Proofs

variable {σ τ α β : Type}

lemma action_bind {x : Action σ α} {f : α → Action σ β} {w v : World σ} {b : β}
    (h : (x >>= f) w = (b, v)) : ∃ a u, x w = (a, u) ∧ f a u = (b, v) :=
  ⟨(x w).1, (x w).2, rfl, h⟩

lemma action_pure {w v : World σ} {a b : α} (h : (pure a : Action σ α) w = (b, v)) :
    b = a ∧ v = w := by
  have hpair : (a, w) = (b, v) := h
  rw [Prod.mk.injEq] at hpair
  exact ⟨hpair.1.symm, hpair.2.symm⟩

lemma run_bind (x : Call σ α) (f : α → Call σ β) (w : World σ) :
    (x >>= f).run w =
      match x.run w with
      | (.ok a, v) => (f a).run v
      | (.error e, v) => (.error e, v) := by
  change (match x.run w with | (r, v) => ExceptT.bindCont f r v) = _
  rcases x.run w with ⟨r, v⟩
  cases r with
  | ok a => rfl
  | error e => rfl

lemma action_bind_of_eq {x : Action σ α} {f : α → Action σ β} {w u : World σ} {a : α}
    (h : x w = (a, u)) : (x >>= f) w = f a u := by
  change f (x w).1 (x w).2 = _
  rw [h]

lemma lift_bind_of_eq {x : Action σ α} {f : α → Call σ β} {w u : World σ} {a : α}
    (h : x w = (a, u)) : ((ExceptT.lift x : Call σ α) >>= f).run w = (f a).run u := by
  change (f (x w).1).run (x w).2 = _
  rw [h]

lemma call_bind_of_ok {x : Call σ α} {f : α → Call σ β} {w u : World σ} {a : α}
    (h : x.run w = (.ok a, u)) : (x >>= f).run w = (f a).run u := by
  rw [run_bind, h]

lemma call_bind_of_error {x : Call σ α} {f : α → Call σ β} {w u : World σ} {e : Failure}
    (h : x.run w = (.error e, u)) : (x >>= f).run w = (.error e, u) := by
  rw [run_bind, h]

lemma run_pure (a : α) (w : World σ) : (pure a : Call σ α).run w = (.ok a, w) :=
  rfl

lemma run_within (operation : String) (x : Call σ α) (w : World σ) :
    (x.within operation).run w =
      ((x.run w).1.mapError (Failure.within operation), (x.run w).2) := by
  change (Except.mapError (Failure.within operation) (x.run w).1, (x.run w).2) = _
  rfl

lemma within_of_ok {operation : String} {x : Call σ α} {w v : World σ} {a : α}
    (h : x.run w = (.ok a, v)) : (x.within operation).run w = (.ok a, v) := by
  rw [run_within, h]
  rfl

lemma run_emit (e : Event) (w : World σ) :
    (Call.emit e : Call σ Unit).run w = (.ok (), { w with log := w.log ++ [e] }) :=
  rfl

/-- Events that are told one after another stand in the log in that order. -/
lemma run_forM_emit (event : α → Event) (items : List α) (w : World σ) :
    (items.forM fun i => (Call.emit (event i) : Call σ Unit)).run w =
      (.ok (), { w with log := w.log ++ items.map event }) := by
  induction items generalizing w with
  | nil =>
    rw [List.map_nil, List.append_nil]
    rfl
  | cons i items ih =>
    have hrest := ih { w with log := w.log ++ [event i] }
    rw [List.append_assoc] at hrest
    exact hrest

/-- An action among calls does not fail. -/
lemma call_lift {x : Action σ α} {f : α → Call σ β} {w v : World σ} {r : Except Failure β}
    (h : ((ExceptT.lift x : Call σ α) >>= f).run w = (r, v)) :
    ∃ a u, x w = (a, u) ∧ (f a).run u = (r, v) := by
  rw [run_bind] at h
  exact ⟨(x w).1, (x w).2, rfl, h⟩

/-- A sequence goes on after its first call, or ends with the failure of it. -/
lemma call_bind {x : Call σ α} {f : α → Call σ β} {w v : World σ} {r : Except Failure β}
    (h : (x >>= f).run w = (r, v)) :
    (∃ a u, x.run w = (.ok a, u) ∧ (f a).run u = (r, v)) ∨
      ∃ e, x.run w = (.error e, v) ∧ r = .error e := by
  rw [run_bind] at h
  rcases hx : x.run w with ⟨s, u⟩
  rw [hx] at h
  cases s with
  | ok a => exact Or.inl ⟨a, u, rfl, h⟩
  | error e =>
    rw [Prod.mk.injEq] at h
    obtain ⟨rfl, rfl⟩ := h
    exact Or.inr ⟨e, rfl, rfl⟩

lemma call_pure {w v : World σ} {a : α} {r : Except Failure α}
    (h : (pure a : Call σ α).run w = (r, v)) : r = .ok a ∧ v = w := by
  rw [run_pure, Prod.mk.injEq] at h
  exact ⟨h.1.symm, h.2.symm⟩

lemma call_ofExcept {x : Except Cause α} {w v : World σ} {a : α}
    (h : (Call.ofExcept x : Call σ α).run w = (.ok a, v)) : x = .ok a ∧ v = w := by
  have hpair : (x.mapError Failure.of, w) = (.ok a, v) := h
  cases x with
  | ok b =>
    cases hpair
    exact ⟨rfl, rfl⟩
  | error cause => cases hpair

/-- The context of a call does not change whether it succeeds and where it leads. -/
lemma call_within {operation : String} {x : Call σ α} {w v : World σ} {r : Except Failure α}
    (h : (x.within operation).run w = (r, v)) :
    (∃ a, r = .ok a ∧ x.run w = (.ok a, v)) ∨ ∃ e f, r = .error e ∧ x.run w = (.error f, v) := by
  rw [run_within, Prod.mk.injEq] at h
  obtain ⟨hr, hv⟩ := h
  rcases hx : x.run w with ⟨s, u⟩
  rw [hx] at hr hv
  cases s with
  | ok a => exact Or.inl ⟨a, hr.symm, by rw [← hv]⟩
  | error e => exact Or.inr ⟨_, e, hr.symm, by rw [← hv]⟩

/-- A sequence that begins with a call in the course of an operation. -/
lemma within_bind {operation : String} {x : Call σ α} {f : α → Call σ β} {w v : World σ}
    {r : Except Failure β} (h : (x.within operation >>= f).run w = (r, v)) :
    (∃ a u, x.run w = (.ok a, u) ∧ (f a).run u = (r, v)) ∨
      ∃ e e', x.run w = (.error e', v) ∧ r = .error e := by
  rcases call_bind h with ⟨a, u, hx, hf⟩ | ⟨e, hx, hr⟩
  · rcases call_within hx with ⟨b, hb, hrun⟩ | ⟨e, e', he, -⟩
    · rw [← Except.ok.inj hb] at hrun
      exact Or.inl ⟨a, u, hrun, hf⟩
    · cases he
  · rcases call_within hx with ⟨b, hb, -⟩ | ⟨e', e'', -, hrun⟩
    · cases hb
    · exact Or.inr ⟨e, e'', hrun, hr⟩

/-- An action changes no more of the state than what lies outside a part. -/
def Keeps (part : σ → τ) (x : Action σ α) : Prop :=
  ∀ w, part (x w).2.state = part w.state

lemma keeps_pure (part : σ → τ) (a : α) : Keeps part (pure a : Action σ α) :=
  fun _ => rfl

lemma keeps_emit (part : σ → τ) (e : Event) : Keeps part (emit e : Action σ Unit) :=
  fun _ => rfl

lemma keeps_bind {part : σ → τ} {x : Action σ α} {f : α → Action σ β} (hx : Keeps part x)
    (hf : ∀ a, Keeps part (f a)) : Keeps part (x >>= f) := by
  intro w
  change part (f (x w).1 (x w).2).2.state = _
  rw [hf, hx]

lemma keeps_call_pure (part : σ → τ) (a : α) : Keeps part (pure a : Call σ α).run :=
  fun _ => rfl

lemma keeps_call_bind {part : σ → τ} {x : Call σ α} {f : α → Call σ β} (hx : Keeps part x.run)
    (hf : ∀ a, Keeps part (f a).run) : Keeps part (x >>= f).run := by
  intro w
  rw [run_bind]
  have hstate := hx w
  rcases hrun : x.run w with ⟨r, v⟩
  rw [hrun] at hstate
  cases r with
  | ok a => exact (hf a v).trans hstate
  | error e => exact hstate

lemma keeps_within {part : σ → τ} {x : Call σ α} (operation : String) (hx : Keeps part x.run) :
    Keeps part (x.within operation).run := by
  intro w
  rw [run_within]
  exact hx w

lemma keeps_ofExcept (part : σ → τ) (e : Except Cause α) :
    Keeps part (Call.ofExcept e : Call σ α).run :=
  fun _ => rfl

lemma keeps_call_emit (part : σ → τ) (e : Event) : Keeps part (Call.emit e : Call σ Unit).run :=
  fun _ => rfl

end IssueBridge.Proofs
