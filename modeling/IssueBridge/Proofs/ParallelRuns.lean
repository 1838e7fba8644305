import IssueBridge.Proofs.CallCourse

/-!
# Two runs side by side

Two actions run in parallel if related states lead them to related values and related states.
Parallel runs are put together as the actions themselves are.
-/

namespace IssueBridge.Proofs

variable {σ τ α β γ δ : Type} {R R' : σ → τ → Prop}

/-- From related states, two actions come to related values and states. -/
def Parallel (R : σ → τ → Prop) (x : Action σ α) (y : Action τ β)
    (S : α → β → σ → τ → Prop) : Prop :=
  ∀ w v, R w.state v.state → S (x w).1 (y v).1 (x w).2.state (y v).2.state

/-- Two results are both values or both failures, and related as such. -/
inductive Both (S : α → β → σ → τ → Prop) (E : Failure → Failure → σ → τ → Prop) :
    Except Failure α → Except Failure β → σ → τ → Prop
  | ok {a : α} {b : β} {s : σ} {t : τ} (h : S a b s t) : Both S E (.ok a) (.ok b) s t
  | error {e f : Failure} {s : σ} {t : τ} (h : E e f s t) : Both S E (.error e) (.error f) s t

/-- No failure. -/
def Never : Failure → Failure → σ → τ → Prop :=
  fun _ _ _ _ => False

lemma both_mono {S S' : α → β → σ → τ → Prop} {E E' : Failure → Failure → σ → τ → Prop}
    {r : Except Failure α} {r' : Except Failure β} {s : σ} {t : τ} (h : Both S E r r' s t)
    (hS : ∀ a b, S a b s t → S' a b s t) (hE : ∀ e f, E e f s t → E' e f s t) :
    Both S' E' r r' s t := by
  cases h with
  | ok h => exact .ok (hS _ _ h)
  | error h => exact .error (hE _ _ h)

section Actions

variable {x : Action σ α} {y : Action τ β} {S S' : α → β → σ → τ → Prop}

lemma parallel_pure {a : α} {b : β} (h : ∀ s t, R s t → S a b s t) :
    Parallel R (pure a) (pure b) S :=
  fun w v hR => h w.state v.state hR

lemma parallel_emit (R : σ → τ → Prop) (e f : Event) :
    Parallel R (emit e) (emit f) fun _ _ => R :=
  fun _ _ hR => hR

lemma parallel_bind {f : α → Action σ γ} {g : β → Action τ δ} {T : γ → δ → σ → τ → Prop}
    (hx : Parallel R x y S) (hf : ∀ a b, Parallel (S a b) (f a) (g b) T) :
    Parallel R (x >>= f) (y >>= g) T :=
  fun w v hR => hf _ _ _ _ (hx w v hR)

lemma parallel_mono (h : Parallel R x y S) (hR : ∀ s t, R' s t → R s t)
    (hS : ∀ a b s t, S a b s t → S' a b s t) : Parallel R' x y S' :=
  fun w v hR' => hS _ _ _ _ (h w v (hR _ _ hR'))

/-- What follows from the relation of the first states may be assumed. -/
lemma parallel_of_imp {P : Prop} (hP : ∀ s t, R s t → P) (h : P → Parallel R x y S) :
    Parallel R x y S :=
  fun w v hR => h (hP _ _ hR) w v hR

lemma parallel_of_and {P : Prop} (h : P → Parallel R x y S) :
    Parallel (fun s t => P ∧ R s t) x y S :=
  fun w v hR => h hR.1 w v hR.2

lemma parallel_of_both {S : α → β → σ → τ → Prop} {E : Failure → Failure → σ → τ → Prop}
    {f : Except Failure α → Action σ γ} {g : Except Failure β → Action τ δ}
    {T : γ → δ → σ → τ → Prop} (hok : ∀ a b, Parallel (S a b) (f (.ok a)) (g (.ok b)) T)
    (herror : ∀ d e, Parallel (E d e) (f (.error d)) (g (.error e)) T) (r : Except Failure α)
    (r' : Except Failure β) : Parallel (Both S E r r') (f r) (g r') T := by
  intro w v hboth
  cases hboth with
  | ok h => exact hok _ _ w v h
  | error h => exact herror _ _ w v h

end Actions

section Calls

variable {x : Call σ α} {y : Call τ β} {S S' : α → β → σ → τ → Prop}
  {E E' : Failure → Failure → σ → τ → Prop}

lemma parallel_call_pure {a : α} {b : β} (h : ∀ s t, R s t → S a b s t) :
    Parallel R (pure a : Call σ α).run (pure b : Call τ β).run (Both S E) :=
  fun w v hR => .ok (h w.state v.state hR)

lemma parallel_call_emit (R : σ → τ → Prop) (e f : Event) :
    Parallel R (Call.emit e : Call σ Unit).run (Call.emit f : Call τ Unit).run
      (Both (fun _ _ => R) E) :=
  fun _ _ hR => .ok hR

lemma parallel_lift {x : Action σ α} {y : Action τ β} (h : Parallel R x y S) :
    Parallel R (ExceptT.lift x : Call σ α).run (ExceptT.lift y : Call τ β).run (Both S E) :=
  fun w v hR => .ok (h w v hR)

lemma parallel_call_bind {f : α → Call σ γ} {g : β → Call τ δ} {T : γ → δ → σ → τ → Prop}
    (hx : Parallel R x.run y.run (Both S E))
    (hf : ∀ a b, Parallel (S a b) (f a).run (g b).run (Both T E)) :
    Parallel R (x >>= f).run (y >>= g).run (Both T E) := by
  intro w v hR
  have h := hx w v hR
  rw [run_bind, run_bind]
  rcases hxw : x.run w with ⟨r, w'⟩
  rcases hyv : y.run v with ⟨r', v'⟩
  rw [hxw, hyv] at h
  cases h with
  | ok h => exact hf _ _ w' v' h
  | error h => exact .error h

lemma parallel_within {op op' : String}
    (h : Parallel R x.run y.run (Both S fun e f => E (e.within op) (f.within op'))) :
    Parallel R (x.within op).run (y.within op').run (Both S E) := by
  intro w v hR
  have hxy := h w v hR
  rw [run_within, run_within]
  rcases hxw : x.run w with ⟨r, w'⟩
  rcases hyv : y.run v with ⟨r', v'⟩
  rw [hxw, hyv] at hxy
  cases hxy with
  | ok hxy => exact .ok hxy
  | error hxy => exact .error hxy

lemma parallel_call_mono (h : Parallel R x.run y.run (Both S E))
    (hS : ∀ a b s t, S a b s t → S' a b s t) (hE : ∀ e f s t, E e f s t → E' e f s t) :
    Parallel R x.run y.run (Both S' E') :=
  fun w v hR => both_mono (h w v hR) (fun a b => hS a b _ _) fun e f => hE e f _ _

lemma parallel_forM {ι : Type} {f : ι → Call σ Unit} {g : ι → Call τ Unit} (items : List ι)
    (h : ∀ i, Parallel R (f i).run (g i).run (Both (fun _ _ => R) E)) :
    Parallel R (items.forM f).run (items.forM g).run (Both (fun _ _ => R) E) := by
  induction items with
  | nil => exact parallel_call_pure fun _ _ hR => hR
  | cons i items ih => exact parallel_call_bind (h i) fun _ _ => ih

end Calls

end IssueBridge.Proofs
