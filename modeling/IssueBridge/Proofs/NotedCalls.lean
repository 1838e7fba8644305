import IssueBridge.Proofs.CallCourse

/-!
# Noted calls

Calls may be watched: each one is noted along with its result. Watching changes neither results nor
worlds, so what the notes say of a watched program holds of the program itself.
-/

namespace IssueBridge

variable {σ ν α β : Type}

/-- A state, and what was noted so far. -/
structure Watched (σ ν : Type) where
  inner : σ
  notes : List ν

/-- The world with what was noted so far. -/
def World.watched (w : World σ) (notes : List ν) : World (Watched σ ν) :=
  ⟨⟨w.state, notes⟩, w.log⟩

/-- An action that is noted with its value. -/
def Action.noting (note : α → ν) (x : Action σ α) : Action (Watched σ ν) α := fun w =>
  let (a, v) := x ⟨w.state.inner, w.log⟩
  (a, v.watched (w.state.notes ++ [note a]))

/-- A call that is noted with its result. -/
def noting (note : Except Failure α → ν) (x : Call σ α) : Call (Watched σ ν) α :=
  ExceptT.mk (Action.noting note x.run)

namespace Proofs

/-- An action does what another one does, and the calls that it notes are as told for the value. -/
def Notes (x : Action (Watched σ ν) α) (y : Action σ α) (Q : α → List ν → Prop) : Prop :=
  ∀ w past, ∃ notes, x (w.watched past) = ((y w).1, (y w).2.watched (past ++ notes)) ∧
    Q (y w).1 notes

section Actions

variable {x : Action (Watched σ ν) α} {y : Action σ α} {Q Q' : α → List ν → Prop}

lemma notes_mono (h : Notes x y Q) (hQ : ∀ a c, Q a c → Q' a c) : Notes x y Q' := by
  intro w past
  obtain ⟨notes, hx, hnotes⟩ := h w past
  exact ⟨notes, hx, hQ _ _ hnotes⟩

lemma notes_pure {a : α} (h : Q a []) : Notes (pure a : Action (Watched σ ν) α) (pure a) Q := by
  intro w past
  refine ⟨[], ?_, h⟩
  rw [List.append_nil]
  rfl

lemma notes_emit_bind {e : Event} {f : Unit → Action (Watched σ ν) β} {g : Unit → Action σ β}
    {T : β → List ν → Prop} (h : Notes (f ()) (g ()) T) :
    Notes (emit e >>= f) (emit e >>= g) T :=
  fun w past => h { w with log := w.log ++ [e] } past

lemma notes_bind {f : α → Action (Watched σ ν) β} {g : α → Action σ β} {T : β → List ν → Prop}
    (hx : Notes x y Q) (hf : ∀ a c, Q a c → Notes (f a) (g a) fun b c' => T b (c ++ c')) :
    Notes (x >>= f) (y >>= g) T := by
  intro w past
  obtain ⟨c, hxw, hc⟩ := hx w past
  obtain ⟨c', hfw, hc'⟩ := hf _ c hc (y w).2 (past ++ c)
  refine ⟨c ++ c', ?_, hc'⟩
  change f (x (w.watched past)).1 (x (w.watched past)).2 = _
  rw [hxw, hfw, List.append_assoc]
  rfl

end Actions

section Calls

variable {x : Call (Watched σ ν) α} {y : Call σ α} {Q : Except Failure α → List ν → Prop}

lemma notes_noting (note : Except Failure α → ν) (y : Call σ α) :
    Notes (noting note y).run y.run fun r c => c = [note r] :=
  fun w _ => ⟨[note (y.run w).1], rfl, rfl⟩

lemma notes_call_bind {f : α → Call (Watched σ ν) β} {g : α → Call σ β}
    {T : Except Failure β → List ν → Prop} (hx : Notes x.run y.run Q)
    (hok : ∀ a c, Q (.ok a) c → Notes (f a).run (g a).run fun r c' => T r (c ++ c'))
    (herror : ∀ e c, Q (.error e) c → T (.error e) c) :
    Notes (x >>= f).run (y >>= g).run T := by
  intro w past
  obtain ⟨c, hxw, hc⟩ := hx w past
  change x.run (w.watched past) = ((y.run w).1, (y.run w).2.watched (past ++ c)) at hxw
  change Q (y.run w).1 c at hc
  rw [run_bind, run_bind, hxw]
  rcases hyw : y.run w with ⟨r, v⟩
  rw [hyw] at hc
  cases r with
  | ok a =>
    obtain ⟨c', hfv, hc'⟩ := hok a c hc v (past ++ c)
    refine ⟨c ++ c', ?_, hc'⟩
    rw [← List.append_assoc]
    exact hfv
  | error e => exact ⟨c, rfl, herror e c hc⟩

lemma notes_call_pure {a : α} (h : Q (.ok a) []) :
    Notes (pure a : Call (Watched σ ν) α).run (pure a : Call σ α).run Q :=
  notes_pure h

lemma notes_ofExcept (e : Except Cause α) :
    Notes (Call.ofExcept e : Call (Watched σ ν) α).run (Call.ofExcept e : Call σ α).run
      fun r c => r = e.mapError Failure.of ∧ c = [] :=
  notes_pure ⟨rfl, rfl⟩

lemma notes_within (op : String) (hx : Notes x.run y.run fun r => Q (r.mapError (.within op))) :
    Notes (x.within op).run (y.within op).run Q := by
  intro w past
  obtain ⟨c, hxw, hc⟩ := hx w past
  rw [run_within, run_within, hxw]
  exact ⟨c, rfl, hc⟩

lemma notes_noting_within (note : Except Failure α → ν) (op : String) (y : Call σ α) :
    Notes ((noting note y).within op).run (y.within op).run fun r c =>
      (∃ a, r = .ok a ∧ c = [note (.ok a)]) ∨
        ∃ e : Failure, r = .error (e.within op) ∧ c = [note (.error e)] := by
  refine notes_within op (notes_mono (notes_noting note y) fun r c hc => ?_)
  cases r with
  | ok a => exact Or.inl ⟨a, rfl, hc⟩
  | error e => exact Or.inr ⟨e, rfl, hc⟩

/-- A sequence that begins with a noted call in the course of an operation. -/
lemma notes_noting_bind {note : Except Failure α → ν} {op : String}
    {f : α → Call (Watched σ ν) β} {g : α → Call σ β} {T : Except Failure β → List ν → Prop}
    (hok : ∀ a, Notes (f a).run (g a).run fun r c => T r (note (.ok a) :: c))
    (herror : ∀ e : Failure, T (.error (e.within op)) [note (.error e)]) :
    Notes ((noting note y).within op >>= f).run (y.within op >>= g).run T := by
  refine notes_call_bind (notes_noting_within note op y) ?_ ?_
  · rintro a c (⟨b, hb, rfl⟩ | ⟨e, he, -⟩)
    · rw [Except.ok.inj hb]
      exact hok b
    · cases he
  · rintro e c (⟨b, hb, -⟩ | ⟨e', he, rfl⟩)
    · cases hb
    · rw [Except.error.inj he]
      exact herror e'

lemma notes_lift_bind {x : Action (Watched σ ν) α} {y : Action σ α} {Q : α → List ν → Prop}
    {f : α → Call (Watched σ ν) β} {g : α → Call σ β} {T : Except Failure β → List ν → Prop}
    (hx : Notes x y Q) (hf : ∀ a c, Q a c → Notes (f a).run (g a).run fun r c' => T r (c ++ c')) :
    Notes ((ExceptT.lift x : Call (Watched σ ν) α) >>= f).run
      ((ExceptT.lift y : Call σ α) >>= g).run T := by
  intro w past
  obtain ⟨notes, hrun, hT⟩ := notes_bind hx hf w past
  exact ⟨notes, hrun, hT⟩

lemma notes_call_emit_bind {e : Event} {f : Unit → Call (Watched σ ν) β} {g : Unit → Call σ β}
    {T : Except Failure β → List ν → Prop} (h : Notes (f ()).run (g ()).run T) :
    Notes ((Call.emit e : Call (Watched σ ν) Unit) >>= f).run
      ((Call.emit e : Call σ Unit) >>= g).run T :=
  fun w past => h { w with log := w.log ++ [e] } past

lemma notes_forM_emit_bind {ι : Type} {event : ι → Event} {items : List ι}
    {f : Unit → Call (Watched σ ν) β} {g : Unit → Call σ β}
    {T : Except Failure β → List ν → Prop} (h : Notes (f ()).run (g ()).run T) :
    Notes ((items.forM fun i => (Call.emit (event i) : Call (Watched σ ν) Unit)) >>= f).run
      ((items.forM fun i => (Call.emit (event i) : Call σ Unit)) >>= g).run T := by
  induction items with
  | nil => exact h
  | cons i items ih => exact fun w past => ih { w with log := w.log ++ [event i] } past

end Calls

end Proofs

end IssueBridge
