import IssueBridge.Proofs.CutoffRuns

/-!
# The history of a cutoff

A cutoff is moved in memory also when it cannot be written. So it is the last time that it was moved
to, until it is loaded again: then it is the last one that was written, and what the store held at
first if there is none. What cannot be read as a cutoff is loaded as nothing.
-/

namespace IssueBridge

variable {σ : Type}

namespace Cutoff

/-- What is done with a cutoff. -/
inductive Move where
  | advance (t : Instant) (written : Bool)
  | reload

def Move.written? : Move → Option Instant
  | .advance t true => some t
  | _ => none

/-- The last time that was written, the first one if there is none. -/
def lastKept (first : Option Instant) (moves : List Move) : Option Instant :=
  (moves.filterMap Move.written?).getLast?.or first

/-- The time that the cutoff stands at after some moves. -/
def remembered (first : Option Instant) (moves : List Move) : Option Instant :=
  match moves.getLast? with
  | some (.advance t _) => some t
  | _ => lastKept first moves

/-- The histories of a cutoff that is loaded in a world: the moves made so far, the cutoff and the
world they led to. Between two moves the world may change but for the text in the store. -/
inductive History (store : Store σ) (kept : σ → Option String) (w₀ : World σ) :
    List Move → Cutoff → World σ → Prop
  | load {c : Cutoff} {w : World σ} (hload : (load store).run w₀ = (.ok c, w)) :
      History store kept w₀ [] c w
  | advance {moves : List Move} {c c' : Cutoff} {w w' v : World σ} {t : Instant}
      {result : Except Failure Unit} (hbefore : History store kept w₀ moves c w)
      (hworld : kept w'.state = kept w.state)
      (hadvance : advance store t w' = ((c', result), v)) :
      History store kept w₀ (moves ++ [.advance t result.isOk]) c' v
  | reload {moves : List Move} {c c' : Cutoff} {w w' v : World σ}
      (hbefore : History store kept w₀ moves c w) (hworld : kept w'.state = kept w.state)
      (hload : (Cutoff.load store).run w' = (.ok c', v)) :
      History store kept w₀ (moves ++ [.reload]) c' v

end Cutoff

namespace Proofs

open Cutoff (Move History lastKept remembered)

variable {store : Store σ} {kept : σ → Option String} {configured first : Option Instant}
  {c c' : Cutoff} {w w₀ v : World σ} {moves : List Move} {t u : Instant}

/-! ### The later time -/

lemma instant_le_antisymm (htu : t.le u = true) (hut : u.le t = true) : t = u := by
  rw [instant_le_iff] at htu hut
  obtain ⟨seconds, nanos, _, _⟩ := t
  obtain ⟨seconds', nanos', _, _⟩ := u
  dsimp only at htu hut
  obtain rfl : seconds = seconds' := by omega
  obtain rfl : nanos = nanos' := by omega
  rfl

lemma instant_le_refl (t : Instant) : t.le t = true := by
  rw [instant_le_iff]
  omega

lemma effective_eq_none (h : c.effective configured = none) :
    c.since = none ∧ configured = none := by
  unfold Cutoff.effective at h
  split at h
  · cases h
  · cases h
  · rename_i hsince
    exact ⟨hsince, h⟩

/-- The effective cutoff is the later one of the cutoff and the configured time. -/
lemma mem_effective_iff : u ∈ c.effective configured ↔
    (u ∈ c.since ∨ u ∈ configured) ∧ ∀ t, t ∈ c.since ∨ t ∈ configured → t.le u = true := by
  constructor
  · intro hu
    refine ⟨mem_effective hu, fun t ht => le_effective ht fun e he => ?_⟩
    rw [Option.mem_unique he hu]
    exact instant_le_refl u
  · rintro ⟨hu, hbound⟩
    have hle : ∀ e ∈ c.effective configured, e = u := fun e he =>
      instant_le_antisymm (hbound e (mem_effective he))
        (le_effective hu fun e' he' => by rw [Option.mem_unique he' he]; exact instant_le_refl e)
    cases he : c.effective configured with
    | some e =>
      rw [hle e he]
      rfl
    | none =>
      obtain ⟨hsince, rfl⟩ := effective_eq_none he
      rw [hsince] at hu
      rcases hu with hu | hu <;> cases hu

/-! ### One move -/

/-- Loading fails only if the store cannot be read. -/
lemma load_eq (hstore : Lawful store kept) (hread : (store.read.run w).1.isOk = true) :
    ∃ v, (Cutoff.load store).run w = (.ok (keptCutoff (kept w.state)), v) ∧
      kept v.state = kept w.state := by
  rcases heq : store.read.run w with ⟨r, u⟩
  rw [heq] at hread
  cases r with
  | error e => cases hread
  | ok r =>
    obtain ⟨c, v, hload⟩ := load_of_read heq
    obtain ⟨rfl, hkept⟩ := load_course hstore hload
    exact ⟨v, hload, hkept⟩

/-- Moving a cutoff moves what the store holds with it, if that can be written. -/
lemma keptCutoff_advance (hstore : Lawful store kept) {result : Except Failure Unit}
    (h : Cutoff.advance store t w = ((c', result), v)) :
    c' = ⟨some t⟩ ∧ keptCutoff (kept v.state) =
      if result.isOk then ⟨some t⟩ else keptCutoff (kept w.state) := by
  obtain ⟨rfl, -, hkept⟩ := advance_course hstore h
  refine ⟨rfl, ?_⟩
  rw [hkept]
  cases result with
  | ok _ => exact keptCutoff_text t
  | error e => rfl

/-! ### Histories -/

lemma lastKept_append (m : Move) :
    lastKept first (moves ++ [m]) = m.written?.or (lastKept first moves) := by
  unfold lastKept
  rw [List.filterMap_append, List.getLast?_append]
  cases hm : m.written? with
  | none =>
    rw [List.filterMap_cons_none hm, List.filterMap_nil]
    rfl
  | some t =>
    rw [List.filterMap_cons_some hm, List.filterMap_nil]
    rfl

/-- What every history upholds: the cutoff is the time that it stands at, and the store holds the
last one that was written. -/
lemma history_kept (hstore : Lawful store kept) (h : History store kept w₀ moves c w) :
    c = ⟨remembered (keptCutoff (kept w₀.state)).since moves⟩ ∧
      keptCutoff (kept w.state) = ⟨lastKept (keptCutoff (kept w₀.state)).since moves⟩ := by
  induction h with
  | load hload =>
    obtain ⟨rfl, hkept⟩ := load_course hstore hload
    rw [hkept]
    exact ⟨rfl, rfl⟩
  | @advance moves c c' w w' v t result _ hworld hadvance ih =>
    obtain ⟨rfl, hkept⟩ := keptCutoff_advance hstore hadvance
    rw [hworld, ih.2] at hkept
    unfold remembered
    rw [List.getLast?_concat, hkept, lastKept_append]
    refine ⟨rfl, ?_⟩
    cases result <;> rfl
  | @reload moves c c' w w' v _ hworld hload ih =>
    obtain ⟨rfl, hkept⟩ := load_course hstore hload
    unfold remembered
    rw [List.getLast?_concat, hkept, hworld, ih.2, lastKept_append]
    exact ⟨rfl, rfl⟩

/-- Loading fails only if the store cannot be read, and what is not the text of a cutoff counts as
nothing. The cutoff stands at the last time it was moved to, or after it was loaded again at the
last one that was written; the store holds the latter, and held the first one. A configured time
takes its place if it is later. -/
theorem cutoff_remembered (hstore : Lawful store kept) :
    (∀ w, (store.read.run w).1.isOk = true →
      ∃ v, (Cutoff.load store).run w = (.ok (keptCutoff (kept w.state)), v) ∧
        kept v.state = kept w.state) ∧
    (∀ text, Cutoff.ofText? text = none → keptCutoff (some text) = keptCutoff none) ∧
    ∀ w₀ moves c w, History store kept w₀ moves c w →
      c.effective none = remembered (keptCutoff (kept w₀.state)).since moves ∧
      keptCutoff (kept w.state) = ⟨lastKept (keptCutoff (kept w₀.state)).since moves⟩ ∧
      ∀ configured u, u ∈ c.effective configured ↔
        (u ∈ c.effective none ∨ u ∈ configured) ∧
          ∀ t, t ∈ c.effective none ∨ t ∈ configured → t.le u = true := by
  refine ⟨fun w hread => load_eq hstore hread, fun text htext => ?_, fun w₀ moves c w h => ?_⟩
  · unfold keptCutoff
    rw [Option.bind_some, htext]
    rfl
  · obtain ⟨hc, hkept⟩ := history_kept hstore h
    refine ⟨?_, hkept, fun configured u => ?_⟩
    · rw [effective_none, hc]
    · rw [effective_none]
      exact mem_effective_iff

/-- The middle of a leap second at the end of the year 9999. -/
def leapEnd : Instant :=
  ⟨253402300799, 1500000000, by decide, by decide⟩

/-- The year 10000 and a nanosecond. -/
def afterwards : Instant :=
  ⟨253402300800, 1, by decide, by decide⟩

/-- A slot that held no cutoff at first. -/
def lostSlot : World Slot :=
  ⟨{ contents := some "lost" }, []⟩

/-- The slot once it is full: it holds the first cutoff, and nothing more is written. -/
def fullSlot : World Slot :=
  ⟨{ contents := some (Cutoff.text ⟨some leapEnd⟩), fault := some "full" }, []⟩

/-- A cutoff that could not be written is remembered until the one before it is loaded again. -/
theorem cutoff_remembered_refused :
    ∃ c c' w w',
      History Slot.store Slot.contents lostSlot
        [.advance leapEnd true, .advance afterwards false] c w ∧
      c.effective none = some afterwards ∧
      History Slot.store Slot.contents lostSlot
        [.advance leapEnd true, .advance afterwards false, .reload] c' w' ∧
      c'.effective none = some leapEnd := by
  obtain ⟨hloads, -, hhistories⟩ := cutoff_remembered slot_lawful
  obtain ⟨v, hload, hkept⟩ := hloads lostSlot rfl
  have hfirst := (History.load hload).advance (t := leapEnd) hkept.symm rfl
  have hfull : Slot.contents fullSlot.state = some (Cutoff.text ⟨some leapEnd⟩) := rfl
  have hsecond := hfirst.advance (t := afterwards) hfull rfl
  obtain ⟨v', hreload, -⟩ := hloads fullSlot rfl
  have hthird := hsecond.reload hfull hreload
  exact ⟨_, _, _, _, hsecond, (hhistories _ _ _ _ hsecond).1, hthird, (hhistories _ _ _ _ hthird).1⟩

end Proofs

end IssueBridge
