import Mathlib.Tactic.Lemma

/-!
# Checks in order

Checks are made one after the other, and the first one that fails says why. Two runs of checks, the
second of which begins where the first one ends, are a run again.
-/

namespace IssueBridge.Proofs

variable {ε α β : Type} {fails : Nat → ε → Prop} {m n k i : Nat} {P : α → Prop} {Q : β → Prop}
  {x : Except ε α} {e : ε}

/-- What a run of checks comes to, from one number up to another: a result if none of them fails,
and the error of the first one that fails if there is one. -/
inductive Checked (fails : Nat → ε → Prop) (m n : Nat) (P : α → Prop) : Except ε α → Prop
  | ok {a : α} (ha : P a) (hpass : ∀ i, m ≤ i → i < n → ∀ e, ¬fails i e) :
    Checked fails m n P (.ok a)
  | error {i : Nat} {e : ε} (he : fails i e) (hfirst : ∀ j, m ≤ j → j < i → ∀ e', ¬fails j e') :
    Checked fails m n P (.error e)

/-- A check fails and none before it does. -/
def FirstFailure (fails : Nat → ε → Prop) (e : ε) : Prop :=
  ∃ i, fails i e ∧ ∀ j < i, ∀ e', ¬fails j e'

lemma checked_pure {a : α} (ha : P a) : Checked fails n n P (pure a) :=
  .ok ha fun _ hn hlt => absurd hn (Nat.not_le_of_lt hlt)

/-- Checks that do not fail may come before. -/
lemma checked_from (hpass : ∀ i, m ≤ i → i < n → ∀ e, ¬fails i e) (h : Checked fails n k P x) :
    Checked fails m k P x := by
  cases h with
  | ok ha hafter =>
    refine .ok ha fun i hm hk => ?_
    rcases Nat.lt_or_ge i n with hlt | hge
    · exact hpass i hm hlt
    · exact hafter i hge hk
  | error he hfirst =>
    refine .error he fun j hm hj => ?_
    rcases Nat.lt_or_ge j n with hlt | hge
    · exact hpass j hm hlt
    · exact hfirst j hge hj

lemma checked_bind {f : α → Except ε β} (hx : Checked fails m n P x)
    (hf : ∀ a, P a → Checked fails n k Q (f a)) : Checked fails m k Q (x >>= f) := by
  cases hx with
  | ok ha hpass => exact checked_from hpass (hf _ ha)
  | error he hfirst => exact .error he hfirst

lemma checked_pass {a : α} (ha : P a) (hpass : ∀ e, ¬fails n e) :
    Checked fails n (n + 1) P (.ok a) := by
  refine .ok ha fun i hn hi => ?_
  rw [Nat.le_antisymm (Nat.le_of_lt_succ hi) hn]
  exact hpass

lemma checked_fail (he : fails n e) : Checked fails n (n + 1) P (.error e) :=
  .error he fun _ hn hj => absurd hn (Nat.not_le_of_lt hj)

/-! ## All checks -/

lemma checked_result {a : α} (h : Checked fails 0 n P x) (hx : x = .ok a) : P a := by
  subst hx
  cases h with
  | ok ha _ => exact ha

lemma checked_ok_iff (h : Checked fails 0 n P x) (hn : ∀ i e, fails i e → i < n) :
    (∃ a, x = .ok a) ↔ ∀ i e, ¬fails i e := by
  cases h with
  | ok _ hpass =>
    exact iff_of_true ⟨_, rfl⟩ fun i e he => hpass i (Nat.zero_le _) (hn i e he) e he
  | error he _ => exact iff_of_false nofun fun hnone => hnone _ _ he

lemma checked_error_iff (h : Checked fails 0 n P x) (hn : ∀ i e, fails i e → i < n)
    (hsame : ∀ i e e', fails i e → fails i e' → e = e') :
    x = .error e ↔ FirstFailure fails e := by
  cases h with
  | ok _ hpass =>
    refine iff_of_false nofun ?_
    rintro ⟨i, he, -⟩
    exact hpass i (Nat.zero_le _) (hn i e he) e he
  | @error i e' he' hfirst =>
    constructor
    · rintro ⟨⟩
      exact ⟨i, he', fun j => hfirst j (Nat.zero_le _)⟩
    · rintro ⟨j, he, hleast⟩
      have hle : j ≤ i := Nat.le_of_not_lt fun hlt => hleast i hlt e' he'
      have hge : i ≤ j := Nat.le_of_not_lt fun hlt => hfirst j (Nat.zero_le _) hlt e he
      rw [Nat.le_antisymm hle hge] at he
      rw [hsame i e' e he' he]

end IssueBridge.Proofs
