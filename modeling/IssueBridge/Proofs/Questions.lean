import IssueBridge.Proofs.MemoryCalls
import IssueBridge.Proofs.ParallelRuns

/-!
# GitHub as answers to questions

All that a pass learns from GitHub are answers. They may depend on the question and on the questions
asked before, but on nothing that is done to the project.
-/

namespace IssueBridge.Proofs

variable {α β : Type}

/-- A call to GitHub. -/
inductive Question where
  | issues (repo : GitHub.Repo) (since : Option Instant)
  | comments (repo : GitHub.Repo) (number : UInt64) (since : Option Instant)
  | user (login : String)
  deriving DecidableEq

/-- The answers of GitHub, given the questions asked before. -/
structure Answers where
  issues : List Question → GitHub.Repo → Option Instant → Except Failure (List GitHub.Issue)
  comments : List Question → GitHub.Repo → UInt64 → Option Instant →
    Except Failure (List GitHub.Comment)
  user : List Question → String → Except Failure GitHub.User

/-- The questions asked so far, and the memory that holds the project. -/
structure Site where
  asked : List Question
  memory : Memory

def ask (q : Question) (answer : List Question → Except Failure α) : Call Site α :=
  ExceptT.mk (onState fun s => (answer s.asked, { s with asked := s.asked ++ [q] }))

def inMemory (x : Call Memory α) : Call Site α :=
  x.onPart Site.memory fun memory s => { s with memory }

def Answers.source (a : Answers) : GitHub.Source Site where
  issues repo since := ask (.issues repo since) fun past => a.issues past repo since
  comments repo number since :=
    ask (.comments repo number since) fun past => a.comments past repo number since
  user login := ask (.user login) fun past => a.user past login

def siteTarget (rules : Memory.Rules) (ids : Jira.FieldNumbers) (dryRun : Bool) :
    Jira.Target Site where
  issues numbers := inMemory ((Memory.target rules ids dryRun).issues numbers)
  issue key := inMemory ((Memory.target rules ids dryRun).issue key)
  create fields := inMemory ((Memory.target rules ids dryRun).create fields)
  update key fields := inMemory ((Memory.target rules ids dryRun).update key fields)
  addComment key body := inMemory ((Memory.target rules ids dryRun).addComment key body)
  editComment key id body := inMemory ((Memory.target rules ids dryRun).editComment key id body)
  dryRun

/-- The pass over a project, with given answers of GitHub. -/
def Setting.passOn (s : Setting) (a : Answers) (dryRun : Bool) : Pass Site :=
  { source := a.source
    target := siteTarget s.rules s.ids dryRun
    ids := s.ids
    repo := s.repo
    issueType := s.issueType
    now := s.now
    since := s.since }

/-- Two sites where the same was asked, with related memories. -/
def Level (R : Memory → Memory → Prop) (s t : Site) : Prop :=
  s.asked = t.asked ∧ R s.memory t.memory

/-- The same result at two such sites. -/
def Same (R : Memory → Memory → Prop) (a b : α) (s t : Site) : Prop :=
  a = b ∧ Level R s t

lemma level_mono {R R' : Memory → Memory → Prop} {s t : Site} (hR : ∀ m n, R m n → R' m n)
    (h : Level R s t) : Level R' s t :=
  ⟨h.1, hR _ _ h.2⟩

lemma parallel_of_same {γ δ : Type} {R : Memory → Memory → Prop} {f : α → Action Site γ}
    {g : α → Action Site δ} {T : γ → δ → Site → Site → Prop}
    (h : ∀ a, Parallel (Level R) (f a) (g a) T) (a b : α) :
    Parallel (Same R a b) (f a) (g b) T := by
  refine parallel_of_and fun hab => ?_
  rw [hab]
  exact h b

lemma parallel_ask (R : Memory → Memory → Prop) (q : Question)
    (answer : List Question → Except Failure α) :
    Parallel (Level R) (ask q answer).run (ask q answer).run
      (Both (fun a b s t => (∃ past, answer past = .ok a) ∧ Same R a b s t) (Same R)) := by
  intro w v hR
  have hlevel : Level R { w.state with asked := w.state.asked ++ [q] }
      { v.state with asked := v.state.asked ++ [q] } := by
    refine ⟨?_, hR.2⟩
    change w.state.asked ++ [q] = v.state.asked ++ [q]
    rw [hR.1]
  change Both _ _ (answer w.state.asked) (answer v.state.asked)
    { w.state with asked := w.state.asked ++ [q] } { v.state with asked := v.state.asked ++ [q] }
  rw [hR.1] at hlevel ⊢
  cases hanswer : answer v.state.asked with
  | ok a => exact .ok ⟨⟨_, hanswer⟩, rfl, hlevel⟩
  | error e => exact .error ⟨rfl, hlevel⟩

lemma parallel_inMemory {R : Memory → Memory → Prop} {x : Call Memory α} {y : Call Memory β}
    {S : α → β → Memory → Memory → Prop} {E : Failure → Failure → Memory → Memory → Prop}
    (h : Parallel R x.run y.run (Both S E)) :
    Parallel (Level R) (inMemory x).run (inMemory y).run
      (Both (fun a b => Level (S a b)) fun e f => Level (E e f)) := by
  intro w v hR
  have hxy := h ⟨w.state.memory, w.log⟩ ⟨v.state.memory, v.log⟩ hR.2
  change Both _ _ (x.run ⟨w.state.memory, w.log⟩).1 (y.run ⟨v.state.memory, v.log⟩).1
    { w.state with memory := (x.run ⟨w.state.memory, w.log⟩).2.state }
    { v.state with memory := (y.run ⟨v.state.memory, v.log⟩).2.state }
  generalize x.run ⟨w.state.memory, w.log⟩ = p at hxy ⊢
  generalize y.run ⟨v.state.memory, v.log⟩ = q at hxy ⊢
  obtain ⟨r, w'⟩ := p
  obtain ⟨r', v'⟩ := q
  cases hxy with
  | ok h => exact .ok ⟨hR.1, h⟩
  | error h => exact .error ⟨hR.1, h⟩

section Sequences

variable {R : Memory → Memory → Prop} {γ δ : Type} {T : γ → δ → Site → Site → Prop}
  {E : Failure → Failure → Site → Site → Prop}

lemma parallel_ask_bind {op : String} {f : α → Call Site γ} {g : α → Call Site δ} (q : Question)
    (answer : List Question → Except Failure α) (hE : ∀ e s t, Level R s t → E e e s t)
    (hf : ∀ past a, answer past = .ok a → Parallel (Level R) (f a).run (g a).run (Both T E)) :
    Parallel (Level R) ((ask q answer).within op >>= f).run ((ask q answer).within op >>= g).run
      (Both T E) := by
  have hask : Parallel (Level R) ((ask q answer).within op).run ((ask q answer).within op).run
      (Both (fun a b s t => (∃ past, answer past = .ok a) ∧ Same R a b s t) E) := by
    refine parallel_within (parallel_call_mono (parallel_ask R q answer) (fun _ _ _ _ h => h) ?_)
    rintro e _ s t ⟨rfl, h⟩
    exact hE _ s t h
  refine parallel_call_bind hask fun a b => parallel_of_and fun ⟨past, hpast⟩ => ?_
  refine parallel_of_and fun hab => ?_
  rw [← hab]
  exact hf past a hpast

lemma parallel_memory {x : Call Memory α} {y : Call Memory β}
    {S : α → β → Memory → Memory → Prop} (op op' : String)
    (h : Parallel R x.run y.run (Both S Never)) :
    Parallel (Level R) ((inMemory x).within op).run ((inMemory y).within op').run
      (Both (fun a b => Level (S a b)) E) := by
  refine parallel_within (parallel_call_mono (parallel_inMemory h) (fun _ _ _ _ hS => hS) ?_)
  rintro e f s t ⟨-, hnever⟩
  exact hnever.elim

end Sequences

end IssueBridge.Proofs
