import IssueBridge.Proofs.CutoffText
import IssueBridge.Proofs.PassFrame
import IssueBridge.Proofs.TextStores

/-!
# No update is lost behind the cutoff

A pass looks back to the cutoff, and the cutoff moves to the start of a pass only when nothing is
left undone. So every time below the cutoff was looked at by a pass that began later and left
nothing undone, also after writes of the cutoff that fail, and after restarts.
-/

namespace IssueBridge.Proofs

variable {σ : Type} {store : Store σ} {kept : σ → Option String} {configured : Option Instant}
  {c c' c₀ : Cutoff} {w v : World σ}

/-! ### The order of instants -/

lemma instant_le_iff {s t : Instant} :
    s.le t = true ↔ s.seconds < t.seconds ∨ s.seconds = t.seconds ∧ s.nanos ≤ t.nanos := by
  unfold Instant.le
  simp

lemma instant_le_trans {s t u : Instant} (hst : s.le t = true) (htu : t.le u = true) :
    s.le u = true := by
  rw [instant_le_iff] at *
  omega

lemma instant_le_of_not_le {s t : Instant} (h : s.le t = false) : t.le s = true := by
  rw [← Bool.not_eq_true, instant_le_iff] at h
  rw [instant_le_iff]
  omega

lemma le_later_left (s t : Instant) : s.le (s.later t) = true := by
  unfold Instant.later
  split_ifs with h
  · exact h
  · rw [instant_le_iff]
    omega

lemma le_later_right (s t : Instant) : t.le (s.later t) = true := by
  unfold Instant.later
  split_ifs with h
  · rw [instant_le_iff]
    omega
  · exact instant_le_of_not_le (Bool.eq_false_iff.mpr h)

lemma effective_none (c : Cutoff) : c.effective none = c.since := by
  unfold Cutoff.effective
  cases c.since <;> rfl

/-- The time that a pass looks back to is the cutoff or the configured time. -/
lemma mem_effective {u : Instant} (h : u ∈ c.effective configured) :
    u ∈ c.since ∨ u ∈ configured := by
  unfold Cutoff.effective Instant.later at h
  cases hs : c.since with
  | none => exact Or.inr (by simpa [hs] using h)
  | some s =>
    cases ht : configured with
    | none => exact Or.inl (by simpa [hs, ht] using h)
    | some t =>
      simp only [hs, ht] at h
      split_ifs at h
      · exact Or.inr h
      · exact Or.inl h

lemma le_effective {u b : Instant} (hb : b ∈ c.since ∨ b ∈ configured)
    (h : ∀ e ∈ c.effective configured, e.le u = true) : b.le u = true := by
  unfold Cutoff.effective at h
  cases hs : c.since with
  | none =>
    rw [hs] at hb h
    rcases hb with hb | hb
    · cases hb
    · exact h b hb
  | some s =>
    cases ht : configured with
    | none =>
      rw [hs, ht] at hb
      rw [hs, ht] at h
      rcases hb with hb | hb
      · exact h b hb
      · cases hb
    | some t =>
      rw [hs, ht] at hb
      rw [hs, ht] at h
      have hlater := h _ rfl
      rcases hb with hb | hb
      · rw [← Option.some.inj hb]
        exact instant_le_trans (le_later_left s t) hlater
      · rw [← Option.some.inj hb]
        exact instant_le_trans (le_later_right s t) hlater

/-! ### What one pass and one restart do -/

/-- A pass as the loop around it sees it. -/
structure Turn where
  /-- The time that the pass looked back to. -/
  used : Option Instant
  started : Instant
  confirmed : Bool
  outcome : Except Failure Report
  /-- Its start was written to the store. -/
  written : Bool

/-- The pass wrote to Jira and left nothing undone. -/
def Turn.Clean (t : Turn) : Prop :=
  t.confirmed = true ∧ ∃ report, t.outcome = .ok report ∧ report.failedIssues = []

/-- What happens to the cutoff next. -/
inductive Happening where
  | pass (turn : Turn)
  /-- A new run loads the cutoff again. -/
  | restart

/-- A step of the loop on a cutoff in a world, which may have moved on but for the text in the
store. Passes may have any collaborators that leave that text alone. -/
inductive Step (store : Store σ) (kept : σ → Option String) (configured : Option Instant)
    (c : Cutoff) (w : World σ) : Happening → Cutoff → World σ → Prop
  | pass {c' : Cutoff} {w' u v : World σ} (p : Pass σ) (started : Instant)
      (confirmed oneShot : Bool) {outcome : Except Failure Report} {result : Except Failure Unit}
      (hworld : kept w'.state = kept w.state) (hsince : p.since = c.effective configured)
      (hconfined : Confined kept p) (hpass : p.run.run w' = (outcome, u))
      (hfinish : c.finish store outcome started confirmed oneShot u = ((c', result), v)) :
      Step store kept configured c w
        (.pass { used := p.since, started, confirmed, outcome
                 written := Cutoff.advances outcome confirmed &&
                   ((store.write (Cutoff.text ⟨some started⟩)).run u).1.isOk })
        c' v
  | restart {c' : Cutoff} {w' v : World σ} (hworld : kept w'.state = kept w.state)
      (hload : (Cutoff.load store).run w' = (.ok c', v)) :
      Step store kept configured c w .restart c' v

lemma advances_iff (outcome : Except Failure Report) (confirmed : Bool) :
    Cutoff.advances outcome confirmed = true ↔
      confirmed = true ∧ ∃ report, outcome = .ok report ∧ report.failedIssues = [] := by
  unfold Cutoff.advances
  cases outcome with
  | error e => simp
  | ok report => simp

/-- The cutoff in a text that is kept. -/
def keptCutoff (text : Option String) : Cutoff :=
  (text.bind Cutoff.ofText?).getD {}

lemma keptCutoff_text (t : Instant) : keptCutoff (some (Cutoff.text ⟨some t⟩)) = ⟨some t⟩ := by
  unfold keptCutoff
  rw [Option.bind_some, ofText?_text, Option.getD_some]

/-- Loading fails only with the reading. -/
lemma load_of_read {r : Option String} (hread : store.read.run w = (.ok r, v)) :
    ∃ c u, (Cutoff.load store).run w = (.ok c, u) := by
  unfold Cutoff.load
  rw [call_bind_of_ok hread]
  cases r with
  | none => exact ⟨_, _, rfl⟩
  | some text =>
    dsimp only
    cases Cutoff.ofText? text with
    | some c => exact ⟨_, _, rfl⟩
    | none => exact ⟨_, _, rfl⟩

lemma load_course (hstore : Lawful store kept) (h : (Cutoff.load store).run w = (.ok c, v)) :
    c = keptCutoff (kept w.state) ∧ kept v.state = kept w.state := by
  have hkeep := hstore.read w
  unfold Cutoff.load at h
  rcases call_bind h with ⟨text, u, hread, hrest⟩ | ⟨e, -, he⟩
  · have htext := hstore.read_ok _ _ _ hread
    rw [hread, ← htext] at hkeep
    rw [← htext]
    unfold keptCutoff
    cases text with
    | none =>
      obtain ⟨hc, rfl⟩ := call_pure hrest
      exact ⟨Except.ok.inj hc, hkeep⟩
    | some text =>
      cases htext : Cutoff.ofText? text with
      | some d =>
        simp only [htext] at hrest
        obtain ⟨hc, rfl⟩ := call_pure hrest
        rw [Option.bind_some, htext]
        exact ⟨Except.ok.inj hc, hkeep⟩
      | none =>
        simp only [htext] at hrest
        rw [run_bind, run_emit] at hrest
        obtain ⟨hc, rfl⟩ := call_pure hrest
        rw [Option.bind_some, htext]
        exact ⟨Except.ok.inj hc, hkeep⟩
  · cases he

lemma advance_course (hstore : Lawful store kept) {t : Instant} {result : Except Failure Unit}
    (h : Cutoff.advance store t w = ((c, result), v)) :
    c = ⟨some t⟩ ∧ result.isOk = ((store.write (Cutoff.text ⟨some t⟩)).run w).1.isOk ∧
      kept v.state = if result.isOk then some c.text else kept w.state := by
  unfold Cutoff.advance Cutoff.save at h
  obtain ⟨saved, u, hwrite, hrest⟩ := action_bind h
  obtain ⟨hpair, rfl⟩ := action_pure hrest
  obtain ⟨rfl, rfl⟩ := Prod.mk.inj hpair
  refine ⟨rfl, by rw [hwrite], ?_⟩
  cases result with
  | ok _ => exact hstore.write_ok _ _ _ hwrite
  | error e => exact hstore.write_error _ _ _ _ hwrite

/-- The cutoff and the text in the store after a pass. -/
lemma settle_course (hstore : Lawful store kept) {outcome : Except Failure Report}
    {started : Instant} {confirmed : Bool} {result : Except Failure Unit}
    (h : Cutoff.settle store c outcome started confirmed w = ((c', result), v)) :
    c' = (if Cutoff.advances outcome confirmed then ⟨some started⟩ else c) ∧
      kept v.state =
        if Cutoff.advances outcome confirmed &&
            ((store.write (Cutoff.text ⟨some started⟩)).run w).1.isOk
          then some (Cutoff.text ⟨some started⟩) else kept w.state := by
  unfold Cutoff.settle at h
  cases outcome with
  | error e =>
    obtain ⟨hpair, rfl⟩ := action_pure h
    exact ⟨congrArg Prod.fst hpair, rfl⟩
  | ok report =>
    cases hadv : Cutoff.advances (.ok report) confirmed with
    | false =>
      simp only [hadv, Bool.false_and, Bool.false_eq_true, if_false] at h ⊢
      cases confirmed with
      | false =>
        obtain ⟨hpair, rfl⟩ := action_pure h
        exact ⟨congrArg Prod.fst hpair, rfl⟩
      | true =>
        obtain ⟨a, u, hemit, hrest⟩ := action_bind h
        obtain ⟨hpair, rfl⟩ := action_pure hrest
        have hkeep := keeps_emit kept (.cutoffKept report.failedIssues) w
        rw [hemit] at hkeep
        exact ⟨congrArg Prod.fst hpair, hkeep⟩
    | true =>
      simp only [hadv, if_true, Bool.true_and] at h ⊢
      obtain ⟨⟨next, saved⟩, u, hadvance, hrest⟩ := action_bind h
      obtain ⟨hpair, rfl⟩ := action_pure hrest
      obtain ⟨rfl, hresult, hkept⟩ := advance_course hstore hadvance
      rw [← hresult]
      exact ⟨congrArg Prod.fst hpair, hkept⟩

lemma finish_course (hstore : Lawful store kept) {outcome : Except Failure Report}
    {started : Instant} {confirmed oneShot : Bool} {result : Except Failure Unit}
    (h : c.finish store outcome started confirmed oneShot w = ((c', result), v)) :
    c' = (if Cutoff.advances outcome confirmed then ⟨some started⟩ else c) ∧
      kept v.state =
        if Cutoff.advances outcome confirmed &&
            ((store.write (Cutoff.text ⟨some started⟩)).run w).1.isOk
          then some (Cutoff.text ⟨some started⟩) else kept w.state := by
  unfold Cutoff.finish at h
  obtain ⟨⟨next, settled⟩, u, hsettle, hrest⟩ := action_bind h
  obtain ⟨hnext, hkept⟩ := settle_course hstore hsettle
  rw [← hnext, ← hkept]
  cases settled with
  | ok _ =>
    obtain ⟨hpair, rfl⟩ := action_pure hrest
    exact ⟨congrArg Prod.fst hpair, rfl⟩
  | error e =>
    dsimp only at hrest
    cases oneShot with
    | true =>
      obtain ⟨hpair, rfl⟩ := action_pure hrest
      exact ⟨congrArg Prod.fst hpair, rfl⟩
    | false =>
      obtain ⟨a, u', hemit, hdone⟩ := action_bind hrest
      obtain ⟨hpair, rfl⟩ := action_pure hdone
      have hkeep := keeps_emit kept (.passFailed e) u
      rw [hemit] at hkeep
      exact ⟨congrArg Prod.fst hpair, hkeep⟩

/-- A clean pass moves the cutoff to its start, and the text in the store with it if that can be
written. Any other pass moves neither. -/
lemma step_pass_course (hstore : Lawful store kept) {turn : Turn}
    (h : Step store kept configured c w (.pass turn) c' v) :
    turn.used = c.effective configured ∧
      (turn.Clean → c' = ⟨some turn.started⟩ ∧
        kept v.state = if turn.written then some c'.text else kept w.state) ∧
      (¬turn.Clean → turn.written = false ∧ c' = c ∧ kept v.state = kept w.state) := by
  cases h with
  | @pass _ w' u _ p started confirmed oneShot outcome result hworld hsince hconfined hpass
      hfinish =>
    have hrun := run_keeps hconfined w'
    rw [hpass] at hrun
    obtain ⟨rfl, hkept⟩ := finish_course hstore hfinish
    rw [hrun.trans hworld] at hkept
    refine ⟨hsince, ?_, ?_⟩
    · intro hclean
      have hadv := (advances_iff outcome confirmed).mpr hclean
      simp only [hadv, if_true, Bool.true_and] at hkept ⊢
      exact ⟨trivial, hkept⟩
    · intro hclean
      have hadv := Bool.eq_false_iff.mpr (mt (advances_iff outcome confirmed).mp hclean)
      simp only [hadv, Bool.false_and, Bool.false_eq_true, if_false] at hkept ⊢
      exact ⟨trivial, trivial, hkept⟩

lemma step_restart_course (hstore : Lawful store kept)
    (h : Step store kept configured c w .restart c' v) :
    c' = keptCutoff (kept w.state) ∧ kept v.state = kept w.state := by
  cases h with
  | restart hworld hload =>
    obtain ⟨hc, hkept⟩ := load_course hstore hload
    rw [hworld] at hc hkept
    exact ⟨hc, hkept⟩

/-! ### Runs of the loop -/

/-- The runs that begin with the cutoff `c₀` from the store: the passes made so far, and the cutoff
and the world they led to. -/
inductive Run (store : Store σ) (kept : σ → Option String) (configured : Option Instant)
    (c₀ : Cutoff) : List Turn → Cutoff → World σ → Prop
  | start {w v : World σ} (hload : (Cutoff.load store).run w = (.ok c₀, v)) :
      Run store kept configured c₀ [] c₀ v
  | pass {turns : List Turn} {turn : Turn} {c c' : Cutoff} {w v : World σ}
      (hrun : Run store kept configured c₀ turns c w)
      (hstep : Step store kept configured c w (.pass turn) c' v) :
      Run store kept configured c₀ (turns ++ [turn]) c' v
  | restart {turns : List Turn} {c c' : Cutoff} {w v : World σ}
      (hrun : Run store kept configured c₀ turns c w)
      (hstep : Step store kept configured c w .restart c' v) :
      Run store kept configured c₀ turns c' v

/-- The last start that was written to the store; the first cutoff if there is none. -/
def lastWritten (c₀ : Cutoff) (turns : List Turn) : Cutoff :=
  turns.foldl (fun c turn => if turn.written then ⟨some turn.started⟩ else c) c₀

lemma lastWritten_append (turns : List Turn) (turn : Turn) :
    lastWritten c₀ (turns ++ [turn]) =
      if turn.written then ⟨some turn.started⟩ else lastWritten c₀ turns := by
  unfold lastWritten
  rw [List.foldl_append, List.foldl_cons, List.foldl_nil]

/-- Every time from `bound` on and below the cutoff was looked at by a pass that left nothing
undone: it looked back to that time or further, and it began later. -/
def Covered (bound : Option Instant) (turns : List Turn) (c : Cutoff) : Prop :=
  ∀ u, (∀ b ∈ bound, b.le u = true) → (∃ t ∈ c.effective none, t.le u = false) →
    ∃ turn ∈ turns, turn.Clean ∧ (∀ b ∈ turn.used, b.le u = true) ∧ turn.started.le u = false

variable {turns : List Turn} {turn : Turn}

lemma covered_start : Covered (c₀.effective configured) [] c₀ := by
  intro u hbound ⟨t, ht, hlt⟩
  rw [effective_none] at ht
  rw [le_effective (Or.inl ht) hbound] at hlt
  cases hlt

lemma covered_append {bound : Option Instant} (h : Covered bound turns c) :
    Covered bound (turns ++ [turn]) c := by
  intro u hbound hbelow
  obtain ⟨earlier, hmem, hcovers⟩ := h u hbound hbelow
  exact ⟨earlier, List.mem_append_left _ hmem, hcovers⟩

/-- The start of a clean pass is covered: by the pass itself from the time on that it looked back
to, and below that time as the cutoff before it was. -/
lemma covered_clean (h : Covered (c₀.effective configured) turns c) (hclean : turn.Clean)
    (hused : turn.used = c.effective configured) :
    Covered (c₀.effective configured) (turns ++ [turn]) ⟨some turn.started⟩ := by
  intro u hbound ⟨t, ht, hlt⟩
  rw [effective_none] at ht
  rw [← Option.some.inj ht] at hlt
  by_cases hlooked : ∀ b ∈ turn.used, b.le u = true
  · exact ⟨turn, List.mem_append_right _ List.mem_cons_self, hclean, hlooked, hlt⟩
  · simp only [Classical.not_forall, Bool.not_eq_true] at hlooked
    obtain ⟨b, hb, hbefore⟩ := hlooked
    rw [hused] at hb
    rcases mem_effective hb with hsince | hconf
    · refine covered_append h u hbound ⟨b, ?_, hbefore⟩
      rw [effective_none]
      exact hsince
    · rw [le_effective (Or.inr hconf) hbound] at hbefore
      cases hbefore

/-- What every run upholds: the cutoff in memory and the last one in the store are covered, and the
store yields the latter. -/
structure Upheld (kept : σ → Option String) (configured : Option Instant) (c₀ : Cutoff)
    (turns : List Turn) (c : Cutoff) (w : World σ) : Prop where
  memory : Covered (c₀.effective configured) turns c
  stored : Covered (c₀.effective configured) turns (lastWritten c₀ turns)
  reload : keptCutoff (kept w.state) = lastWritten c₀ turns

lemma upheld_pass (hstore : Lawful store kept) (h : Upheld kept configured c₀ turns c w)
    (hstep : Step store kept configured c w (.pass turn) c' v) :
    Upheld kept configured c₀ (turns ++ [turn]) c' v := by
  obtain ⟨hused, hmoved, hstayed⟩ := step_pass_course hstore hstep
  by_cases hclean : turn.Clean
  · obtain ⟨rfl, hkept⟩ := hmoved hclean
    have hcovered := covered_clean h.memory hclean hused
    cases hwritten : turn.written with
    | true =>
      have hlast : lastWritten c₀ (turns ++ [turn]) = ⟨some turn.started⟩ := by
        rw [lastWritten_append, if_pos hwritten]
      rw [if_pos hwritten] at hkept
      refine ⟨hcovered, ?_, ?_⟩
      · rw [hlast]
        exact hcovered
      · rw [hlast, hkept, keptCutoff_text]
    | false =>
      have hlast : lastWritten c₀ (turns ++ [turn]) = lastWritten c₀ turns := by
        rw [lastWritten_append, hwritten, if_neg Bool.false_ne_true]
      rw [hwritten, if_neg Bool.false_ne_true] at hkept
      refine ⟨hcovered, ?_, ?_⟩
      · rw [hlast]
        exact covered_append h.stored
      · rw [hlast, hkept, h.reload]
  · obtain ⟨hwritten, rfl, hkept⟩ := hstayed hclean
    have hlast : lastWritten c₀ (turns ++ [turn]) = lastWritten c₀ turns := by
      rw [lastWritten_append, hwritten, if_neg Bool.false_ne_true]
    refine ⟨covered_append h.memory, ?_, ?_⟩
    · rw [hlast]
      exact covered_append h.stored
    · rw [hlast, hkept, h.reload]

lemma run_upheld (hstore : Lawful store kept) (h : Run store kept configured c₀ turns c w) :
    Upheld kept configured c₀ turns c w := by
  induction h with
  | start hload =>
    obtain ⟨hc, hkept⟩ := load_course hstore hload
    refine ⟨covered_start, covered_start, ?_⟩
    rw [hkept, ← hc]
    rfl
  | pass _ hstep ih => exact upheld_pass hstore ih hstep
  | restart _ hstep ih =>
    obtain ⟨rfl, hkept⟩ := step_restart_course hstore hstep
    refine ⟨?_, ih.stored, ?_⟩
    · rw [ih.reload]
      exact ih.stored
    · rw [hkept, ih.reload]

/-- At every point of a run, every time below the cutoff was looked at by a pass that left nothing
undone. What happens next moves the cutoff only to the start of such a pass, or back to the last
start in the store, and changes the text in the store only after such a pass. -/
theorem run_covered (hstore : Lawful store kept) (hrun : Run store kept configured c₀ turns c w) :
    Covered (c₀.effective configured) turns c ∧
      (∀ turn c' v, Step store kept configured c w (.pass turn) c' v →
        turn.used = c.effective configured ∧
        (turn.Clean → c' = ⟨some turn.started⟩ ∧
          kept v.state = if turn.written then some c'.text else kept w.state) ∧
        (¬turn.Clean → c' = c ∧ kept v.state = kept w.state)) ∧
      ∀ c' v, Step store kept configured c w .restart c' v →
        c' = lastWritten c₀ turns ∧ kept v.state = kept w.state := by
  have hupheld := run_upheld hstore hrun
  refine ⟨hupheld.memory, ?_, ?_⟩
  · intro turn c' v hstep
    obtain ⟨hused, hmoved, hstayed⟩ := step_pass_course hstore hstep
    exact ⟨hused, hmoved, fun hclean => (hstayed hclean).2⟩
  · intro c' v hstep
    obtain ⟨hc, hkept⟩ := step_restart_course hstore hstep
    rw [hupheld.reload] at hc
    exact ⟨hc, hkept⟩

/-- A pass over a repository without issues. -/
def idlePass (since : Option Instant) : Pass Slot where
  source :=
    { issues := fun _ _ => pure []
      comments := fun _ _ _ => pure []
      user := fun _ => Call.failing .undecodable }
  target :=
    { issues := fun _ => pure []
      issue := fun _ => Call.failing .undecodable
      create := fun _ => Call.failing .undecodable
      update := fun _ _ => Call.failing .undecodable
      addComment := fun _ _ => Call.failing .undecodable
      editComment := fun _ _ _ => Call.failing .undecodable
      dryRun := false }
  ids := default
  repo := default
  issueType := "Task"
  now := fun _ => default
  since

lemma idlePass_confined (since : Option Instant) : Confined Slot.contents (idlePass since) := by
  constructor <;> intros <;> exact fun _ => rfl

/-- A pass without issues is clean, and writes its start unless the slot has a fault. -/
lemma idle_step (c : Cutoff) (w : World Slot) (started : Instant) (fault : Option String) :
    ∃ v, Step Slot.store Slot.contents none c w
      (.pass ⟨c.effective none, started, true, .ok {}, fault.isNone⟩) ⟨some started⟩ v := by
  have hworld : (World.mk { w.state with fault } w.log).state.contents = w.state.contents := rfl
  cases fault with
  | none =>
    exact ⟨_, Step.pass (idlePass (c.effective none)) started true false hworld rfl
      (idlePass_confined _) rfl rfl⟩
  | some reason =>
    exact ⟨_, Step.pass (idlePass (c.effective none)) started true false hworld rfl
      (idlePass_confined _) rfl rfl⟩

lemma slot_loads (w : World Slot) : ∃ c v, (Cutoff.load Slot.store).run w = (.ok c, v) :=
  load_of_read (show Slot.store.read.run w = (.ok w.state.contents, w) from rfl)

/-- A start that could not be written is forgotten with the run, and what was written before it is
loaded again. -/
theorem run_covered_restarted :
    ∃ turns c w, Run Slot.store Slot.contents none {} turns c w ∧ turns.length = 2 ∧
      c = ⟨some default⟩ ∧ Covered none turns c := by
  have hstart : Run Slot.store Slot.contents none {} [] {} ⟨{}, []⟩ := Run.start (w := ⟨{}, []⟩) rfl
  obtain ⟨w₁, hfirst⟩ := idle_step {} ⟨{}, []⟩ default none
  obtain ⟨w₂, hsecond⟩ :=
    idle_step ⟨some default⟩ w₁ ⟨1000000000, 0, by decide, by decide⟩ (some "full")
  have hstopped := Run.pass (Run.pass hstart hfirst) hsecond
  obtain ⟨c, w₃, hload⟩ := slot_loads w₂
  have hrestart : ∀ d, Step Slot.store Slot.contents none d w₂ .restart c w₃ :=
    fun _ => Step.restart rfl hload
  obtain ⟨hc, -⟩ := (run_covered slot_lawful hstopped).2.2 c w₃ (hrestart _)
  have hrun := Run.restart hstopped (hrestart _)
  exact ⟨_, c, w₃, hrun, rfl, hc, (run_covered slot_lawful hrun).1⟩

end IssueBridge.Proofs
