import IssueBridge.Program.Basic
import IssueBridge.Proofs.ClientFrame
import IssueBridge.Proofs.CutoffRuns

/-!
# The program moves its cutoff as the loop does

A session makes its passes through clients that reach no file, and keeps its cutoff in the file of
its settings. So every pass that it makes, and every start of the program, is a step of the loop
around the cutoff.
-/

namespace IssueBridge.Proofs

open Program

variable {w v : World Machine} {s : Session}

/-- The text in the file of a path. -/
def fileText (path : String) (m : Machine) : Option String :=
  m.disk.contents? path

lemma machine_isolated (path : String) : Isolated (fileText path) Machine.transport :=
  ⟨fun _ _ _ => rfl, fun _ _ => rfl⟩

/-- The Jira client of the session reaches the server of the machine. -/
def Wired (s : Session) : Prop :=
  s.client.access.connection.transport = Machine.transport

lemma session_confined (h : Wired s) (now : GitHub.Issue → Instant) (path : String) :
    Confined (fileText path) (s.pass now) := by
  refine clients_confined rfl rfl (machine_isolated path) ?_
  rw [h]
  exact machine_isolated path

/-- A session makes a pass that looks back to its cutoff, and goes on with the cutoff that the pass
leaves it. -/
theorem session_step (hwired : Wired s) {started : Instant} {now : GitHub.Issue → Instant}
    {exit : Exit} (h : s.step started now w = (exit, v)) :
    ∃ turn c, Step (Machine.store s.settings.stateFile) (fileText s.settings.stateFile)
        s.settings.since s.cutoff w (.pass turn) c v ∧
      turn.started = started ∧ turn.confirmed = s.settings.confirm ∧
      ∀ s' seconds, exit = .resting s' seconds → s' = { s with cutoff := c } := by
  unfold Session.step at h
  obtain ⟨_, w', hemit, h⟩ := action_bind h
  obtain ⟨outcome, u, hpass, h⟩ := action_bind h
  obtain ⟨⟨c, result⟩, u', hfinish, hexit⟩ := action_bind h
  have hworld : fileText s.settings.stateFile w'.state = fileText s.settings.stateFile w.state := by
    have hkeep := keeps_emit (fileText s.settings.stateFile)
      (.passStarting (s.pass now).repo (s.pass now).since) w
    rw [hemit] at hkeep
    exact hkeep
  have hstep := Step.pass (s.pass now) started s.settings.confirm (s.settings.periodSeconds == 0)
    hworld rfl (session_confined hwired now _) hpass hfinish
  cases result with
  | error e =>
    obtain ⟨rfl, rfl⟩ := action_pure hexit
    refine ⟨_, c, hstep, rfl, rfl, ?_⟩
    intro s' seconds heq
    cases heq
  | ok _ =>
    cases hperiod : s.settings.periodSeconds == 0 with
    | true =>
      simp only [hperiod, if_true] at hexit
      obtain ⟨rfl, rfl⟩ := action_pure hexit
      refine ⟨_, c, hstep, rfl, rfl, ?_⟩
      intro s' seconds heq
      cases heq
    | false =>
      simp only [hperiod, Bool.false_eq_true, if_false] at hexit
      obtain ⟨rfl, rfl⟩ := action_pure hexit
      refine ⟨_, c, hstep, rfl, rfl, ?_⟩
      intro s' seconds heq
      cases heq
      rfl

lemma readConfig_keeps (path file : String) :
    Keeps (fileText path) ((readConfig file).onPart Machine.disk Machine.putDisk).run := by
  have hdisk : Keeps id (readConfig file).run := by
    unfold readConfig
    refine keeps_call_bind (keeps_lift fun _ => rfl) fun entry => ?_
    rcases entry with _ | ⟨text⟩ | _ | _
    · exact keeps_call_pure id _
    · dsimp only
      cases Config.ofText? text with
      | some config => exact keeps_call_pure id _
      | none => exact keeps_within _ (keeps_failing id _)
    · exact keeps_within _ (keeps_failing id _)
    · exact keeps_within _ (keeps_failing id _)
  intro w
  rw [onPart_run]
  exact congrArg (fun d : Disk => d.contents? path) (hdisk _)

lemma loadSettings_keeps (path : String) (cli : CommandLine) (home : String) :
    Keeps (fileText path) (loadSettings cli home).run := by
  unfold loadSettings
  refine keeps_call_bind (readConfig_keeps path _) fun file => ?_
  exact keeps_within _ (keeps_ofExcept _ _)

lemma told_bind {σ α : Type} {told : Bool} {e : Event} {f : Unit → Call σ α} {w v : World σ}
    {r : Except Failure α} (h : (if told then Call.emit e >>= f else f ()).run w = (r, v)) :
    ∃ u : World σ, u.state = w.state ∧ (f ()).run u = (r, v) := by
  cases told with
  | false => exact ⟨w, rfl, h⟩
  | true =>
    rw [if_pos rfl, run_bind, run_emit] at h
    exact ⟨{ w with log := w.log ++ [e] }, rfl, h⟩

/-- A start of the program loads the cutoff from the file of its settings. -/
theorem session_start {cli : CommandLine} {home : String} (c : Cutoff)
    (h : (start cli home).run w = (.ok s, v)) :
    Wired s ∧ Step (Machine.store s.settings.stateFile) (fileText s.settings.stateFile)
      s.settings.since c w .restart s.cutoff v := by
  unfold start at h
  rcases call_bind h with ⟨settings, w₁, hsettings, h⟩ | ⟨e, -, he⟩
  · obtain ⟨w₂, htold, h⟩ := told_bind h
    rcases call_bind h with ⟨client, w₃, hconnect, h⟩ | ⟨e, -, he⟩
    · rcases call_bind h with ⟨cutoff, w₄, hload, h⟩ | ⟨e, -, he⟩
      · obtain ⟨hs, rfl⟩ := call_pure h
        rw [Except.ok.inj hs]
        have hfile := loadSettings_keeps settings.stateFile cli home w
        have hreach : Keeps (fileText settings.stateFile)
            (Jira.Client.connect (connection settings) (account settings)).run :=
          connect_keeps (undisturbed_of_isolated (machine_isolated _)) _
        have hserver := hreach w₂
        rw [hsettings] at hfile
        rw [hconnect, htold] at hserver
        refine ⟨?_, Step.restart (hserver.trans hfile) hload⟩
        unfold Wired
        rw [(connect_ok hconnect).1]
        rfl
      · cases he
    · cases he
  · cases he

end IssueBridge.Proofs
