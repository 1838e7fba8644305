import IssueBridge.Http.Script
import IssueBridge.Proofs.NotedCalls
import IssueBridge.Proofs.Verdicts

/-!
# The course of a request

The attempts at one request and the waits between them. An attempt is judged by what became of it
and by how many waits there were before, and another one begins only while the time for the request
lasts. So a request takes at most that time and the time of one attempt.
-/

namespace IssueBridge.Http

variable {σ : Type}

/-- What happens while a request is sent. -/
inductive Step where
  /-- An attempt within a time limit: what became of it, and the time it took. -/
  | tried (r : Request) (limit : Duration) (outcome : Outcome) (took : Duration)
  | waited (time : Duration)

/-- The way to the servers with every attempt and every wait noted. -/
def Transport.timed (t : Transport σ) : Transport (Watched σ Step) where
  attempt r limit := Action.noting (fun x => .tried r limit x.1 x.2) (t.attempt r limit)
  wait time := Action.noting (fun _ => .waited time) (t.wait time)

/-- The time that attempts and the waits after them take, in nanoseconds. -/
def spent (trials : List Trial) : Nat :=
  (trials.map Trial.span).sum

/-- The steps of attempts with a wait after each but the last. -/
def steps (p : Policy) (r : Request) (before : List Trial) (last : Trial) : List Step :=
  before.flatMap (fun x => [.tried r p.attemptLimit x.outcome x.took, .waited x.wait]) ++
    [.tried r p.attemptLimit last.outcome last.took]

/-- The attempts at a request after some attempts, which are counted in 32 bits, and some time: all
but the last settle nothing, and each of the others begins in time. -/
structure Course (p : Policy) (url : Url) (attempts elapsed : Nat) (result : Except Cause Reply)
    (before : List Trial) (last : Trial) : Prop where
  again : ∀ k x, before[k]? = some x →
    ∃ error, Judged p url (.ofNat (attempts + k)) x.outcome (.again error x.wait)
  inTime : ∀ k, 0 < k → k ≤ before.length → elapsed + spent (before.take k) ≤ p.timeout.nanos
  concluded : Concluded p url (.ofNat (attempts + before.length)) (elapsed + spent before) last
    result

variable {t : Transport σ} {p : Policy} {r : Request} {url : Url} {patience attempts : Nat}
  {elapsed : Nat} {result : Except Cause Reply} {before : List Trial} {x last : Trial}
  {w v : World σ}

/-! ## One attempt after another -/

lemma course_last (h : Concluded p url (.ofNat attempts) elapsed last result) :
    Course p url attempts elapsed result [] last :=
  ⟨nofun, fun _ hpos hle => absurd hle (Nat.not_le.mpr hpos), h⟩

lemma course_cons {error : String}
    (hjudged : Judged p url (.ofNat attempts) x.outcome (.again error x.wait))
    (htime : elapsed + x.span ≤ p.timeout.nanos)
    (h : Course p url (attempts + 1) (elapsed + x.span) result before last) :
    Course p url attempts elapsed result (x :: before) last := by
  have hspent : ∀ trials, elapsed + spent (x :: trials) = elapsed + x.span + spent trials :=
    fun trials => (Nat.add_assoc _ _ _).symm
  refine ⟨fun k y hy => ?_, fun k hpos hle => ?_, ?_⟩
  · cases k with
    | zero =>
      cases hy
      exact ⟨error, hjudged⟩
    | succ k =>
      have hagain := h.again k y hy
      rwa [Nat.add_right_comm] at hagain
  · cases k with
    | zero => cases hpos
    | succ k =>
      rw [List.take_succ_cons, hspent]
      rcases Nat.eq_zero_or_pos k with rfl | hk
      · exact htime
      · exact h.inTime k hk (Nat.le_of_succ_le_succ hle)
  · have hconcluded := h.concluded
    rwa [Nat.add_right_comm, ← hspent] at hconcluded

/-- More patience changes nothing about a request that is settled. -/
lemma sendFrom_add {attempts : UInt32} {elapsed : Duration}
    (h : sendFrom t p r patience attempts elapsed w = (some result, v)) (more : Nat) :
    sendFrom t p r (patience + more) attempts elapsed w = (some result, v) := by
  induction patience generalizing attempts elapsed w with
  | zero => cases (Proofs.action_pure h).1
  | succ patience ih =>
    rw [Nat.add_right_comm, sendFrom]
    rw [sendFrom] at h
    obtain ⟨⟨o, took⟩, u, hattempt, h⟩ := Proofs.action_bind h
    rw [Proofs.action_bind_of_eq hattempt]
    dsimp only at h ⊢
    cases hturn : p.turn r.url attempts elapsed took o with
    | done settled => rwa [hturn] at h
    | again error wait due =>
      rw [hturn] at h
      exact ih h

lemma attempt_notes (t : Transport σ) (r : Request) (limit : Duration) :
    Proofs.Notes (t.timed.attempt r limit) (t.attempt r limit) fun x c =>
      c = [.tried r limit x.1 x.2] :=
  fun _ _ => ⟨_, rfl, rfl⟩

lemma wait_notes (t : Transport σ) (time : Duration) :
    Proofs.Notes (t.timed.wait time) (t.wait time) fun _ c => c = [.waited time] :=
  fun _ _ => ⟨_, rfl, rfl⟩

lemma sendFrom_notes (t : Transport σ) (p : Policy) (r : Request) (patience attempts : Nat)
    (elapsed : Duration) :
    Proofs.Notes (sendFrom t.timed p r patience (.ofNat attempts) elapsed)
      (sendFrom t p r patience (.ofNat attempts) elapsed)
      fun settled notes => ∀ result, settled = some result → ∃ before last,
        notes = steps p r before last ∧
          Course p r.url attempts elapsed.nanos result before last := by
  induction patience generalizing attempts elapsed with
  | zero => exact Proofs.notes_pure nofun
  | succ patience ih =>
    rw [sendFrom, sendFrom]
    refine Proofs.notes_bind (attempt_notes t r p.attemptLimit) ?_
    rintro ⟨o, took⟩ _ rfl
    dsimp only
    have hturned := turn_turned p r.url (.ofNat attempts) elapsed took o
    generalize p.turn r.url (.ofNat attempts) elapsed took o = turn at hturned ⊢
    cases hturned with
    | @done settled wait hconcluded =>
      refine Proofs.notes_pure fun result hresult => ?_
      cases hresult
      exact ⟨[], ⟨o, took, wait⟩, rfl, course_last hconcluded⟩
    | @again error wait due hjudged hdue htime =>
      have hcount : UInt32.ofNat attempts + 1 = UInt32.ofNat (attempts + 1) :=
        (UInt32.ofNat_add attempts 1).symm
      dsimp only
      rw [hcount]
      refine Proofs.notes_emit_bind (Proofs.notes_bind (wait_notes t wait) ?_)
      rintro _ _ rfl
      refine Proofs.notes_mono (ih _ _) fun settled notes hnotes result hresult => ?_
      obtain ⟨before, last, rfl, hcourse⟩ := hnotes result hresult
      rw [← hdue] at htime hcourse
      exact ⟨⟨o, took, wait⟩ :: before, last, rfl, course_cons hjudged htime hcourse⟩

/-- No wait is longer than the longest. -/
lemma waits_le (h : Course p url 0 0 result before last) :
    ∀ x ∈ before, x.wait ≤ p.longestWait := by
  intro x hx
  obtain ⟨k, hk⟩ := List.mem_iff_getElem?.mp hx
  obtain ⟨error, hjudged⟩ := h.again k x hk
  exact wait_le hjudged

lemma spent_le (h : Course p url 0 0 result before last) (hlimit : last.took ≤ p.attemptLimit) :
    spent before + last.took.nanos ≤ p.timeout.nanos + p.attemptLimit.nanos := by
  refine Nat.add_le_add ?_ hlimit
  rcases Nat.eq_zero_or_pos before.length with hnone | hsome
  · rw [List.length_eq_zero_iff.mp hnone]
    exact Nat.zero_le _
  · have htime := h.inTime before.length hsome (Nat.le_refl _)
    rwa [List.take_length, Nat.zero_add] at htime

/-- A request that is settled, however patient one is, comes to attempts with a wait after each but
the last, and to nothing more. All but the last settle nothing, and the last one gives the result.
Each of the others begins in time, so attempts that keep to their limit take no longer in all than
the time for the request and the time of one attempt. -/
theorem retries_in_time (h : sendFrom t p r patience 0 0 w = (some result, v)) :
    (∀ more, sendFrom t p r (patience + more) 0 0 w = (some result, v)) ∧
      ∃ before last,
        sendFrom t.timed p r patience 0 0 (w.watched []) =
          (some result, v.watched (steps p r before last)) ∧
        Course p r.url 0 0 result before last ∧
        (∀ x ∈ before, x.wait ≤ p.longestWait) ∧
        (last.took ≤ p.attemptLimit →
          spent before + last.took.nanos ≤ p.timeout.nanos + p.attemptLimit.nanos) := by
  refine ⟨sendFrom_add h, ?_⟩
  obtain ⟨notes, hrun, hnotes⟩ := sendFrom_notes t p r patience 0 0 w []
  have hzero : UInt32.ofNat 0 = 0 := rfl
  rw [hzero, h] at hrun hnotes
  obtain ⟨before, last, rfl, hcourse⟩ := hnotes result rfl
  exact ⟨before, last, hrun, hcourse, waits_le hcourse, spent_le hcourse⟩

/-! ## A server that is busy for a while -/

def polled : Request :=
  { method := .get
    url := ⟨false, [], "jira".toList, none, "/send".toList, none, none⟩
    authorization := none
    accept := "*/*"
    agent := none
    body := none }

def busy : World Script :=
  ⟨{ origin := some polled.url.origin
     exchanges := [.answer ⟨503, [], ""⟩, .hang, .answer ⟨429, [("Retry-After", "2")], ""⟩,
       .answer ⟨200, [], "ok"⟩] }, []⟩

/-- The world when the server has answered. -/
def served : World Script :=
  (sendFrom Script.transport (.ofTimeout (.ofSeconds 60)) polled 4 0 0 busy).2

theorem retries_in_time_busy :
    served.state.clock = 23500 * nanosPerMilli ∧
      ∃ before last, Course (.ofTimeout (.ofSeconds 60)) polled.url 0 0
          (.ok ⟨200, [], "ok"⟩) before last ∧
        sendFrom Script.transport.timed (.ofTimeout (.ofSeconds 60)) polled 4 0 0
            (busy.watched []) =
          (some (.ok ⟨200, [], "ok"⟩),
            served.watched (steps (.ofTimeout (.ofSeconds 60)) polled before last)) := by
  have hsend : sendFrom Script.transport (.ofTimeout (.ofSeconds 60)) polled 4 0 0 busy =
      (some (.ok ⟨200, [], "ok"⟩), served) := Prod.ext rfl rfl
  obtain ⟨-, before, last, hrun, hcourse, -, -⟩ := retries_in_time hsend
  exact ⟨by decide +kernel, before, last, hcourse, hrun⟩

/-! ## A server that asks for too long a wait -/

/-- Too many requests, and the next one after a number of seconds that does not fit in 64 bits. -/
def overlong : Reply :=
  ⟨429, [("Retry-After", "18446744073709551616")], ""⟩

def pressed : World Script :=
  ⟨{ origin := some polled.url.origin
     exchanges := [.answer overlong, .answer ⟨200, [], "ok"⟩] }, []⟩

/-- The wait is half a second, and not the longest, which is shorter than what the server names. -/
theorem overlong_ignored :
    overlong.status = 429 ∧ overlong.Names (2 ^ 64) ∧
      min (Policy.ofTimeout (.ofSeconds 60)).longestWait.nanos (2 ^ 64 * nanosPerSecond) =
        30 * nanosPerSecond ∧
      ∃ w, sendFrom Script.transport (.ofTimeout (.ofSeconds 60)) polled 2 0 0 pressed =
          (some (.ok ⟨200, [], "ok"⟩), w) ∧
        w.state.clock = 500 * nanosPerMilli := by
  exact ⟨rfl, ⟨"18446744073709551616", _, rfl, Or.inl rfl, by decide⟩, by decide, _,
    Prod.ext rfl rfl, by decide +kernel⟩

end IssueBridge.Http
