import IssueBridge.Proofs.RetryCourse
import Mathlib.Data.Nat.Count

/-!
# The end of a request

The time for a request bounds the attempts at it, for a wait of half a second at least follows each
attempt that settles nothing. One answer is excepted: a server with too many requests may ask for
the next one at once. Such an answer costs no time of its own, so a server that gives no other one
is asked without end.
-/

namespace IssueBridge.Http

/-- A server that answers at once, one request after another from an endless list. Its state is
the number of requests that it has received. -/
def answering (answers : Nat → Reply) : Transport Nat where
  attempt _ _ := onState fun n => ((.reply (answers n), 0), n + 1)
  wait _ := return ()

lemma asks_iff {reply : Reply} {seconds : Nat} :
    reply.Asks seconds ↔ reply.status = 429 ∧
      (Policy.askedWait? reply).map Duration.nanos = some (seconds * nanosPerSecond) := by
  constructor
  · intro h
    obtain ⟨asked, hasked, hnanos⟩ := asked_of_asks h
    exact ⟨h.status, by rw [hasked, Option.map_some, hnanos]⟩
  · rintro ⟨hstatus, hmap⟩
    obtain ⟨asked, hasked, hnanos⟩ := Option.map_eq_some_iff.mp hmap
    obtain ⟨seconds', hasks, hnanos'⟩ := asks_of_asked hstatus hasked
    rw [hnanos, Nat.mul_left_inj (by decide)] at hnanos'
    rwa [hnanos']

instance (reply : Reply) (seconds : Nat) : Decidable (reply.Asks seconds) :=
  decidable_of_iff _ asks_iff.symm

/-- How many of the first answers do not ask for the next request at once. -/
def delaying (answers : Nat → Reply) (n : Nat) : Nat :=
  Nat.count (fun k => ¬(answers k).Asks 0) n

/-- The shortest wait after an answer that does not ask for the next request at once, in
nanoseconds. -/
def shortestWait : Nat :=
  500 * nanosPerMilli

/-- The attempts that the time for a request leaves room for, if a wait follows all but the last. -/
def mostAttempts (timeout : Duration) : Nat :=
  timeout.nanos / shortestWait + 1

/-- The time for a request and the longest wait fit in one duration. -/
def Roomy (timeout : Duration) : Prop :=
  timeout.nanos + (Policy.ofTimeout timeout).longestWait.nanos < Duration.limit

variable {answers : Nat → Reply} {patience made : Nat} {attempts : UInt32}
  {timeout elapsed : Duration} {r : Request} {url : Url} {reply : Reply} {log : List Event}

lemma shortestWait_le {error : String} {wait : Duration} (hasks : ¬reply.Asks 0)
    (h : Judged (.ofTimeout timeout) url attempts (.reply reply) (.again error wait)) :
    shortestWait ≤ wait.nanos := by
  have hlongest : shortestWait ≤ (Policy.ofTimeout timeout).longestWait.nanos :=
    show shortestWait ≤ 30 * nanosPerSecond by decide
  cases h with
  | again _ hdue =>
    by_cases hsome : ∃ seconds, reply.Asks seconds
    · obtain ⟨seconds, hseconds⟩ := hsome
      have hpos : 1 ≤ seconds := by
        rw [Nat.one_le_iff_ne_zero]
        rintro rfl
        exact hasks hseconds
      have hsecond : shortestWait ≤ nanosPerSecond := by decide
      rw [hdue.asked reply seconds rfl hseconds]
      refine Nat.le_min.mpr ⟨hlongest, hsecond.trans ?_⟩
      exact Nat.le_mul_of_pos_left _ hpos
    · have hwait := hdue.doubled fun other seconds ho hother => hsome ⟨seconds, by
        cases ho
        exact hother⟩
      rw [hwait]
      exact Nat.le_min.mpr ⟨hlongest, Nat.le_mul_of_pos_right _ (Nat.two_pow_pos _)⟩

lemma delaying_succ_le (answers : Nat → Reply) (n : Nat) :
    delaying answers (n + 1) ≤ delaying answers n + 1 := by
  unfold delaying
  rw [Nat.count_succ]
  split <;> omega

/-- The time that has passed pays for the shortest wait after each answer that leaves a delay. -/
lemma paid_succ {error : String} {wait : Duration}
    (h : Judged (.ofTimeout timeout) url attempts (.reply (answers made)) (.again error wait))
    (hpaid : delaying answers made * shortestWait ≤ elapsed.nanos) :
    delaying answers (made + 1) * shortestWait ≤ elapsed.nanos + wait.nanos := by
  unfold delaying at hpaid ⊢
  rw [Nat.count_succ]
  split
  · rename_i hasks
    have hwait := shortestWait_le hasks h
    rw [Nat.add_mul, Nat.one_mul]
    exact Nat.add_le_add hpaid hwait
  · exact Nat.le_add_right_of_le hpaid

/-- One attempt at a server that answers at once. -/
lemma sendFrom_answering_succ (p : Policy) (r : Request) (patience : Nat) (attempts : UInt32)
    (elapsed : Duration) (made : Nat) (log : List Event) :
    sendFrom (answering answers) p r (patience + 1) attempts elapsed ⟨made, log⟩ =
      match p.turn r.url attempts elapsed 0 (.reply (answers made)) with
      | .done result => (some result, ⟨made + 1, log⟩)
      | .again error wait due =>
        sendFrom (answering answers) p r patience (attempts + 1) due
          ⟨made + 1, log ++ [.retrying (attempts + 1) wait.millis error]⟩ := by
  rw [sendFrom]
  change (match p.turn r.url attempts elapsed 0 (.reply (answers made)) with
    | .done result => return some result
    | .again error wait due => do
      emit (.retrying (attempts + 1) wait.millis error)
      (answering answers).wait wait
      sendFrom (answering answers) p r patience (attempts + 1) due :
      Action Nat (Option (Except Cause Reply))) ⟨made + 1, log⟩ = _
  cases p.turn r.url attempts elapsed 0 (.reply (answers made)) <;> rfl

/-- Where there is room, no time is too long for a duration. -/
lemma fits_of_roomy (hroomy : Roomy timeout) (htime : elapsed ≤ timeout) {wait : Duration}
    {result : Except Cause Reply}
    (h : Concluded (.ofTimeout timeout) url attempts elapsed.nanos ⟨.reply reply, 0, wait⟩ result) :
    result ≠ .error .overflow := by
  rintro rfl
  cases h with
  | rejected hjudged => cases hjudged
  | overflowed hjudged hlong =>
    have hwait : wait.nanos ≤ (Policy.ofTimeout timeout).longestWait.nanos := wait_le hjudged
    have hsum : elapsed.nanos + wait.nanos ≤
        timeout.nanos + (Policy.ofTimeout timeout).longestWait.nanos :=
      Nat.add_le_add htime hwait
    rw [Trial.span, Duration.nanos_zero, Nat.zero_add] at hlong
    exact absurd (Nat.lt_of_le_of_lt (hlong.trans hsum) hroomy) (Nat.lt_irrefl _)

/-- A request that is not settled has used up all patience, and its waits are still in time. -/
lemma sendFrom_answering (r : Request) (patience : Nat) (attempts : UInt32) (log : List Event)
    (hpaid : delaying answers made * shortestWait ≤ elapsed.nanos) (htime : elapsed ≤ timeout) :
    ∃ settled made' log',
      sendFrom (answering answers) (.ofTimeout timeout) r patience attempts elapsed ⟨made, log⟩ =
        (settled, ⟨made', log'⟩) ∧
      delaying answers made' ≤ mostAttempts timeout ∧
      (settled = none →
        made' = made + patience ∧ delaying answers made' < mostAttempts timeout) ∧
      (Roomy timeout → settled ≠ some (.error .overflow)) := by
  have hbound : delaying answers made ≤ timeout.nanos / shortestWait :=
    (Nat.le_div_iff_mul_le (by decide)).mpr (hpaid.trans htime)
  induction patience generalizing attempts elapsed made log with
  | zero =>
    exact ⟨none, made, log, rfl, Nat.le_succ_of_le hbound,
      fun _ => ⟨rfl, Nat.lt_succ_of_le hbound⟩, fun _ => nofun⟩
  | succ patience ih =>
    have hlast : delaying answers (made + 1) ≤ mostAttempts timeout :=
      (delaying_succ_le answers made).trans (Nat.succ_le_succ hbound)
    have hturned :=
      turn_turned (.ofTimeout timeout) r.url attempts elapsed 0 (.reply (answers made))
    rw [sendFrom_answering_succ]
    generalize Policy.turn _ r.url attempts elapsed 0 (.reply (answers made)) = turn at hturned ⊢
    cases hturned with
    | done hconcluded =>
      refine ⟨_, _, _, rfl, hlast, nofun, fun hroomy hresult => ?_⟩
      exact fits_of_roomy hroomy htime hconcluded (Option.some.inj hresult)
    | @again error wait due hjudged hdue hintime =>
      rw [Duration.nanos_zero, Nat.zero_add] at hdue
      have hpaid' : delaying answers (made + 1) * shortestWait ≤ due.nanos :=
        hdue ▸ paid_succ hjudged hpaid
      have hbound' := (Nat.le_div_iff_mul_le (by decide)).mpr (hpaid'.trans hintime)
      obtain ⟨settled, made', log', hrun, hmost, hnone, hroomy⟩ := ih _ _ hpaid' hintime hbound'
      refine ⟨settled, made', log', hrun, hmost, fun h => ?_, hroomy⟩
      obtain ⟨hmade, hfewer⟩ := hnone h
      exact ⟨by omega, hfewer⟩

lemma delaying_eq (h : ∀ k, ¬(answers k).Asks 0) (n : Nat) : delaying answers n = n :=
  Nat.count_iff_forall.mpr fun k _ => h k

/-- Of the answers to a request, no more than the time allows for leave a delay, and the request is
settled when that many were given. So it comes to an end, after no more attempts than that, unless
the server asks for some of them at once. It does not end in too long a time where there is room. -/
theorem retries_end (timeout : Duration) (answers : Nat → Reply) (r : Request) (log : List Event) :
    (∀ patience, ∃ settled made log',
      sendFrom (answering answers) (.ofTimeout timeout) r patience 0 0 ⟨0, log⟩ =
        (settled, ⟨made, log'⟩) ∧
      delaying answers made ≤ mostAttempts timeout ∧
      (mostAttempts timeout ≤ delaying answers patience → ∃ result, settled = some result) ∧
      (Roomy timeout → settled ≠ some (.error .overflow))) ∧
    ((∀ k, ¬(answers k).Asks 0) → ∃ result made log',
      sendFrom (answering answers) (.ofTimeout timeout) r (mostAttempts timeout) 0 0 ⟨0, log⟩ =
        (some result, ⟨made, log'⟩) ∧
      made ≤ mostAttempts timeout ∧ (Roomy timeout → result ≠ .error .overflow)) := by
  have hpaid : delaying answers 0 * shortestWait ≤ (0 : Duration).nanos := by
    unfold delaying
    rw [Nat.count_zero, Nat.zero_mul]
    exact Nat.zero_le _
  have hruns : ∀ patience, ∃ settled made log',
      sendFrom (answering answers) (.ofTimeout timeout) r patience 0 0 ⟨0, log⟩ =
        (settled, ⟨made, log'⟩) ∧
      delaying answers made ≤ mostAttempts timeout ∧
      (mostAttempts timeout ≤ delaying answers patience → ∃ result, settled = some result) ∧
      (Roomy timeout → settled ≠ some (.error .overflow)) := by
    intro patience
    obtain ⟨settled, made, log', hrun, hmost, hnone, hroomy⟩ :=
      sendFrom_answering r patience 0 log hpaid (Nat.zero_le timeout.nanos)
    refine ⟨settled, made, log', hrun, hmost, fun henough => ?_, hroomy⟩
    cases settled with
    | some result => exact ⟨result, rfl⟩
    | none =>
      obtain ⟨hmade, hfewer⟩ := hnone rfl
      rw [hmade, Nat.zero_add] at hfewer
      exact absurd henough (Nat.not_le.mpr hfewer)
  refine ⟨hruns, fun hdelay => ?_⟩
  obtain ⟨settled, made, log', hrun, hmost, hsettled, hroomy⟩ := hruns (mostAttempts timeout)
  rw [delaying_eq hdelay] at hmost hsettled
  obtain ⟨result, rfl⟩ := hsettled (Nat.le_refl _)
  exact ⟨result, made, log', hrun, hmost, fun h heq => hroomy h (congrArg some heq)⟩

/-- Answers of a server that fails and of one that has too many requests, in turn. -/
def strained (n : Nat) : Reply :=
  if n % 2 = 0 then ⟨503, [], ""⟩ else ⟨429, [("Retry-After", "1")], ""⟩

theorem retries_end_strained :
    (∀ k, ¬(strained k).Asks 0) ∧ mostAttempts (.ofSeconds 2) = 5 ∧ Roomy (.ofSeconds 2) ∧
      ∃ result made log,
        sendFrom (answering strained) (.ofTimeout (.ofSeconds 2)) polled 5 0 0 ⟨0, []⟩ =
          (some result, ⟨made, log⟩) ∧
        made ≤ 5 ∧ result ≠ .error .overflow := by
  have hdelay : ∀ k, ¬(strained k).Asks 0 := by
    intro k
    unfold strained
    split <;> decide
  have hroomy : Roomy (.ofSeconds 2) := by
    unfold Roomy
    decide
  obtain ⟨result, made, log, hrun, hmade, hresult⟩ :=
    (retries_end (.ofSeconds 2) strained polled []).2 hdelay
  exact ⟨hdelay, by decide, hroomy, result, made, log, hrun, hmade, hresult hroomy⟩

/-! ## A server that asks for the next request at once -/

/-- Too many requests, and the next one at once. -/
def atOnce : Reply :=
  ⟨429, [("Retry-After", "0")], ""⟩

/-- After such an answer no time passes before the next attempt. -/
lemma turn_atOnce {p : Policy} (attempts : UInt32) (htime : elapsed ≤ p.timeout) :
    p.turn url attempts elapsed 0 (.reply atOnce) = .again (statusLine 429) 0 elapsed := by
  have hasked : Policy.askedWait? atOnce = some 0 := by decide
  have hmin : min 0 p.longestWait = 0 := if_pos (Nat.zero_le _)
  have hstatus : atOnce.status = 429 := rfl
  have hjudge : p.judge url attempts (.reply atOnce) = .again (statusLine 429) 0 := by
    rw [Policy.judge, Policy.judgeReply, if_neg (by decide), if_pos hstatus, hasked]
    dsimp only
    rw [hmin]
  have hsum : ((elapsed.add? 0).bind fun now => now.add? 0) = some elapsed :=
    Duration.sum_eq_some.mpr rfl
  unfold Policy.turn
  rw [hjudge]
  dsimp only
  rw [hsum]
  exact if_neg (Nat.not_lt.mpr htime)

lemma sendFrom_atOnce {p : Policy} (r : Request) (patience : Nat) (attempts : UInt32) (made : Nat)
    (log : List Event) (htime : elapsed ≤ p.timeout) :
    (sendFrom (answering fun _ => atOnce) p r patience attempts elapsed ⟨made, log⟩).1 = none := by
  induction patience generalizing attempts made log with
  | zero => rfl
  | succ patience ih =>
    rw [sendFrom_answering_succ, turn_atOnce attempts htime]
    exact ih _ _ _

/-- No number of attempts is enough for every sequence of answers. -/
theorem attempts_unbounded :
    ¬∃ most, ∀ answers : Nat → Reply, ∃ patience result made log,
      sendFrom (answering answers) (.ofTimeout (.ofSeconds 30)) polled patience 0 0 ⟨0, []⟩ =
        (some result, ⟨made, log⟩) ∧
      made ≤ most := by
  rintro ⟨most, hmost⟩
  obtain ⟨patience, result, made, log, hrun, -⟩ := hmost fun _ => atOnce
  have htime : 0 ≤ (Policy.ofTimeout (.ofSeconds 30)).timeout := Nat.zero_le _
  have hnone := sendFrom_atOnce polled patience 0 0 [] htime
  rw [hrun] at hnone
  cases hnone

end IssueBridge.Http
