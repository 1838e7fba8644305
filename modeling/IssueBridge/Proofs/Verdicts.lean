import IssueBridge.Http.Retry
import Mathlib.Algebra.Ring.Nat

/-!
# Judging an attempt

What an attempt at a request comes to. A reply of success is the result, and any other reply that
settles the request and a broken connection are the failure. After all else there is a wait: as long
as a server with too many requests asks for, or twice as long as the one before.
-/

namespace IssueBridge

namespace Decimal

lemma toUInt64?_of_digits {digits : List Char} {n : Nat} (h : toNat? digits = some n)
    (hn : n < UInt64.size) :
    toUInt64? digits = some (UInt64.ofNat n) ∧
      toUInt64? ('+' :: digits) = some (UInt64.ofNat n) := by
  -- It decides which digits are read.
  have hplus : ∀ rest, digits ≠ '+' :: rest := by
    rintro rest rfl
    simp [toNat?] at h
  constructor
  · simp only [toUInt64?, h, if_pos hn]
  · simp only [toUInt64?, h, if_pos hn]

lemma digits_of_toUInt64? {s : List Char} {u : UInt64} (h : toUInt64? s = some u) :
    ∃ digits, (s = digits ∨ s = '+' :: digits) ∧ toNat? digits = some u.toNat := by
  unfold toUInt64? at h
  dsimp only at h
  split at h
  · rename_i n hdigits
    split at h
    · rename_i hn
      have hu : u.toNat = n := by
        rw [← Option.some.inj h]
        exact UInt64.toNat_ofNat_of_lt hn
      rw [hu]
      split at hdigits
      · exact ⟨_, Or.inr rfl, hdigits⟩
      · exact ⟨_, Or.inl rfl, hdigits⟩
    · cases h
  · cases h

/-- A number that fits in 64 bits is read from its digits, which may follow a plus. -/
lemma toUInt64?_eq_some {s : List Char} {n : Nat} :
    (toUInt64? s).map UInt64.toNat = some n ↔
      n < UInt64.size ∧ ∃ digits, (s = digits ∨ s = '+' :: digits) ∧ toNat? digits = some n := by
  rw [Option.map_eq_some_iff]
  constructor
  · rintro ⟨u, hu, rfl⟩
    exact ⟨u.toNat_lt, digits_of_toUInt64? hu⟩
  · rintro ⟨hn, digits, hs, hdigits⟩
    obtain ⟨hbare, hplus⟩ := toUInt64?_of_digits hdigits hn
    refine ⟨UInt64.ofNat n, ?_, UInt64.toNat_ofNat_of_lt hn⟩
    rcases hs with rfl | rfl
    · exact hbare
    · exact hplus

end Decimal

namespace Http

/-- The client cannot tell from the outcome whether a server that is there did anything. -/
def Outcome.isUnsettled : Outcome → Bool
  | reply r => r.status == 429 || r.isServerError
  | refused | timedOut => true
  | dropped => false

/-- A header names a whole number of seconds to wait. -/
def Reply.Names (r : Reply) (seconds : Nat) : Prop :=
  ∃ value digits, r.header? "retry-after" = some value ∧
    (Text.trim value.toList = digits ∨ Text.trim value.toList = '+' :: digits) ∧
    Decimal.toNat? digits = some seconds

/-- There were too many requests, and the next one is to wait for some seconds, whose number fits in
64 bits. -/
structure Reply.Asks (r : Reply) (seconds : Nat) : Prop where
  status : r.status = 429
  fits : seconds < UInt64.size
  named : r.Names seconds

/-- The words for an outcome that settles nothing. -/
def Outcome.complaint (url : Url) : Outcome → String
  | reply r =>
    if r.status = 429 then statusLine 429 else statusLine r.status ++ ": " ++ r.body.shown
  | refused | timedOut | dropped => Policy.unanswered url

/-- The wait after an outcome that settles nothing, where there were some waits before. -/
structure Due (p : Policy) (waits : UInt32) (o : Outcome) (wait : Duration) : Prop where
  asked : ∀ reply seconds, o = .reply reply → reply.Asks seconds →
    wait.nanos = min p.longestWait.nanos (seconds * nanosPerSecond)
  doubled : (∀ reply seconds, o = .reply reply → ¬reply.Asks seconds) →
    wait.nanos = min p.longestWait.nanos (p.firstWait.nanos * 2 ^ min waits.toNat 16)

/-- What an attempt comes to by its outcome, where there were some waits before. -/
inductive Judged (p : Policy) (url : Url) (waits : UInt32) : Outcome → Policy.Verdict → Prop
  | accepted {reply : Reply} (h : reply.isSuccess = true) :
    Judged p url waits (.reply reply) (.accept reply)
  | rejected {reply : Reply} (hsuccess : reply.isSuccess = false)
      (hunsettled : (Outcome.reply reply).isUnsettled = false) :
    Judged p url waits (.reply reply) (.reject (.status (statusLine reply.status) reply.body.shown))
  | broken : Judged p url waits .dropped (.reject .requestFailed)
  | again {o : Outcome} {wait : Duration} (h : o.isUnsettled = true) (hdue : Due p waits o wait) :
    Judged p url waits o (.again (o.complaint url) wait)

/-- An attempt: what became of it, the time it took, and the wait after it. -/
structure Trial where
  outcome : Outcome
  took : Duration
  wait : Duration

/-- The time of an attempt and of the wait after it, in nanoseconds. -/
def Trial.span (x : Trial) : Nat :=
  x.took.nanos + x.wait.nanos

/-- The result of a request by its last attempt, where there were some attempts and some time passed
before. -/
inductive Concluded (p : Policy) (url : Url) (attempts : UInt32) (elapsed : Nat) (x : Trial) :
    Except Cause Reply → Prop
  | accepted {reply : Reply} (h : Judged p url attempts x.outcome (.accept reply)) :
    Concluded p url attempts elapsed x (.ok reply)
  | rejected {cause : Cause} (h : Judged p url attempts x.outcome (.reject cause)) :
    Concluded p url attempts elapsed x (.error cause)
  | exhausted {error : String} (h : Judged p url attempts x.outcome (.again error x.wait))
      (hlate : p.timeout.nanos < elapsed + x.span) (hfits : elapsed + x.span < Duration.limit) :
    Concluded p url attempts elapsed x (.error (.retriesExhausted (attempts + 1) error))
  | overflowed {error : String} (h : Judged p url attempts x.outcome (.again error x.wait))
      (hlong : Duration.limit ≤ elapsed + x.span) :
    Concluded p url attempts elapsed x (.error .overflow)

variable {p : Policy} {url : Url} {waits : UInt32} {o : Outcome} {reply : Reply}

lemma toNat_growth (waits : UInt32) : (Policy.growth waits).toNat = 2 ^ min waits.toNat 16 := by
  have hmin : (min waits 16).toNat = min waits.toNat 16 := by
    have hif : min waits 16 = if waits ≤ 16 then waits else 16 := rfl
    rw [hif, apply_ite UInt32.toNat]
    exact (Nat.min_def ..).symm
  have hsmall : min waits.toNat 16 ≤ 16 := Nat.min_le_right _ _
  have hplaces : min waits 16 < 32 := by
    rw [UInt32.lt_iff_toNat_lt, hmin]
    exact Nat.lt_of_le_of_lt hsmall (by decide)
  have hpow : 2 ^ min waits.toNat 16 < 2 ^ 32 := Nat.pow_lt_pow_right (by decide) (by omega)
  unfold Policy.growth Policy.shiftLeft?
  rw [if_pos hplaces, Option.getD_some, UInt32.toNat_shiftLeft, hmin,
    Nat.mod_eq_of_lt (show min waits.toNat 16 < 32 by omega), UInt32.toNat_one, Nat.one_shiftLeft,
    Nat.mod_eq_of_lt hpow]

lemma asked_of_asks {seconds : Nat} (h : reply.Asks seconds) :
    ∃ asked, Policy.askedWait? reply = some asked ∧ asked.nanos = seconds * nanosPerSecond := by
  obtain ⟨-, hfits, value, digits, hvalue, htext⟩ := h
  obtain ⟨u, hu, rfl⟩ := Option.map_eq_some_iff.mp
    (Decimal.toUInt64?_eq_some.mpr ⟨hfits, digits, htext⟩)
  refine ⟨.ofSeconds u, ?_, rfl⟩
  unfold Policy.askedWait?
  rw [hvalue, Option.bind_some, hu, Option.map_some]

lemma asks_of_asked (hstatus : reply.status = 429) {asked : Duration}
    (h : Policy.askedWait? reply = some asked) :
    ∃ seconds, reply.Asks seconds ∧ asked.nanos = seconds * nanosPerSecond := by
  obtain ⟨value, hvalue, hread⟩ := Option.bind_eq_some_iff.mp h
  obtain ⟨u, hu, rfl⟩ := Option.map_eq_some_iff.mp hread
  obtain ⟨hfits, digits, htext⟩ :=
    Decimal.toUInt64?_eq_some.mp (Option.map_eq_some_iff.mpr ⟨u, hu, rfl⟩)
  exact ⟨u.toNat, ⟨hstatus, hfits, value, digits, hvalue, htext⟩, rfl⟩

lemma due_pause (p : Policy) (waits : UInt32)
    (h : ∀ reply seconds, o = .reply reply → ¬reply.Asks seconds) :
    Due p waits o (p.pause waits) := by
  refine ⟨fun reply seconds ho hasks => absurd hasks (h reply seconds ho), fun _ => ?_⟩
  unfold Policy.pause
  rw [Duration.nanos_min_mulSaturating, toNat_growth]

/-- The wait after a reply that there were too many requests. -/
lemma due_busy (p : Policy) (waits : UInt32) (hstatus : reply.status = 429) :
    Due p waits (.reply reply) (match Policy.askedWait? reply with
      | some asked => min asked p.longestWait
      | none => p.pause waits) := by
  cases hasked : Policy.askedWait? reply with
  | some asked =>
    obtain ⟨seconds, hasks, -⟩ := asks_of_asked hstatus hasked
    refine ⟨fun other seconds' ho hother => ?_, fun hnone => absurd hasks (hnone _ _ rfl)⟩
    cases ho
    obtain ⟨asked', hasked', hnanos⟩ := asked_of_asks hother
    rw [hasked, Option.some.injEq] at hasked'
    rw [Duration.nanos_min, hasked', hnanos, Nat.min_comm]
  | none =>
    refine due_pause p waits fun other seconds ho hother => ?_
    cases ho
    obtain ⟨asked, hasked', -⟩ := asked_of_asks hother
    rw [hasked] at hasked'
    cases hasked'

lemma judgeReply_judged (p : Policy) (url : Url) (waits : UInt32) (reply : Reply) :
    Judged p url waits (.reply reply) (p.judgeReply waits reply) := by
  unfold Policy.judgeReply
  by_cases hsuccess : reply.isSuccess = true
  · rw [if_pos hsuccess]
    exact .accepted hsuccess
  · rw [if_neg hsuccess]
    by_cases hstatus : reply.status = 429
    · have hunsettled : (Outcome.reply reply).isUnsettled = true := by
        simp [Outcome.isUnsettled, hstatus]
      have hcomplaint : statusLine 429 = (Outcome.reply reply).complaint url :=
        (if_pos hstatus).symm
      rw [if_pos hstatus, hcomplaint]
      exact .again hunsettled (due_busy p waits hstatus)
    · rw [if_neg hstatus]
      have hpause : Due p waits (.reply reply) (p.pause waits) := by
        refine due_pause p waits fun other seconds ho hasks => hstatus ?_
        cases ho
        exact hasks.status
      by_cases hserver : reply.isServerError = true
      · have hunsettled : (Outcome.reply reply).isUnsettled = true := by
          simp [Outcome.isUnsettled, hserver]
        have hcomplaint : statusLine reply.status ++ ": " ++ reply.body.shown =
            (Outcome.reply reply).complaint url := (if_neg hstatus).symm
        rw [if_pos hserver, hcomplaint]
        exact .again hunsettled hpause
      · rw [if_neg hserver]
        refine .rejected (Bool.eq_false_iff.mpr hsuccess) ?_
        simp [Outcome.isUnsettled, hstatus, hserver]

lemma judge_judged (p : Policy) (url : Url) (waits : UInt32) (o : Outcome) :
    Judged p url waits o (p.judge url waits o) := by
  cases o with
  | reply reply => exact judgeReply_judged p url waits reply
  | refused => exact .again rfl (due_pause p waits nofun)
  | timedOut => exact .again rfl (due_pause p waits nofun)
  | dropped => exact .broken

lemma due_le {wait : Duration} (h : Due p waits o wait) : wait.nanos ≤ p.longestWait.nanos := by
  by_cases hasks : ∃ reply seconds, o = .reply reply ∧ reply.Asks seconds
  · obtain ⟨reply, seconds, ho, hasks⟩ := hasks
    rw [h.asked reply seconds ho hasks]
    exact Nat.min_le_left _ _
  · rw [h.doubled fun reply seconds ho hreply => hasks ⟨reply, seconds, ho, hreply⟩]
    exact Nat.min_le_left _ _

lemma wait_le {error : String} {wait : Duration} (h : Judged p url waits o (.again error wait)) :
    wait.nanos ≤ p.longestWait.nanos := by
  cases h with
  | again _ hdue => exact due_le hdue

/-! ## Turns -/

/-- What comes after an attempt, where there were some attempts and some time passed before. -/
inductive Turned (p : Policy) (url : Url) (attempts : UInt32) (elapsed took : Duration)
    (o : Outcome) : Policy.Turn → Prop
  | done {result : Except Cause Reply} {wait : Duration}
      (h : Concluded p url attempts elapsed.nanos ⟨o, took, wait⟩ result) :
    Turned p url attempts elapsed took o (.done result)
  | again {error : String} {wait due : Duration}
      (hjudged : Judged p url attempts o (.again error wait))
      (hdue : elapsed.nanos + (took.nanos + wait.nanos) = due.nanos)
      (htime : due.nanos ≤ p.timeout.nanos) :
    Turned p url attempts elapsed took o (.again error wait due)

lemma turn_turned (p : Policy) (url : Url) (attempts : UInt32) (elapsed took : Duration)
    (o : Outcome) :
    Turned p url attempts elapsed took o (p.turn url attempts elapsed took o) := by
  have hjudged := judge_judged p url attempts o
  unfold Policy.turn
  generalize p.judge url attempts o = verdict at hjudged ⊢
  cases verdict with
  | accept reply =>
    have hconcluded : Concluded p url attempts elapsed.nanos ⟨o, took, 0⟩ (.ok reply) :=
      .accepted hjudged
    exact .done hconcluded
  | reject cause =>
    have hconcluded : Concluded p url attempts elapsed.nanos ⟨o, took, 0⟩ (.error cause) :=
      .rejected hjudged
    exact .done hconcluded
  | again error wait =>
    dsimp only
    cases hsum : (elapsed.add? took).bind fun now => now.add? wait with
    | none =>
      have hlong := Duration.sum_eq_none.mp hsum
      rw [Nat.add_assoc] at hlong
      exact .done (.overflowed hjudged hlong)
    | some due =>
      have hdue := Duration.sum_eq_some.mp hsum
      rw [Nat.add_assoc] at hdue
      dsimp only
      split
      · rename_i hlate
        exact .done (.exhausted hjudged (hdue.symm ▸ hlate) (hdue.symm ▸ due.fits))
      · rename_i hintime
        exact .again hjudged hdue (Nat.not_lt.mp hintime)

/-- A request that succeeds comes to the reply of its last attempt. -/
lemma reply_of_concluded {x : Trial} {attempts : UInt32} {elapsed : Nat}
    (h : Concluded p url attempts elapsed x (.ok reply)) :
    x.outcome = .reply reply ∧ reply.isSuccess = true := by
  cases h with
  | accepted hjudged =>
    rcases x with ⟨o, took, wait⟩
    cases hjudged with
    | accepted hsuccess => exact ⟨rfl, hsuccess⟩

end Http

end IssueBridge
