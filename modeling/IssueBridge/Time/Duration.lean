import IssueBridge.Time.Instant

/-!
# Durations

Lengths of time in nanoseconds. Their whole seconds fit in 64 bits, so two of them may add up to
more than a duration holds.
-/

namespace IssueBridge

def nanosPerMilli : Nat :=
  1000000

/-- The nanoseconds that no duration reaches. -/
def Duration.limit : Nat :=
  UInt64.size * nanosPerSecond

/-- A length of time. -/
structure Duration where
  nanos : Nat
  fits : nanos < Duration.limit
  deriving DecidableEq

namespace Duration

instance : Zero Duration :=
  ⟨⟨0, by decide⟩⟩

instance : Inhabited Duration :=
  ⟨0⟩

instance : LE Duration :=
  ⟨fun d e => d.nanos ≤ e.nanos⟩

instance : LT Duration :=
  ⟨fun d e => d.nanos < e.nanos⟩

instance (d e : Duration) : Decidable (d ≤ e) :=
  Nat.decLe d.nanos e.nanos

instance (d e : Duration) : Decidable (d < e) :=
  Nat.decLt d.nanos e.nanos

instance : Min Duration :=
  minOfLe

instance : Max Duration :=
  maxOfLe

/-- So many nanoseconds, unless they are too many. -/
def ofNanos? (n : Nat) : Option Duration :=
  if h : n < limit then some ⟨n, h⟩ else none

/-- So many nanoseconds, or the longest duration if they are too many. -/
def saturating (n : Nat) : Duration :=
  ⟨min n (limit - 1), Nat.lt_of_le_of_lt (Nat.min_le_right n _) (Nat.sub_one_lt (by decide))⟩

def ofSeconds (n : UInt64) : Duration :=
  ⟨n.toNat * nanosPerSecond, Nat.mul_lt_mul_of_pos_right n.toNat_lt (by decide)⟩

def ofMillis (n : UInt64) : Duration :=
  ⟨n.toNat * nanosPerMilli,
    Nat.mul_lt_mul_of_lt_of_le n.toNat_lt (by decide) (by decide)⟩

/-- The sum, unless it is too long. -/
def add? (d e : Duration) : Option Duration :=
  ofNanos? (d.nanos + e.nanos)

/-- The product, or the longest duration if it is too long. -/
def mulSaturating (d : Duration) (n : UInt32) : Duration :=
  saturating (d.nanos * n.toNat)

/-- The quotient, rounded down. -/
def div (d : Duration) (n : UInt32) : Duration :=
  ⟨d.nanos / n.toNat, Nat.lt_of_le_of_lt (Nat.div_le_self _ _) d.fits⟩

/-- The whole milliseconds, of which 64 bits are kept. -/
def millis (d : Duration) : UInt64 :=
  UInt64.ofNat (d.nanos / nanosPerMilli)

@[simp]
theorem nanos_zero : (0 : Duration).nanos = 0 :=
  rfl

theorem nanos_min (d e : Duration) : (min d e).nanos = min d.nanos e.nanos := by
  have hmin : min d e = if d.nanos ≤ e.nanos then d else e := rfl
  rw [hmin, apply_ite nanos]
  exact (Nat.min_def ..).symm

/-- A product that is too long does not show beside a duration that is shorter. -/
theorem nanos_min_mulSaturating (d e : Duration) (n : UInt32) :
    (min (d.mulSaturating n) e).nanos = min e.nanos (d.nanos * n.toNat) := by
  have hfits := e.fits
  rw [nanos_min]
  unfold mulSaturating saturating
  dsimp only
  omega

theorem ofNanos?_eq_some {n : Nat} {d : Duration} : ofNanos? n = some d ↔ n = d.nanos := by
  unfold ofNanos?
  constructor
  · intro h
    split at h
    · rw [← Option.some.inj h]
    · cases h
  · rintro rfl
    rw [dif_pos d.fits]

/-- Three durations that fit add up to their nanoseconds. -/
theorem sum_eq_some {d e f sum : Duration} :
    ((d.add? e).bind fun both => both.add? f) = some sum ↔
      d.nanos + e.nanos + f.nanos = sum.nanos := by
  rw [Option.bind_eq_some_iff]
  unfold add?
  constructor
  · rintro ⟨both, hboth, hsum⟩
    rw [ofNanos?_eq_some.mp hboth, ofNanos?_eq_some.mp hsum]
  · intro h
    have hfits : d.nanos + e.nanos < limit :=
      Nat.lt_of_le_of_lt (Nat.le_add_right _ _) (h.symm ▸ sum.fits)
    exact ⟨⟨_, hfits⟩, ofNanos?_eq_some.mpr rfl, ofNanos?_eq_some.mpr h⟩

theorem sum_eq_none {d e f : Duration} :
    ((d.add? e).bind fun both => both.add? f) = none ↔
      limit ≤ d.nanos + e.nanos + f.nanos := by
  rw [Option.eq_none_iff_forall_ne_some]
  constructor
  · intro h
    exact Nat.le_of_not_lt fun hless => h ⟨_, hless⟩ (sum_eq_some.mpr rfl)
  · intro h sum hsum
    have hfits := sum.fits
    rw [← sum_eq_some.mp hsum] at hfits
    exact absurd h (Nat.not_le.mpr hfits)

end Duration

end IssueBridge
