import Mathlib.Algebra.Group.Int.Defs
import Mathlib.Algebra.Group.Nat.Defs
import Mathlib.Data.Int.Basic
import Mathlib.Order.Basic

/-!
# `std::time`: durations and instants with their bounds

A `Duration` holds whole seconds in a `u64` and nanoseconds below a second, an
`Instant` seconds in an `i64` and nanoseconds; here each is its number of
nanoseconds with the bound that the representation puts on it. The saturating
operations stay in range by definition; `Instant + Duration` is `checkedAdd?`,
which is `none` where `std` panics.
-/

namespace Rust

/-- Nanoseconds in a second. -/
def nanosPerSec : Nat := 1000000000

/-- One more than the nanoseconds of `Duration::MAX`. -/
def durationLimit : Nat := 2 ^ 64 * nanosPerSec

/-- `std::time::Duration`. -/
@[ext] structure Duration where
  nanos : Nat
  lt_limit : nanos < durationLimit
  deriving DecidableEq

namespace Duration

/-- `Duration::ZERO`. -/
def zero : Duration := ⟨0, by decide⟩

/-- `Duration::MAX`. -/
def max : Duration := ⟨durationLimit - 1, by decide⟩

/-- The duration of `n` nanoseconds, or the longest there is. -/
def saturating (n : Nat) : Duration :=
  if h : n < durationLimit then ⟨n, h⟩ else max

/-- `Duration::from_millis`, for a constant. -/
def fromMillis (n : Nat) : Duration := saturating (n * 1000000)

/-- `Duration::from_secs`, for a constant. -/
def fromSecs (n : Nat) : Duration := saturating (n * nanosPerSec)

/-- `Duration::saturating_sub`. -/
def saturatingSub (a b : Duration) : Duration :=
  ⟨a.nanos - b.nanos, Nat.lt_of_le_of_lt (Nat.sub_le _ _) a.lt_limit⟩

/-- `Duration::saturating_mul`. -/
def saturatingMul (a : Duration) (k : Nat) : Duration := saturating (a.nanos * k)

/-- `Ord::min`. -/
def min (a b : Duration) : Duration := if a.nanos ≤ b.nanos then a else b

/-- `Duration::is_zero`. -/
def isZero (a : Duration) : Bool := a.nanos = 0

/-- `Duration::as_millis`. -/
def asMillis (a : Duration) : Nat := a.nanos / 1000000

@[simp] theorem nanos_saturatingSub (a b : Duration) :
    (a.saturatingSub b).nanos = a.nanos - b.nanos := rfl

theorem isZero_iff (a : Duration) : a.isZero = true ↔ a.nanos = 0 := by
  simp [isZero]

/-- Twice as long, or as long as can be, is not shorter. -/
theorem le_saturatingMul (a : Duration) : a.nanos ≤ (a.saturatingMul 2).nanos := by
  have hlt := a.lt_limit
  unfold saturatingMul saturating
  split
  next => exact Nat.le_mul_of_pos_right _ Nat.two_pos
  next => exact Nat.le_sub_one_of_lt hlt

end Duration

/-- One more than the nanoseconds of the latest `Instant`. -/
def instantLimit : Int := 2 ^ 63 * nanosPerSec

/-- `std::time::Instant`. -/
@[ext] structure Instant where
  nanos : Int
  ge_limit : -instantLimit ≤ nanos
  lt_limit : nanos < instantLimit
  deriving DecidableEq

namespace Instant

/-- The origin of the clock. -/
def zero : Instant := ⟨0, by decide, by decide⟩

/-- `Instant::checked_add`: what `+` gives, unless it panics. -/
def checkedAdd? (t : Instant) (d : Duration) : Option Instant :=
  if h : t.nanos + d.nanos < instantLimit then
    some ⟨t.nanos + d.nanos, by have := t.ge_limit; omega, h⟩
  else none

/-- `Instant::saturating_duration_since`. -/
def durationSince (t earlier : Instant) : Duration :=
  ⟨(t.nanos - earlier.nanos).toNat, by
    have ht := t.lt_limit
    have he := earlier.ge_limit
    simp only [instantLimit, durationLimit, nanosPerSec] at *
    omega⟩

/-- `t < u`. -/
def before (t u : Instant) : Bool := t.nanos < u.nanos

theorem nanos_durationSince (t earlier : Instant) :
    (t.durationSince earlier).nanos = (t.nanos - earlier.nanos).toNat := rfl

theorem before_iff (t u : Instant) : t.before u = true ↔ t.nanos < u.nanos := by
  simp [before]

end Instant

end Rust
