import Mathlib.Data.Int.Notation
import Mathlib.Tactic.Common

/-! Instants and durations. A duration is a wrapping 64-bit count of nanoseconds; an instant is the
number of nanoseconds since the zero time, which no clock reads before. -/
namespace Quickspin
set_option autoImplicit false

abbrev Duration := Int64

namespace Duration

def second : Duration := 1000000000
def minute : Duration := 60 * second
def hour : Duration := 60 * minute

end Duration

abbrev Time := ℕ

namespace Time

def isZero (t : Time) : Bool := t == 0

def add (t : Time) (d : Duration) : Time := ((t : ℤ) + d.toInt).toNat

/-- `CURRENT_TIMESTAMP`: the database's clock reads whole seconds. -/
def currentTimestamp (clock : Time) : Time := clock / 1000000000 * 1000000000

theorem add_toInt (t : Time) {d : Duration} (h : 0 ≤ d.toInt) : ((t.add d : ℕ) : ℤ) = (t : ℕ) + d.toInt :=
  Int.toNat_of_nonneg (Int.add_nonneg (Int.natCast_nonneg t) h)

theorem add_ne_zero (t : Time) {d : Duration} (h : 0 < d.toInt) : t.add d ≠ 0 := fun he => by
  have hsum := add_toInt t (Int.le_of_lt h)
  rw [he] at hsum
  omega

/-- `t.After(u)` -/
def after (t u : Time) : Bool := u < t

end Time
end Quickspin
