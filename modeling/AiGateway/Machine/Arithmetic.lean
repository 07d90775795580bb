import Mathlib.Algebra.Group.Nat.Defs
import Mathlib.Data.Int.ConditionallyCompleteOrder
import Mathlib.Order.Interval.Set.Defs

/-! Times and durations in nanoseconds since the epoch, times cut to whole microseconds, and
checked 64-bit arithmetic: an operation that would leave its machine range gives `none`, so a
computation that never fails is one in which wrapping and exact arithmetic agree. -/
namespace Machine

abbrev Time := ℤ

/-- The zero value of a time: the first of January of the year 1. -/
def zeroTime : Time := -62135596800000000000

def microsecond : ℤ := 1000

def millisecond : ℤ := 1000000

def second : ℤ := 1000000000

def toMicrosecond (t : ℤ) : ℤ := t / 1000 * 1000

theorem toMicrosecond_mono {a b : ℤ} (hab : a ≤ b) : toMicrosecond a ≤ toMicrosecond b := by
  have hdiv : a / 1000 ≤ b / 1000 := Int.ediv_le_ediv (by decide) hab
  unfold toMicrosecond
  omega

theorem toMicrosecond_lt_add (t : ℤ) : toMicrosecond t < toMicrosecond (t + microsecond) := by
  unfold toMicrosecond microsecond
  omega

theorem toMicrosecond_toMicrosecond (t : ℤ) :
    toMicrosecond (toMicrosecond t) = toMicrosecond t := by
  unfold toMicrosecond
  omega

def addU64 (a b : ℕ) : Option ℕ := if a + b < 2 ^ 64 then some (a + b) else none

def subU64 (a b : ℕ) : Option ℕ := if b ≤ a then some (a - b) else none

/-- The value of a signed 64-bit operation whose exact result is `z`. -/
def int64 (z : ℤ) : Option ℤ := if -2 ^ 63 ≤ z ∧ z < 2 ^ 63 then some z else none

theorem addU64_eq {a b : ℕ} (h : a + b < 2 ^ 64) : addU64 a b = some (a + b) := if_pos h

theorem subU64_eq {a b : ℕ} (h : b ≤ a) : subU64 a b = some (a - b) := if_pos h

theorem int64_eq {z : ℤ} (h₁ : -2 ^ 63 ≤ z) (h₂ : z < 2 ^ 63) : int64 z = some z :=
  if_pos ⟨h₁,h₂⟩

theorem int64_eq_some {z y : ℤ} (h : int64 z = some y) : y = z := by
  unfold int64 at h
  split_ifs at h
  exact (Option.some.inj h).symm

/-- An unsigned 64-bit result, wrapped. -/
def wrapU64 (n : ℕ) : ℕ := n % 2 ^ 64

theorem wrapU64_eq {n : ℕ} (h : n < 2 ^ 64) : wrapU64 n = n := Nat.mod_eq_of_lt h

end Machine
