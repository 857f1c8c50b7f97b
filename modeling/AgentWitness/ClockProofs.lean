import Mathlib.Algebra.Order.Ring.Nat

/-! # Clock readings and checked addition

    A duration is an unsigned 64-bit count of seconds and the nanoseconds of the second
    that has begun; a reading of a clock is a SIGNED 64-bit count of seconds with the
    same fraction.  A duration is added to a reading part by part, with a carry from the
    nanoseconds, and the sum is given up when its seconds leave their range.

    Both denote a number of nanoseconds.  The sum exists exactly when the sum of the
    numbers is REPRESENTABLE, and then denotes it, so a user of checked addition never
    looks at the parts. -/

namespace Clock

/-- `std::time::Duration`. -/
structure Duration where
  secs : Nat
  nanos : Nat
  secs_lt : secs < 2 ^ 64
  nanos_lt : nanos < 1000000000
  deriving DecidableEq

def Duration.is_zero (d : Duration) : Bool := d.secs = 0 ∧ d.nanos = 0

def Duration.as_nanos (d : Duration) : Nat := d.secs * 1000000000 + d.nanos

/-- A reading of a clock, as the standard library keeps it on Unix. -/
structure Timespec where
  tv_sec : Int
  tv_nsec : Nat
  sec_ge : -2 ^ 63 ≤ tv_sec
  sec_lt : tv_sec < 2 ^ 63
  nsec_lt : tv_nsec < 1000000000
  deriving DecidableEq

/-- The nanoseconds a reading lies after the epoch of its clock. -/
def Timespec.nanos (t : Timespec) : Int := t.tv_sec * 1000000000 + t.tv_nsec

/-- The reading at the epoch. -/
def Timespec.zero : Timespec where
  tv_sec := 0
  tv_nsec := 0
  sec_ge := by decide
  sec_lt := by decide
  nsec_lt := by decide

/-- `Timespec::checked_add_duration`.  The seconds never fall below their range. -/
def Timespec.checked_add_duration (t : Timespec) (d : Duration) : Option Timespec :=
  if hsecs : t.tv_sec + d.secs < 2 ^ 63 then
    if hcarry : 1000000000 ≤ t.tv_nsec + d.nanos then
      if hnext : t.tv_sec + d.secs + 1 < 2 ^ 63 then
        some
          { tv_sec := t.tv_sec + d.secs + 1
            tv_nsec := t.tv_nsec + d.nanos - 1000000000
            sec_ge := by have := t.sec_ge; omega
            sec_lt := hnext
            nsec_lt := by have := t.nsec_lt; have := d.nanos_lt; omega }
      else none
    else
      some
        { tv_sec := t.tv_sec + d.secs
          tv_nsec := t.tv_nsec + d.nanos
          sec_ge := by have := t.sec_ge; omega
          sec_lt := hsecs
          nsec_lt := by omega }
  else none

/-- The numbers of nanoseconds below the end of a clock's range. -/
def Representable (nanos : Int) : Prop := nanos < 2 ^ 63 * 1000000000

instance (nanos : Int) : Decidable (Representable nanos) := inferInstanceAs (Decidable (_ < _))

/-- A sum that exists denotes the sum of the numbers. -/
theorem nanos_checked_add {t u : Timespec} {d : Duration}
    (h : t.checked_add_duration d = some u) : u.nanos = t.nanos + d.as_nanos := by
  rw [Timespec.checked_add_duration] at h
  split at h
  · split at h
    · split at h
      · obtain rfl := Option.some.inj h
        simp only [Timespec.nanos, Duration.as_nanos]
        omega
      · cases h
    · obtain rfl := Option.some.inj h
      simp only [Timespec.nanos, Duration.as_nanos]
      omega
  · cases h

/-- **Overflow**: a sum exists exactly when the clock can represent it. -/
theorem checked_add_isSome (t : Timespec) (d : Duration) :
    (t.checked_add_duration d).isSome = true ↔ Representable (t.nanos + d.as_nanos) := by
  have ht := t.nsec_lt
  have hd := d.nanos_lt
  rw [Timespec.checked_add_duration, Representable, Timespec.nanos, Duration.as_nanos]
  split
  · split
    · split
      · refine iff_of_true rfl ?_
        omega
      · refine iff_of_false Bool.false_ne_true ?_
        omega
    · refine iff_of_true rfl ?_
      omega
  · refine iff_of_false Bool.false_ne_true ?_
    omega

theorem checked_add_of_representable {t : Timespec} {d : Duration}
    (h : Representable (t.nanos + d.as_nanos)) :
    ∃ u, t.checked_add_duration d = some u ∧ u.nanos = t.nanos + d.as_nanos := by
  obtain ⟨u, hu⟩ := Option.isSome_iff_exists.mp ((checked_add_isSome t d).mpr h)
  exact ⟨u, hu, nanos_checked_add hu⟩

/-- Only the zero duration takes no time. -/
theorem as_nanos_pos {d : Duration} (h : d.is_zero = false) : 0 < d.as_nanos := by
  rw [Duration.is_zero, decide_eq_false_iff_not] at h
  rw [Duration.as_nanos]
  omega

end Clock
