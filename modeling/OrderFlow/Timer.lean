/-!
# Timers

Instants are whole nanoseconds since the clock started.  A timer wakes at an
instant of its own choice, but never before the instant it was set for, and never
later for an earlier one.  Set for firings that follow each other, it keeps a pace
between them.  An ideal timer is exact; a coarse one wakes at the multiples of its
resolution.
-/

namespace OrderFlow

/-- A timer, given by the first instant at which it wakes for what is due at an instant, and by
the time between two firings that it keeps when a period is asked for. -/
structure Timer where
  due : Nat → Nat
  le_due : ∀ instant, instant ≤ due instant
  due_mono : ∀ {a b}, a ≤ b → due a ≤ due b
  pace : Nat → Nat := id

namespace Timer

/-- Firings that are to follow each other at a period are due just that far apart. -/
def KeepsPace (timer : Timer) (period : Nat) : Prop :=
  timer.pace period = period

/-- A timer that is always exact. -/
def ideal : Timer where
  due := id
  le_due := Nat.le_refl
  due_mono := id

theorem keepsPace_ideal (period : Nat) : ideal.KeepsPace period := rfl

/-- The first multiple of a resolution from an instant on. -/
def roundUp (resolution instant : Nat) : Nat :=
  (instant + (resolution - 1)) / resolution * resolution

theorem le_roundUp {resolution : Nat} (hpos : 0 < resolution) (instant : Nat) :
    instant ≤ roundUp resolution instant := by
  have h := Nat.div_add_mod (instant + (resolution - 1)) resolution
  have hmod := Nat.mod_lt (instant + (resolution - 1)) hpos
  rw [roundUp, Nat.mul_comm]
  omega

theorem roundUp_mono (resolution : Nat) {a b : Nat} (h : a ≤ b) :
    roundUp resolution a ≤ roundUp resolution b :=
  Nat.mul_le_mul_right _ (Nat.div_le_div_right (Nat.add_le_add_right h _))

/-- A timer that wakes at the multiples of its resolution. -/
def every (resolution : Nat) (hpos : 0 < resolution) : Timer where
  due := roundUp resolution
  le_due := le_roundUp hpos
  due_mono := roundUp_mono resolution

/-- Thirty years of 365 days. -/
def thirtyYears : Nat := 30 * 365 * 24 * 60 * 60 * 1000000000

/-- The timer of a runtime that wakes at whole milliseconds and lets no two firings be more than
thirty years apart. -/
def milliseconds : Timer :=
  { every 1000000 (by decide) with pace := min thirtyYears }

/-- Such a timer keeps every pace but that of more than thirty years. -/
theorem keepsPace_milliseconds_iff {period : Nat} :
    milliseconds.KeepsPace period ↔ period ≤ thirtyYears := by
  change min thirtyYears period = period ↔ period ≤ thirtyYears
  omega

end Timer

end OrderFlow
