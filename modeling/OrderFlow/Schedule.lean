import OrderFlow.Duration
import OrderFlow.Timer

/-!
# Schedules

A schedule says at what rate ticks fire, how many may be in flight at once and
how many there are at most.  Firing `k` is due `k` periods after the start, as the
timer paces them, whatever became of the firings before it.
-/

namespace OrderFlow

/-- When ticks are to fire, and how many at once. -/
structure Schedule where
  period : Duration
  workers : Nat
  maxTicks : Option Nat
  timer : Timer

namespace Schedule

/-- What makes a schedule impossible. -/
inductive Misuse where
  | zeroPeriod
  | emptyPool
  | poolTooLarge
  deriving DecidableEq

/-- The greatest number of permits a pool can hold. -/
def maxPermits : Nat := 2305843009213693951

/-- The wording of a misuse. -/
def Misuse.message : Misuse → String
  | .zeroPeriod => "tick period must be > 0"
  | .emptyPool => "worker pool must have at least one worker"
  | .poolTooLarge =>
      "a semaphore may not have more than MAX_PERMITS permits (" ++ toString maxPermits ++ ")"

/-- The first thing that makes a schedule impossible. -/
def misuse? (schedule : Schedule) : Option Misuse :=
  if schedule.period.nanos = 0 then some .zeroPeriod
  else if schedule.workers = 0 then some .emptyPool
  else if maxPermits < schedule.workers then some .poolTooLarge
  else none

/-- The instant at which firing `k`, counted from zero, is due in a run that began at
`origin`. -/
def dueAt (schedule : Schedule) (origin k : Nat) : Nat :=
  schedule.timer.due (origin + k * schedule.timer.pace schedule.period.nanos)

/-- Whether no tick may fire after so many. -/
def limitReached (schedule : Schedule) (ticks : Nat) : Bool :=
  match schedule.maxTicks with
  | none => false
  | some limit => limit ≤ ticks

end Schedule

end OrderFlow
