/-!
# Outcomes of ticks and their totals

A tick ends in an `Ending`.  A `Summary` counts the ticks that were fired and
the endings that were recorded; the five totals are written in one line.
-/

namespace OrderFlow

/-- What a tick's own work reports. -/
inductive Outcome where
  /-- The whole batch was sent. -/
  | completed (sent : Nat)
  /-- The attempt failed after some lines. -/
  | failed (sent : Nat)
  /-- The work was given up. -/
  | cancelled
  deriving DecidableEq

/-- How a tick came to its end. -/
inductive Ending where
  /-- Its work reported an outcome. -/
  | returned (outcome : Outcome)
  /-- Its work panicked. -/
  | panicked (message : String)
  /-- Its work was dropped unfinished, because the run was cancelled. -/
  | dropped
  deriving DecidableEq

/-- Totals of one run. -/
structure Summary where
  ticks : Nat
  completed : Nat
  failed : Nat
  cancelled : Nat
  ordersSent : Nat
  deriving DecidableEq

namespace Summary

/-- The totals before anything happened. -/
def zero : Summary := ⟨0, 0, 0, 0, 0⟩

/-- Counts a tick that was fired. -/
def fire (summary : Summary) : Summary :=
  { summary with ticks := summary.ticks + 1 }

/-- Counts what a tick's work reported. -/
def recordOutcome (summary : Summary) : Outcome → Summary
  | .completed sent =>
      { summary with
        completed := summary.completed + 1
        ordersSent := summary.ordersSent + sent }
  | .failed sent =>
      { summary with
        failed := summary.failed + 1
        ordersSent := summary.ordersSent + sent }
  | .cancelled => { summary with cancelled := summary.cancelled + 1 }

/-- Counts the ending of a tick.  A tick that panicked loses its own batch only. -/
def record (summary : Summary) : Ending → Summary
  | .returned outcome => summary.recordOutcome outcome
  | .panicked _ => { summary with failed := summary.failed + 1 }
  | .dropped => summary.recordOutcome .cancelled

/-- The totals fit the words of 64 bits in which they are kept.  Here they are counted without a
bound, which says what the words hold as long as they fit. -/
structure Fits (summary : Summary) : Prop where
  ticks : summary.ticks < UInt64.size
  completed : summary.completed < UInt64.size
  failed : summary.failed < UInt64.size
  cancelled : summary.cancelled < UInt64.size
  ordersSent : summary.ordersSent < UInt64.size

/-- The totals in one line. -/
def text (summary : Summary) : String :=
  "ticks=" ++ toString summary.ticks ++
  " completed=" ++ toString summary.completed ++
  " failed=" ++ toString summary.failed ++
  " cancelled=" ++ toString summary.cancelled ++
  " orders_sent=" ++ toString summary.ordersSent

end Summary

end OrderFlow
