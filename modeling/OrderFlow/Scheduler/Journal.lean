import OrderFlow.Scheduler.Run

/-!
# Reading the journal of a run

The events that the scheduler logged and the ticks that it called are views of
the journal.
-/

namespace OrderFlow.Run

variable {σ τ ε : Type}

/-- The events that the scheduler itself logged. -/
def events (run : Run σ τ ε) : List Event :=
  run.journal.toList.filterMap fun
    | .logged event => some event
    | _ => none

/-- A tick of a run: its number, when it was called, and when and how it ended. -/
structure Row where
  tick : Nat
  start : Nat
  ending : Option (Nat × Ending)
  deriving DecidableEq

/-- The end of a tick in some entries. -/
def endOf? (tick : Nat) (entries : List (Entry ε)) : Option (Nat × Ending) :=
  entries.findSome? fun
    | .ended n now how => if n = tick then some (now, how) else none
    | _ => none

/-- The ticks called, in order. -/
def rows (run : Run σ τ ε) : List Row :=
  run.journal.toList.filterMap fun
    | .called tick now => some ⟨tick, now, endOf? tick run.journal.toList⟩
    | _ => none

end OrderFlow.Run
