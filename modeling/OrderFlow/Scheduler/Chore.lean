import OrderFlow.Scheduler.Work

/-!
# Ticks with a known fate

A `Chore` fixes beforehand how a tick goes: how long it lasts and what comes of
it.  A `Trigger` lets ticks fire the cancellation token.  Chores share nothing
and do nothing worth recording.
-/

namespace OrderFlow

/-- What comes of a chore that is done. -/
inductive Fate where
  | returns (outcome : Outcome)
  | panics (message : String)
  deriving DecidableEq

/-- How a tick goes. -/
inductive Chore where
  /-- It lasts for some time, or for ever, before its fate is met. -/
  | lasting (nanos : Option Nat) (fate : Fate)
  /-- Its call panics. -/
  | callPanics (message : String)
  deriving DecidableEq

/-- Which ticks fire the cancellation token, if any do. -/
structure Trigger where
  /-- The tick whose call fires it. -/
  inCall : Option Nat
  /-- The tick that fires it as it ends. -/
  atEndOf : Option Nat
  deriving DecidableEq

/-- No tick fires the token. -/
def Trigger.never : Trigger := ⟨none, none⟩

namespace Chore

/-- A chore on its way: when it will be done, and its fate. -/
structure Started where
  doneAt : Option Nat
  fate : Fate
  deriving DecidableEq

/-- Where a started chore stands at an instant. -/
def Started.status (started : Started) (now : Nat) : Status Started :=
  match started.doneAt with
  | none => .pending started
  | some instant =>
      if instant ≤ now then
        match started.fate with
        | .returns outcome => .returned outcome
        | .panics message => .panicked message
      else .pending started

/-- Whether a status is final. -/
def isFinal : Status Started → Bool
  | .pending _ => false
  | _ => true

/-- The work of ticks that go as `chores` says. -/
def work (chores : Nat → Chore) (trigger : Trigger) : Work Unit Started Empty where
  call tick now _ :=
    (⟨(), [], trigger.inCall = some tick⟩,
      match chores tick with
      | .lasting nanos fate => .ok ⟨nanos.map (now + ·), fate⟩
      | .callPanics message => .error message)
  poll tick now _ started :=
    let status := started.status now
    (⟨(), [], isFinal status && decide (trigger.atEndOf = some tick)⟩, status)
  drop _ := []
  wakesAt? _ started := started.doneAt

end Chore

end OrderFlow
