import OrderFlow.Summary

/-!
# The work of ticks

What a tick does is given by a `Work`.  The scheduler only calls it once, polls
it until it has an ending, and drops it when the run is cancelled.
-/

namespace OrderFlow

/-- What a piece of a tick's work did: the shared state after it, its acts, and whether it
fired the cancellation token. -/
structure Effect (σ ε : Type) where
  shared : σ
  acts : List ε
  cancels : Bool

/-- Where a tick's work stands after a poll. -/
inductive Status (τ : Type) where
  | pending (state : τ)
  | returned (outcome : Outcome)
  | panicked (message : String)

/-- The work of ticks: `σ` is shared by all, `τ` is the state of one tick, and `ε` are the
acts worth recording. -/
structure Work (σ τ ε : Type) where
  /-- Starts the work of a tick at an instant; this may panic. -/
  call : (tick now : Nat) → σ → Effect σ ε × Except String τ
  /-- Lets the work of a tick proceed at an instant. -/
  poll : (tick now : Nat) → σ → τ → Effect σ ε × Status τ
  /-- What work that is dropped still does. -/
  drop : τ → List ε
  /-- The first instant from `now` on at which a poll can get further, if there is one. -/
  wakesAt? : (now : Nat) → τ → Option Nat

end OrderFlow
