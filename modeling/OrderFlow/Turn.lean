import OrderFlow.Act

/-!
# Work that proceeds by moves

A piece of work shares the order generator with others and proceeds by moves.  A
move does some acts and then goes on, waits or ends.  `Turn.poll` makes moves
until the work has to wait or ends.
-/

namespace OrderFlow

/-- Where work stands after a move. -/
inductive Progress (τ ρ : Type) where
  /-- It can go on at once. -/
  | again (state : τ)
  /-- It has to wait. -/
  | waiting (state : τ)
  /-- It ended. -/
  | ended (result : ρ)

/-- What a move, or several, came to: the generator after it, the acts done and where the
work stands. -/
structure Turn (τ ρ : Type) where
  generator : Generator
  acts : List Act
  progress : Progress τ ρ

namespace Turn

variable {τ ρ τ' ρ' : Type}

/-- A turn with its acts put after some others. -/
def after (acts : List Act) (turn : Turn τ ρ) : Turn τ ρ :=
  { turn with acts := acts ++ turn.acts }

/-- Moves until the work has to wait or ends, at most `fuel` times. -/
def poll (move : τ → Generator → Turn τ ρ) : Nat → τ → Generator → Turn τ ρ
  | 0, state, generator => ⟨generator, [], .waiting state⟩
  | fuel + 1, state, generator =>
      let turn := move state generator
      match turn.progress with
      | .again state => (poll move fuel state turn.generator).after turn.acts
      | .waiting _ => turn
      | .ended _ => turn

/-- Moves until the work ends, at most `fuel` times, as if waiting took no time. -/
def finish (move : τ → Generator → Turn τ ρ) : Nat → τ → Generator → Turn τ ρ
  | 0, state, generator => ⟨generator, [], .waiting state⟩
  | fuel + 1, state, generator =>
      let turn := move state generator
      match turn.progress with
      | .again state => (finish move fuel state turn.generator).after turn.acts
      | .waiting state => (finish move fuel state turn.generator).after turn.acts
      | .ended _ => turn

end Turn

end OrderFlow
