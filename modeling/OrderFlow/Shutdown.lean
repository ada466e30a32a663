import OrderFlow.Event

/-!
# Stopping on an interrupt

Each token listens for one interrupt.  The first interrupt after a token was made
fires it and is logged; later ones are none of its business.  A token can also
be fired by hand, which ends nothing of its listening.
-/

namespace OrderFlow

/-- A cancellation token and whether it still listens for an interrupt. -/
structure Token where
  cancelled : Bool
  listening : Bool
  deriving DecidableEq

/-- What can happen to tokens. -/
inductive Token.Step where
  /-- A token is made. -/
  | issue
  /-- The user asks to stop. -/
  | interrupt
  /-- A token is fired by hand. -/
  | cancel (index : Nat)
  deriving DecidableEq

namespace Token

/-- A token just made. -/
def fresh : Token := ⟨false, true⟩

/-- A token after an interrupt. -/
def hear (token : Token) : Token :=
  if token.listening then ⟨true, false⟩ else token

/-- The tokens after a step, in the order in which they were made, and what is logged. -/
def step (tokens : List Token) : Step → List Token × List Event
  | .issue => (tokens ++ [fresh], [])
  | .interrupt =>
      (tokens.map hear, (tokens.filter Token.listening).map fun _ => .interrupted)
  | .cancel index => (tokens.modify index fun token => { token with cancelled := true }, [])

/-- The tokens after some steps, one after the other, and all that is logged. -/
def steps : List Token → List Step → List Token × List Event
  | tokens, [] => (tokens, [])
  | tokens, next :: rest =>
      let (middle, logged) := step tokens next
      let (last, more) := steps middle rest
      (last, logged ++ more)

end Token

end OrderFlow
