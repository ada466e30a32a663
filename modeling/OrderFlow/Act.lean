import OrderFlow.Event
import OrderFlow.Generator

/-!
# What a delivery does

An `Act` is one thing a delivery does that someone else can notice: drawing an
order, a call on its connection with the answer it got, or an event for the log.
What a connection took, was offered or saw is a view of the acts.
-/

namespace OrderFlow

/-- The answer to a call on a connection. -/
inductive Answer where
  /-- The call went through; a write took so many characters. -/
  | took (count : Nat)
  /-- Nothing could be taken. -/
  | notReady
  /-- The call failed. -/
  | failed (cause : Failure)
  deriving DecidableEq

/-- One thing a delivery does. -/
inductive Act where
  /-- An attempt to connect starts. -/
  | attempted
  /-- The connection is established. -/
  | established
  /-- An order is drawn from the generator. -/
  | drew (order : Order)
  /-- Text is offered to the connection. -/
  | wrote (offered : List Char) (answer : Answer)
  /-- The connection is flushed. -/
  | flushed (answer : Answer)
  /-- The connection is closed in good order. -/
  | closed (failure : Option Failure)
  /-- The connection is given up, whatever its state. -/
  | released
  /-- An event is logged. -/
  | logged (event : Event)
  deriving DecidableEq

namespace Act

/-- The text that a call was taken of. -/
def taken? : Act → Option (List Char)
  | .wrote offered (.took count) => some (offered.take count)
  | _ => none

/-- The text offered by a call. -/
def offered? : Act → Option (List Char)
  | .wrote offered _ => some offered
  | _ => none

/-- The order drawn. -/
def drawn? : Act → Option Order
  | .drew order => some order
  | _ => none

/-- The event logged. -/
def event? : Act → Option Event
  | .logged event => some event
  | _ => none

/-- Whether the act is a flush. -/
def isFlush : Act → Bool
  | .flushed _ => true
  | _ => false

/-- Whether the act closes the connection in good order. -/
def isClose : Act → Bool
  | .closed _ => true
  | _ => false

/-- The pieces of text that were taken, in order. -/
def pieces (acts : List Act) : List (List Char) :=
  acts.filterMap taken?

/-- The whole text that was taken. -/
def received (acts : List Act) : List Char :=
  (pieces acts).flatten

/-- The orders drawn, in order. -/
def drawn (acts : List Act) : List Order :=
  acts.filterMap drawn?

/-- The events logged, in order. -/
def events (acts : List Act) : List Event :=
  acts.filterMap event?

end Act

end OrderFlow
