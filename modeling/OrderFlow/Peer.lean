import OrderFlow.Failure
import OrderFlow.Numeral

/-!
# The other side of a connection

A `Peer` is everything that the other side of a connection does: how the attempt
to connect ends, how it meets each write and each flush, and how closing ends.
Writes and flushes follow a `Script`, a finite list of replies after which every
call succeeds in full.
-/

namespace OrderFlow

/-- How the other side meets one call on a connection. -/
inductive Reply where
  /-- Everything offered is taken. -/
  | takesAll
  /-- At most so many characters are taken. -/
  | takes (count : Nat)
  /-- Nothing can be taken right now. -/
  | notReady
  /-- Nothing is ever taken again. -/
  | stalls
  /-- The call fails. -/
  | fails (cause : Failure)
  deriving DecidableEq

/-- Replies in order, each with the number of calls it is given to.  A call after the last
reply is met in full. -/
abbrev Script := List (Nat × Reply)

namespace Script

/-- The reply to the next call, and the script after it. -/
def next : Script → Reply × Script
  | [] => (.takesAll, [])
  | (0, _) :: rest => next rest
  | (n + 1, .stalls) :: rest => (.stalls, (n + 1, .stalls) :: rest)
  | (n + 1, reply) :: rest => (reply, (n, reply) :: rest)

/-- The number of calls a script is for. -/
def calls : Script → Nat
  | [] => 0
  | (n, _) :: rest => n + calls rest

end Script

/-- How an attempt to connect ends. -/
inductive Connecting where
  /-- The connection is established after a delay. -/
  | accepts (delay : Nat)
  /-- The attempt fails after a delay. -/
  | fails (delay : Nat) (cause : Failure)
  /-- The attempt never ends by itself. -/
  | hangs
  deriving DecidableEq

/-- The answer to an attempt to connect, with the delay after which it comes. -/
def Connecting.answer? : Connecting → Option (Nat × Except Failure Unit)
  | .accepts delay => some (delay, .ok ())
  | .fails delay cause => some (delay, .error cause)
  | .hangs => none

/-- The other side of one connection. -/
structure Peer where
  connecting : Connecting
  writes : Script
  flushes : Script
  /-- The failure of closing the connection, if closing fails. -/
  closing : Option Failure

namespace Peer

/-- An engine that accepts at once and takes whatever is sent. -/
def engine : Peer := ⟨.accepts 0, [], [], none⟩

/-- An engine that takes so many writes whole and fails all later ones.  A write that fails
ends the batch, so one failing reply is enough. -/
def engineFailingAfter (writes : Nat) (cause : Failure) : Peer :=
  { engine with writes := [(writes, .takesAll), (1, .fails cause)] }

/-- An attempt to connect that fails at once. -/
def refusing (cause : Failure) : Peer := ⟨.fails 0 cause, [], [], none⟩

/-- An attempt to connect that never ends. -/
def hanging : Peer := ⟨.hangs, [], [], none⟩

/-- The part of a target after its last colon and the part before it. -/
def splitTarget? (target : List Char) : Option (List Char × List Char) :=
  let port := target.reverse.takeWhile (· != ':')
  match target.reverse.dropWhile (· != ':') with
  | [] => none
  | _ :: host => some (host.reverse, port.reverse)

/-- What is wrong with a target: it needs a colon, a port after the last one, and a host
without NUL before it. -/
def targetFault? (target : String) : Option Failure :=
  match splitTarget? target.toList with
  | none => some .badAddress
  | some (host, port) =>
      match Numeral.unsigned 65535 port with
      | .error _ => some .badPort
      | .ok _ => if '\x00' ∈ host then some .nulInHost else none

/-- The peer met under a target: a faulty target fails by itself, before the peer is asked. -/
def reachedAt (target : String) (peer : Peer) : Peer :=
  match targetFault? target with
  | some cause => refusing cause
  | none => peer

end Peer

end OrderFlow
