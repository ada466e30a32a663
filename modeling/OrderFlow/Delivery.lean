import OrderFlow.Batch
import OrderFlow.Scheduler.Work
import OrderFlow.Timer

/-!
# Delivering a batch

A delivery connects once, writes one batch, closes the connection and releases
it.  Connecting may be bounded in time; the bound is looked at only when there is
no answer from the other side, and once the connection is established it is of no
account.  The connection is closed in good order only after the whole batch went
out, and is released on every way out.  A tick is a delivery whose failure is
logged and becomes part of its outcome.
-/

namespace OrderFlow

/-- What one tick is to do. -/
structure Plan where
  target : String
  batchSize : Nat
  connectTimeout : Option Duration

namespace Delivery

/-- Where a delivery stands. -/
inductive Stage where
  /-- Nothing happened yet. -/
  | unstarted
  /-- The attempt to connect is under way since an instant. -/
  | connecting (since : Nat)
  /-- The batch is being written. -/
  | sending (batch : Batch)
  /-- The whole batch is out; the connection is to be closed. -/
  | closing (sent : Nat)

end Delivery

/-- A delivery on its way to a peer. -/
structure Delivery where
  plan : Plan
  peer : Peer
  stage : Delivery.Stage

namespace Delivery

/-- A delivery before its first move. -/
def start (plan : Plan) (peer : Peer) : Delivery :=
  ⟨plan, peer, .unstarted⟩

/-- The answer of the other side to an attempt to connect that started at `since`, if it is
there by now. -/
def answered? (now since : Nat) (peer : Peer) : Option (Except Failure Unit) :=
  match peer.connecting.answer? with
  | none => none
  | some (delay, result) => if since + delay ≤ now then some result else none

/-- The failure of an attempt to connect that started at `since`, if it is given up by now. -/
def expired? (timer : Timer) (now since : Nat) (plan : Plan) : Option Failure :=
  match plan.connectTimeout with
  | none => none
  | some limit =>
      if timer.due (since + limit.nanos) ≤ now then some (.connectTimeout plan.target limit)
      else none

/-- What an attempt to connect that started at `since` has come to by now, if to anything.  An
answer that is there counts, however late it came; only without one is the attempt given up. -/
def attempt? (timer : Timer) (now since : Nat) (plan : Plan) (peer : Peer) :
    Option (Except Failure Unit) :=
  match answered? now since peer with
  | some result => some result
  | none => (expired? timer now since plan).map .error

/-- One look at an attempt to connect that started at `since`. -/
def connect (timer : Timer) (now : Nat) (delivery : Delivery) (since : Nat)
    (generator : Generator) : Turn Delivery Batch.Result :=
  let plan := delivery.plan
  match attempt? timer now since plan delivery.peer with
  | none => ⟨generator, [], .waiting delivery⟩
  | some (.error cause) => ⟨generator, [], .ended (.error ⟨0, cause⟩)⟩
  | some (.ok ()) =>
      let (generator, drawn, batch) :=
        Batch.start plan.batchSize delivery.peer.writes delivery.peer.flushes generator
      ⟨generator, .established :: .logged (.connected plan.target) :: drawn,
        .again { delivery with stage := .sending batch }⟩

/-- Closes the connection in good order.  That the other side is gone already is no failure,
and a failure only shows in the log. -/
def close (delivery : Delivery) (sent : Nat) (generator : Generator) :
    Turn Delivery Batch.Result :=
  let complaint :=
    match delivery.peer.closing with
    | none => []
    | some cause =>
        if cause.kind = .notConnected then [] else [.logged (.shutdownFailed cause)]
  ⟨generator, .closed delivery.peer.closing :: complaint ++ [.released], .ended (.ok sent)⟩

/-- One move of a delivery at an instant. -/
def move (timer : Timer) (now : Nat) (delivery : Delivery) (generator : Generator) :
    Turn Delivery Batch.Result :=
  match delivery.stage with
  | .unstarted =>
      ⟨generator, [.attempted], .again { delivery with stage := .connecting now }⟩
  | .connecting since => connect timer now delivery since generator
  | .sending batch =>
      let turn := batch.move generator
      match turn.progress with
      | .again batch =>
          ⟨turn.generator, turn.acts, .again { delivery with stage := .sending batch }⟩
      | .waiting batch =>
          ⟨turn.generator, turn.acts, .waiting { delivery with stage := .sending batch }⟩
      | .ended (.ok sent) =>
          ⟨turn.generator, turn.acts, .again { delivery with stage := .closing sent }⟩
      | .ended (.error failure) =>
          ⟨turn.generator, turn.acts ++ [.released], .ended (.error failure)⟩
  | .closing sent => close delivery sent generator

/-- A bound on the moves a delivery has still to make. -/
def load (delivery : Delivery) : Nat :=
  match delivery.stage with
  | .unstarted =>
      delivery.plan.batchSize + 1 + delivery.peer.writes.calls + delivery.peer.flushes.calls + 3
  | .connecting _ =>
      delivery.plan.batchSize + 1 + delivery.peer.writes.calls + delivery.peer.flushes.calls + 2
  | .sending batch => batch.load + 1
  | .closing _ => 1

/-- Moves at an instant until one has to wait or the delivery ends. -/
def poll (timer : Timer) (now : Nat) (delivery : Delivery) (generator : Generator) :
    Turn Delivery Batch.Result :=
  Turn.poll (move timer now) delivery.load delivery generator

/-- The instants at which an attempt to connect that started at `since` can come to something:
when it is answered and when it is given up. -/
def turningPoints (timer : Timer) (plan : Plan) (peer : Peer) (since : Nat) : List Nat :=
  (peer.connecting.answer?.map fun answer => since + answer.1).toList ++
    (plan.connectTimeout.map fun limit => timer.due (since + limit.nanos)).toList

/-- The first instant at which an attempt to connect that started at `since` has come to
something, if it ever does. -/
def settlesAt? (timer : Timer) (plan : Plan) (peer : Peer) (since : Nat) : Option Nat :=
  (turningPoints timer plan peer since).min?

/-- The first instant from `now` on at which there is something to do, if there ever is: at
once, or when the attempt to connect comes to something. -/
def wakesAt? (timer : Timer) (now : Nat) (delivery : Delivery) : Option Nat :=
  match delivery.stage with
  | .connecting since => settlesAt? timer delivery.plan delivery.peer since
  | .sending batch =>
      let reply :=
        match batch.stage with
        | .writing _ _ => batch.writes.next.1
        | .flushing => batch.flushes.next.1
      if reply = .stalls then none else some now
  | .unstarted => some now
  | .closing _ => some now

/-- What a delivery that is dropped does: an established connection is released. -/
def drop (delivery : Delivery) : List Act :=
  match delivery.stage with
  | .unstarted => []
  | .connecting _ => []
  | .sending _ => [.released]
  | .closing _ => [.released]

/-- A delivery that ended, and when. -/
structure Report where
  generator : Generator
  acts : List Act
  result : Batch.Result
  endedAt : Nat

/-- Polls a delivery whenever there is something to do, at most `fuel` times. -/
def follow (timer : Timer) : (fuel : Nat) → (now : Nat) → Delivery → Generator → Option Report
  | 0, _, _, _ => none
  | fuel + 1, now, delivery, generator =>
      let turn := poll timer now delivery generator
      match turn.progress with
      | .ended result => some ⟨turn.generator, turn.acts, result, now⟩
      | .again delivery | .waiting delivery =>
          match delivery.wakesAt? timer now with
          | none => none
          | some instant =>
              (follow timer fuel (max now instant) delivery turn.generator).map fun report =>
                { report with acts := turn.acts ++ report.acts }

/-- Delivers one batch with nothing else going on; `none` if the delivery never ends. -/
def deliver (timer : Timer) (now : Nat) (plan : Plan) (peer : Peer) (generator : Generator) :
    Option Report :=
  let delivery := start plan peer
  follow timer (delivery.load + 1) now delivery generator

/-- What a tick makes of the result of its delivery: a failure is logged. -/
def conclude : Batch.Result → List Act × Outcome
  | .ok sent => ([], .completed sent)
  | .error failure => ([.logged (.attemptFailed failure)], .failed failure.sent)

/-- The last word of a tick, once its delivery ended. -/
def lastWord : Progress Delivery Batch.Result → List Act
  | .again _ => []
  | .waiting _ => []
  | .ended result => (conclude result).1

/-- Where the work of a tick stands, by its delivery. -/
def status : Progress Delivery Batch.Result → Status Delivery
  | .again delivery => .pending delivery
  | .waiting delivery => .pending delivery
  | .ended result => .returned (conclude result).2

namespace Report

/-- What the tick did that made a delivery, its last word included. -/
def tickActs (report : Report) : List Act :=
  report.acts ++ (conclude report.result).1

/-- The outcome of the tick that made a delivery. -/
def outcome (report : Report) : Outcome :=
  (conclude report.result).2

end Report

/-- Deliveries one after the other on one generator, each begun when the one before it has
ended; `none` if one of them never ends. -/
def deliverAll (timer : Timer) : Nat → List (Plan × Peer) → Generator →
    Option (List Report)
  | _, [], _ => some []
  | now, (plan, peer) :: rest, generator => do
      let report ← deliver timer now plan peer generator
      let reports ← deliverAll timer report.endedAt rest report.generator
      return report :: reports

end Delivery

end OrderFlow
