import OrderFlow.Delivery
import OrderFlow.Scheduler.Clock
import OrderFlow.Settings

/-!
# A whole simulation

A simulation validates its settings, then runs the scheduler with deliveries as
ticks.  All ticks share one generator.  Which peer a tick meets is given by a
`Network`; the state of the world around a simulation is a `Surroundings`.
-/

namespace OrderFlow

/-- The peer that a tick's connection to a target meets. -/
abbrev Network := (target : String) → (tick : Nat) → Peer

/-- What a simulation finds and does not choose. -/
structure Surroundings where
  timer : Timer
  network : Network
  /-- The generator of a run without a seed. -/
  unseeded : Generator
  /-- Whether the cancellation token has fired before the start. -/
  cancelled : Bool
  /-- When the token fires, if it does. -/
  cancelAt : Option Nat

namespace Settings

/-- What every tick of a simulation is to do. -/
def plan (settings : Settings) : Plan :=
  ⟨settings.target, settings.batchSize, settings.connectTimeout⟩

/-- When the ticks of a simulation are to fire. -/
def schedule (settings : Settings) (timer : Timer) : Schedule :=
  ⟨settings.period, settings.workers, settings.maxTicks, timer⟩

/-- The generator all ticks of a simulation draw from. -/
def generator (settings : Settings) (unseeded : Generator) : Generator :=
  match settings.seed with
  | some seed => .seeded seed
  | none => unseeded

end Settings

namespace Simulation

/-- The work of a tick: one delivery, whose failure is logged.  It never panics, never
reports that it was given up, and never fires the token. -/
def work (timer : Timer) (plan : Plan) (peers : Nat → Peer) : Work Generator Delivery Act where
  call tick _ generator := (⟨generator, [], false⟩, .ok (.start plan (peers tick)))
  poll _ now generator delivery :=
    let turn := delivery.poll timer now generator
    (⟨turn.generator, turn.acts ++ Delivery.lastWord turn.progress, false⟩,
      Delivery.status turn.progress)
  drop := Delivery.drop
  wakesAt? now delivery := delivery.wakesAt? timer now

/-- A run whose ticks are deliveries. -/
abbrev DeliveryRun := Run Generator Delivery Act

/-- The event of an entry, whether the scheduler logged it or a tick. -/
def said? : Entry Act → Option Event
  | .logged event => some event
  | .did _ act => act.event?
  | _ => none

/-- Everything that was logged in a run, by the scheduler and by its ticks. -/
def events (run : DeliveryRun) : List Event :=
  run.journal.toList.filterMap said?

/-- What a tick did in a run. -/
def actsOf (run : DeliveryRun) (tick : Nat) : List Act :=
  run.journal.toList.filterMap fun
    | .did n act => if n = tick then some act else none
    | _ => none

/-- The ticks whose connection was established, in that order. -/
def connectedTicks (run : DeliveryRun) : List Nat :=
  run.journal.toList.filterMap fun
    | .did tick .established => some tick
    | _ => none

/-- The text that each connection took, in the order in which they were established. -/
def received (run : DeliveryRun) : List (List Char) :=
  (connectedTicks run).map fun tick => Act.received (actsOf run tick)

/-- How a simulation comes out. -/
inductive Result where
  /-- The settings cannot be used; nothing happened. -/
  | refused (fault : Settings.Fault)
  /-- The pool cannot be made; only the first event was logged. -/
  | misused (misuse : Schedule.Misuse)
  /-- It ran to its end. -/
  | finished (run : DeliveryRun)
  /-- It had not ended after the rounds allowed to it. -/
  | unfinished

/-- The event with which a simulation begins. -/
def opening (settings : Settings) : Event :=
  .sendingBatches settings.batchSize settings.target settings.period

/-- The work of the ticks of a simulation. -/
def workOf (surroundings : Surroundings) (settings : Settings) :
    Work Generator Delivery Act :=
  work surroundings.timer settings.plan (surroundings.network settings.target)

/-- The run of a simulation before anything happened. -/
def startRun (surroundings : Surroundings) (settings : Settings) : DeliveryRun :=
  .start (settings.schedule surroundings.timer) 0 surroundings.cancelled
    (settings.generator surroundings.unseeded)

/-- The loop that serves a simulation, before its first round. -/
def startLoop (surroundings : Surroundings) (settings : Settings) :
    Loop Generator Delivery Act :=
  .start surroundings.cancelAt (startRun surroundings settings)

/-- Runs a simulation for at most `rounds` rounds of its loop. -/
def simulate (surroundings : Surroundings) (rounds : Nat) (settings : Settings) : Result :=
  match settings.fault? with
  | some fault => .refused fault
  | none =>
      let schedule := settings.schedule surroundings.timer
      match schedule.misuse? with
      | some misuse => .misused misuse
      | none =>
          match (startLoop surroundings settings).drive schedule
            (workOf surroundings settings) rounds with
          | some loop => .finished loop.run
          | none => .unfinished

/-- Everything a simulation logs. -/
def Result.events (settings : Settings) : Result → List Event
  | .refused _ => []
  | .misused _ => [opening settings]
  | .finished run => opening settings :: Simulation.events run ++ [.runDone run.summary]
  | .unfinished => []

end Simulation

end OrderFlow
