import OrderFlow.Event
import OrderFlow.Schedule
import OrderFlow.Scheduler.Work

/-!
# Runs of the scheduler

A ticker fires ticks at a fixed rate and a pool of permits bounds how many are
in flight.  A run is a state machine.  The ticker moves through its phases; the
rest of the world may poll a tick, fire the cancellation token, let time pass
and choose which finished tick is collected next.  `Run.step?` says which of
these actions is possible and what it does, and `Run.Leads` allows every order of
actions.  The journal of a run holds, in order, all that happened in it.
-/

namespace OrderFlow

/-- One thing that happened in a run. -/
inductive Entry (ε : Type) where
  /-- The scheduler logged an event. -/
  | logged (event : Event)
  /-- A tick was called. -/
  | called (tick now : Nat)
  /-- A tick came to its end. -/
  | ended (tick now : Nat) (how : Ending)
  /-- The ending of a tick was counted in the totals. -/
  | recorded (tick : Nat) (how : Ending)
  /-- A tick did something. -/
  | did (tick : Nat) (act : ε)
  /-- The cancellation token was fired, and by no tick. -/
  | cancelled
  deriving DecidableEq

/-- Where the ticker stands. -/
inductive Phase where
  /-- About to test the tick limit. -/
  | checking
  /-- Waiting for the next firing to be due. -/
  | awaitingTimer
  /-- Waiting for a permit. -/
  | awaitingPermit
  /-- Holding a permit, about to call the next tick. -/
  | holdingPermit
  /-- Collecting the ticks that finished. -/
  | collecting
  /-- Firing no more; collecting ticks until none is left. -/
  | draining
  /-- The run is over. -/
  | returned
  /-- A call panicked and took the run with it. -/
  | aborted (message : String)
  deriving DecidableEq

namespace Phase

/-- Whether the run has come to an end. -/
def isOver : Phase → Bool
  | .returned => true
  | .aborted _ => true
  | _ => false

end Phase

/-- The state of a run. -/
structure Run (σ τ ε : Type) where
  phase : Phase
  now : Nat
  /-- When the run began. -/
  origin : Nat
  /-- How many firings of the timer were used. -/
  fired : Nat
  /-- Whether the cancellation token has fired. -/
  cancelled : Bool
  /-- The permits nobody holds. -/
  free : Nat
  /-- The ticks in flight, in the order of their calls. -/
  running : List (Nat × τ)
  /-- The ticks that ended and are not recorded yet, in the order of their ends. -/
  finished : List (Nat × Ending)
  summary : Summary
  shared : σ
  journal : Array (Entry ε)

/-- What can happen next in a run. -/
inductive Action where
  /-- The ticker moves on. -/
  | ticker
  /-- The ticker records one of the finished ticks. -/
  | collect (index : Nat)
  /-- A tick is polled. -/
  | poll (tick : Nat)
  /-- The cancellation token fires. -/
  | cancel
  /-- Time passes until an instant. -/
  | wait (instant : Nat)
  deriving DecidableEq

namespace Run

variable {σ τ ε : Type}

/-- A run about to begin, with all permits free. -/
def start (schedule : Schedule) (now : Nat) (cancelled : Bool) (shared : σ) : Run σ τ ε where
  phase := .checking
  now := now
  origin := now
  fired := 0
  cancelled := cancelled
  free := schedule.workers
  running := []
  finished := []
  summary := .zero
  shared := shared
  journal :=
    #[.logged (.schedulerStarted schedule.period schedule.workers schedule.maxTicks)]

/-- The next run of the same scheduler, once a run is over. -/
def startAgain (schedule : Schedule) (run : Run σ τ ε) : Run σ τ ε :=
  { (start schedule run.now run.cancelled run.shared : Run σ τ ε) with free := run.free }

/-- Logs an event. -/
def log (event : Event) (run : Run σ τ ε) : Run σ τ ε :=
  { run with journal := run.journal.push (.logged event) }

/-- Takes note of what a piece of work did. -/
def noteEffect (tick : Nat) (effect : Effect σ ε) (run : Run σ τ ε) : Run σ τ ε :=
  { run with
    shared := effect.shared
    cancelled := run.cancelled || effect.cancels
    journal := run.journal ++ effect.acts.map (Entry.did tick) }

/-- Stops firing; what is in flight is awaited. -/
def drain (run : Run σ τ ε) : Run σ τ ε :=
  { run.log (.waiting (run.running.length + run.finished.length)) with phase := .draining }

/-- Takes a tick that ended out of flight and gives its permit back. -/
def finish (tick : Nat) (how : Ending) (run : Run σ τ ε) : Run σ τ ε :=
  { run with
    free := run.free + 1
    running := run.running.filter fun entry => entry.1 != tick
    finished := run.finished ++ [(tick, how)]
    journal := run.journal.push (.ended tick run.now how) }

/-- Records the ending of a tick in the totals.  A panic is logged. -/
def recordEnding (tick : Nat) (how : Ending) (run : Run σ τ ε) : Run σ τ ε :=
  let run :=
    match how with
    | .panicked message => run.log (.tickAborted tick message)
    | _ => run
  { run with
    summary := run.summary.record how
    journal := run.journal.push (.recorded tick how) }

/-- Ends the run because a call panicked: the permit held and everything in flight go. -/
def abort (work : Work σ τ ε) (message : String) (run : Run σ τ ε) : Run σ τ ε :=
  let gone := run.running.flatMap fun (tick, state) =>
    (work.drop state).map (Entry.did tick) ++ [.ended tick run.now .dropped]
  { run with
    phase := .aborted message
    free := run.free + run.running.length + 1
    running := []
    journal := run.journal ++ gone }

/-- Takes what the call of a tick came to: the tick is put in flight, or its panic ends the
run. -/
def launch (work : Work σ τ ε) (tick : Nat) (reply : Effect σ ε × Except String τ)
    (run : Run σ τ ε) : Run σ τ ε :=
  match reply.2 with
  | .ok state =>
      { run.noteEffect tick reply.1 with
        phase := .collecting
        running := run.running ++ [(tick, state)] }
  | .error message => (run.noteEffect tick reply.1).abort work message

/-- Counts the next tick and notes its call. -/
def announce (run : Run σ τ ε) : Run σ τ ε :=
  { run with
    summary := run.summary.fire
    journal := run.journal.push (.called (run.summary.ticks + 1) run.now) }

/-- Calls the next tick. -/
def callNext (work : Work σ τ ε) (run : Run σ τ ε) : Run σ τ ε :=
  run.announce.launch work (run.summary.ticks + 1)
    (work.call (run.summary.ticks + 1) run.now run.shared)

/-- Whether the ticker can move on by itself. -/
def tickerReady (schedule : Schedule) (run : Run σ τ ε) : Bool :=
  match run.phase with
  | .checking => true
  | .awaitingTimer => run.cancelled || schedule.dueAt run.origin run.fired ≤ run.now
  | .awaitingPermit => run.cancelled || 0 < run.free
  | .holdingPermit => true
  | .collecting => run.finished.isEmpty
  | .draining => run.finished.isEmpty && run.running.isEmpty
  | .returned => false
  | .aborted _ => false

/-- The next move of the ticker.

The limit is tested before the token, and the token goes before the timer and before a
permit. -/
def tickerMove (schedule : Schedule) (work : Work σ τ ε) (run : Run σ τ ε) : Run σ τ ε :=
  match run.phase with
  | .checking =>
      if schedule.limitReached run.summary.ticks then (run.log .tickLimitReached).drain
      else { run with phase := .awaitingTimer }
  | .awaitingTimer =>
      if run.cancelled then run.drain
      else { run with phase := .awaitingPermit, fired := run.fired + 1 }
  | .awaitingPermit =>
      if run.cancelled then run.drain
      else { run with phase := .holdingPermit, free := run.free - 1 }
  | .holdingPermit => run.callNext work
  | .collecting => { run with phase := .checking }
  | .draining => { run.log (.schedulerStopped run.summary) with phase := .returned }
  | .returned => run
  | .aborted _ => run

/-- Records one of the finished ticks, while the ticker is collecting. -/
def collect? (index : Nat) (run : Run σ τ ε) : Option (Run σ τ ε) :=
  if run.phase = .collecting ∨ run.phase = .draining then
    run.finished[index]?.map fun (tick, how) =>
      { run with finished := run.finished.eraseIdx index }.recordEnding tick how
  else
    none

/-- Drops the work of a tick, which ends the tick. -/
def dropTick (work : Work σ τ ε) (tick : Nat) (state : τ) (run : Run σ τ ε) : Run σ τ ε :=
  { run with journal := run.journal ++ (work.drop state).map (Entry.did tick) }.finish
    tick .dropped

/-- Keeps a tick in flight with a new state. -/
def keepTick (tick : Nat) (state : τ) (run : Run σ τ ε) : Run σ τ ε :=
  { run with
    running := run.running.map fun entry => if entry.1 = tick then (tick, state) else entry }

/-- Takes what a poll of a tick came to.  The tick's own ending goes first; only a tick that is
not done is ended by the token. -/
def takePoll (work : Work σ τ ε) (tick : Nat) (reply : Effect σ ε × Status τ)
    (run : Run σ τ ε) : Run σ τ ε :=
  let run := run.noteEffect tick reply.1
  match reply.2 with
  | .returned outcome => run.finish tick (.returned outcome)
  | .panicked message => run.finish tick (.panicked message)
  | .pending state =>
      if run.cancelled then run.dropTick work tick state else run.keepTick tick state

/-- Polls a tick in flight. -/
def pollTick? (work : Work σ τ ε) (tick : Nat) (run : Run σ τ ε) : Option (Run σ τ ε) :=
  (run.running.lookup tick).map fun state =>
    run.takePoll work tick (work.poll tick run.now run.shared state)

/-- What is written when the token is fired from outside: only the first firing is news, and
only while the run lasts. -/
def cancelNotes (run : Run σ τ ε) : List (Entry ε) :=
  if run.cancelled || run.phase.isOver then [] else [.cancelled]

/-- Fires the token from outside. -/
def cancel (run : Run σ τ ε) : Run σ τ ε :=
  { run with cancelled := true, journal := run.journal ++ run.cancelNotes }

/-- What an action does to a run, if it can happen. -/
def step? (schedule : Schedule) (work : Work σ τ ε) (action : Action) (run : Run σ τ ε) :
    Option (Run σ τ ε) :=
  match action with
  | .ticker => if run.tickerReady schedule then some (run.tickerMove schedule work) else none
  | .collect index => run.collect? index
  | .poll tick => run.pollTick? work tick
  | .cancel => some run.cancel
  | .wait instant => if run.now ≤ instant then some { run with now := instant } else none

/-- What some actions, one after the other, do to a run, if all of them can happen. -/
def steps? (schedule : Schedule) (work : Work σ τ ε) :
    List Action → Run σ τ ε → Option (Run σ τ ε)
  | [], run => some run
  | action :: rest, run => (run.step? schedule work action).bind (steps? schedule work rest)

/-- One run can become another. -/
def Leads (schedule : Schedule) (work : Work σ τ ε) (first last : Run σ τ ε) : Prop :=
  ∃ actions, first.steps? schedule work actions = some last

end Run

end OrderFlow
