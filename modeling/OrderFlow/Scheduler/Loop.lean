import OrderFlow.Scheduler.Run

/-!
# One loop for everybody

The ticker and all ticks are served by a single loop, in rounds.  In each round the
ticker goes first, as far as it can, but only a limited number of times through a
gate; then a limited number of jobs is done, first come, first served.  A job
looks after one tick, or fires the cancellation token when its time has come.  Jobs
that have to wait set an alarm.  All that happens to the run is done by its actions.
-/

namespace OrderFlow

/-- Something the loop does in its turn. -/
inductive Job where
  /-- Polls a tick. -/
  | tick (number : Nat)
  /-- Looks whether the token is to fire. -/
  | token
  deriving DecidableEq

/-- A run and the loop that serves it. -/
structure Loop (σ τ ε : Type) where
  run : Run σ τ ε
  /-- When the token is to fire, if it is. -/
  cancelAt : Option Nat
  /-- The jobs to be done, in order. -/
  queue : List Job
  /-- The alarms that have not gone off, in the order in which they were set. -/
  alarms : List (Nat × Job)
  /-- The ticks that ended and are not recorded yet, in the order of their collection. -/
  arrivals : List Nat
  /-- How many gates the ticker may still pass in this round. -/
  allowance : Nat

namespace Run

variable {σ τ ε : Type}

/-- Takes an action if it can happen. -/
def perform (schedule : Schedule) (work : Work σ τ ε) (action : Action) (run : Run σ τ ε) :
    Run σ τ ε :=
  (run.step? schedule work action).getD run

end Run

namespace Loop

variable {σ τ ε : Type}

/-- How many gates the ticker may pass in a round. -/
def gatesPerRound : Nat := 128

/-- How many jobs are done in a round. -/
def jobsPerRound : Nat := 61

/-- The loop about to serve a run. -/
def start (cancelAt : Option Nat) (run : Run σ τ ε) : Loop σ τ ε where
  run := run
  cancelAt := cancelAt
  queue := if cancelAt.isSome then [.token] else []
  alarms := []
  arrivals := []
  allowance := gatesPerRound

/-- The same loop about to serve the next run of the scheduler, in the same round. -/
def startAgain (schedule : Schedule) (loop : Loop σ τ ε) : Loop σ τ ε :=
  { loop with
    run := loop.run.startAgain schedule
    queue := loop.queue.filter (· = .token)
    alarms := loop.alarms.filter (·.2 = .token)
    arrivals := [] }

/-- The ticks in flight, the first `count` of them, that nobody is going to poll yet. -/
def unattended (count : Nat) (queue : List Job) (run : Run σ τ ε) : List Job :=
  ((run.running.take count).map fun entry => Job.tick entry.1).filter (· ∉ queue)

/-- Takes an action.  Ticks that ended are to be collected, the firing of the token is a reason
to poll every tick in flight, and a tick just called is polled after all others. -/
def act (schedule : Schedule) (work : Work σ τ ε) (action : Action) (loop : Loop σ τ ε) :
    Loop σ τ ε :=
  let cancelled := loop.run.cancelled
  let inFlight := loop.run.running.length
  let ended := loop.run.finished.length
  let run := loop.run.perform schedule work action
  let woken :=
    if run.cancelled && !cancelled then unattended inFlight loop.queue run else []
  let called := (run.running.drop inFlight).map fun entry => Job.tick entry.1
  { loop with
    run
    queue := loop.queue ++ (woken ++ called)
    arrivals := loop.arrivals ++ (run.finished.drop ended).map Prod.fst }

/-- Whether a phase has a gate at its end: the timer and the permits are behind gates. -/
def isGated : Phase → Bool
  | .awaitingTimer => true
  | .awaitingPermit => true
  | _ => false

/-- Collects a tick that ended. -/
def collect (schedule : Schedule) (work : Work σ τ ε) (tick : Nat) (loop : Loop σ τ ε) :
    Loop σ τ ε :=
  loop.act schedule work (.collect (loop.run.finished.findIdx fun entry => entry.1 == tick))

/-- Whether the ticker can take a step in this round.  Ticks are collected freely between two
firings; once no more ticks fire each one collected is behind a gate. -/
def tickerCanStep (schedule : Schedule) (loop : Loop σ τ ε) : Bool :=
  match loop.run.phase, loop.arrivals with
  | .collecting, _ :: _ => true
  | .draining, _ :: _ => 0 < loop.allowance
  | phase, _ => loop.run.tickerReady schedule && (!isGated phase || 0 < loop.allowance)

/-- The next step of the ticker.  A gate that only the token opens costs nothing. -/
def tickerStep (schedule : Schedule) (work : Work σ τ ε) (loop : Loop σ τ ε) : Loop σ τ ε :=
  match loop.run.phase, loop.arrivals with
  | .collecting, tick :: rest =>
      { loop with arrivals := rest }.collect schedule work tick
  | .draining, tick :: rest =>
      { loop with
        arrivals := rest
        allowance := loop.allowance - 1 }.collect schedule work tick
  | phase, _ =>
      if isGated phase && !loop.run.cancelled then
        { loop with allowance := loop.allowance - 1 }.act schedule work .ticker
      else
        loop.act schedule work .ticker

/-- Lets the ticker take its steps, at most `fuel` of them. -/
def tickerTurnFor (schedule : Schedule) (work : Work σ τ ε) : Nat → Loop σ τ ε → Loop σ τ ε
  | 0, loop => loop
  | fuel + 1, loop =>
      if loop.tickerCanStep schedule then
        tickerTurnFor schedule work fuel (loop.tickerStep schedule work)
      else loop

/-- A bound on the steps of the ticker in this round: there are at most four steps from one
gate to the next, besides those that collect. -/
def tickerLoad (loop : Loop σ τ ε) : Nat :=
  5 * (loop.allowance + 1) + loop.arrivals.length

/-- Lets the ticker go as far as it can in this round. -/
def tickerTurn (schedule : Schedule) (work : Work σ τ ε) (loop : Loop σ τ ε) : Loop σ τ ε :=
  tickerTurnFor schedule work loop.tickerLoad loop

/-- Has a job done at an instant: at once, or when its alarm goes off. -/
def plan (instant : Nat) (job : Job) (loop : Loop σ τ ε) : Loop σ τ ε :=
  if instant ≤ loop.run.now then { loop with queue := loop.queue ++ [job] }
  else { loop with alarms := loop.alarms ++ [(instant, job)] }

/-- Does a job.  A tick that is still in flight is polled again when there is something to
do. -/
def runJob (schedule : Schedule) (work : Work σ τ ε) (job : Job) (loop : Loop σ τ ε) :
    Loop σ τ ε :=
  match job with
  | .token =>
      match loop.cancelAt with
      | none => loop
      | some instant =>
          if instant ≤ loop.run.now then loop.act schedule work .cancel
          else loop.plan instant .token
  | .tick number =>
      let loop := loop.act schedule work (.poll number)
      match loop.run.running.lookup number with
      | none => loop
      | some state =>
          match work.wakesAt? loop.run.now state with
          | none => loop
          | some instant => loop.plan instant (.tick number)

/-- Does so many jobs, in order; a job may add others to the end. -/
def runJobs (schedule : Schedule) (work : Work σ τ ε) : Nat → Loop σ τ ε → Loop σ τ ε
  | 0, loop => loop
  | count + 1, loop =>
      match loop.queue with
      | [] => loop
      | job :: rest =>
          runJobs schedule work count ({ loop with queue := rest }.runJob schedule work job)

/-- Whether a tick is to be collected and the ticker may not collect it in this round. -/
def isHeldUp (loop : Loop σ τ ε) : Bool :=
  loop.run.phase = .draining && loop.allowance = 0 && !loop.arrivals.isEmpty

/-- Readies the loop for its next round.  A tick that the ticker was held up at has lost its
place and goes to the end. -/
def refresh (heldUp : Bool) (loop : Loop σ τ ε) : Loop σ τ ε :=
  { loop with
    allowance := gatesPerRound
    arrivals := if heldUp then loop.arrivals.rotateLeft else loop.arrivals }

/-- One round; a run that is over is left alone. -/
def round (schedule : Schedule) (work : Work σ τ ε) (loop : Loop σ τ ε) : Loop σ τ ε :=
  let loop := loop.tickerTurn schedule work
  if loop.run.phase.isOver then loop
  else
    let heldUp := loop.isHeldUp
    (loop.runJobs schedule work jobsPerRound).refresh heldUp

end Loop

end OrderFlow
