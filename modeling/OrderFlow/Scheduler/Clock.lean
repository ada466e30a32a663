import OrderFlow.Scheduler.Loop

/-!
# Loops on a virtual clock

A virtual clock moves only when the loop has nothing to do, and then straight to
the next instant at which something can happen: an alarm goes off, or a firing is
due that the ticker waits for.
-/

namespace OrderFlow.Loop

variable {σ τ ε : Type}

/-- Whether there is nothing to do at this instant. -/
def isIdle (schedule : Schedule) (loop : Loop σ τ ε) : Bool :=
  loop.queue.isEmpty && !loop.tickerCanStep schedule

/-- Whether an alarm still concerns anybody: a tick that ended needs none. -/
def isLive (run : Run σ τ ε) (job : Job) : Bool :=
  match job with
  | .token => true
  | .tick number => (run.running.lookup number).isSome

/-- The alarms that still concern anybody. -/
def liveAlarms (loop : Loop σ τ ε) : List (Nat × Job) :=
  loop.alarms.filter fun alarm => isLive loop.run alarm.2

/-- The next instant at which something can happen, if there is one. -/
def nextInstant? (schedule : Schedule) (loop : Loop σ τ ε) : Option Nat :=
  let firing :=
    if loop.run.phase = .awaitingTimer then
      [schedule.dueAt loop.run.origin loop.run.fired]
    else []
  ((firing ++ loop.liveAlarms.map Prod.fst).map (max loop.run.now)).min?

/-- Moves the clock to an instant, at which alarms go off in the order in which they were
set. -/
def moveTo (schedule : Schedule) (work : Work σ τ ε) (instant : Nat) (loop : Loop σ τ ε) :
    Loop σ τ ε :=
  let loop := { loop with alarms := loop.liveAlarms }
  let loop := loop.act schedule work (.wait instant)
  { loop with
    queue := loop.queue ++ (loop.alarms.filter (·.1 ≤ instant)).map Prod.snd
    alarms := loop.alarms.filter (instant < ·.1) }

/-- One round, after which the clock moves if nothing is left to do; `none` if nothing will
ever happen again. -/
def turn? (schedule : Schedule) (work : Work σ τ ε) (loop : Loop σ τ ε) :
    Option (Loop σ τ ε) :=
  let loop := loop.round schedule work
  if loop.run.phase.isOver || !loop.isIdle schedule then some loop
  else (loop.nextInstant? schedule).map fun instant => loop.moveTo schedule work instant

/-- Goes on until the run is over, for at most `rounds` rounds. -/
def drive (schedule : Schedule) (work : Work σ τ ε) :
    (rounds : Nat) → Loop σ τ ε → Option (Loop σ τ ε)
  | 0, loop => if loop.run.phase.isOver then some loop else none
  | rounds + 1, loop =>
      if loop.run.phase.isOver then some loop
      else
        match loop.turn? schedule work with
        | none => none
        | some loop => drive schedule work rounds loop

/-- So many runs of one scheduler, each begun when the one before it has returned.  A run that
was aborted is the last. -/
def driveTimes (schedule : Schedule) (work : Work σ τ ε) (rounds : Nat) :
    (count : Nat) → Loop σ τ ε → Option (List (Run σ τ ε))
  | 0, _ => some []
  | count + 1, loop => do
      let loop ← loop.drive schedule work rounds
      if loop.run.phase = .returned then
        let rest ← driveTimes schedule work rounds count (loop.startAgain schedule)
        return loop.run :: rest
      else
        return [loop.run]

end OrderFlow.Loop
