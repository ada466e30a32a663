import OrderFlow.Failure
import OrderFlow.Log
import OrderFlow.Summary
import OrderFlow.Text.Quoted

/-!
# Events

Whatever the program has to say is an event, with a level and a message.  What a
run cannot know beforehand, the time of day and the number of a task, is filled
in from `Labels`.
-/

namespace OrderFlow

/-- What a log says of things no rule determines. -/
structure Labels where
  /-- The time of day, in milliseconds. -/
  now : String
  /-- The number of the task that runs a tick. -/
  task : Nat → String

/-- Whatever the program has to say. -/
inductive Event where
  /-- A run with valid settings begins. -/
  | sendingBatches (batchSize : Nat) (target : String) (period : Duration)
  /-- The ticker starts. -/
  | schedulerStarted (period : Duration) (workers : Nat) (maxTicks : Option Nat)
  /-- No more ticks may fire. -/
  | tickLimitReached
  /-- The ticks in flight are awaited. -/
  | waiting (inFlight : Nat)
  /-- A tick that panicked was recorded. -/
  | tickAborted (tick : Nat) (message : String)
  /-- The ticker and all ticks are done. -/
  | schedulerStopped (summary : Summary)
  /-- A connection was established. -/
  | connected (target : String)
  /-- A line went out. -/
  | sent
  /-- A whole batch went out, but closing the connection failed. -/
  | shutdownFailed (cause : Failure)
  /-- A delivery failed. -/
  | attemptFailed (failure : AttemptFailure)
  /-- A run is over. -/
  | runDone (summary : Summary)
  /-- A run fired ticks and none of them completed. -/
  | nothingDelivered
  /-- The user asked to stop. -/
  | interrupted
  deriving DecidableEq

namespace Event

/-- How much an event matters. -/
def level : Event → Level
  | .sendingBatches _ _ _ => .info
  | .schedulerStarted _ _ _ => .info
  | .tickLimitReached => .debug
  | .waiting _ => .debug
  | .tickAborted _ _ => .warn
  | .schedulerStopped _ => .info
  | .connected _ => .debug
  | .sent => .info
  | .shutdownFailed _ => .debug
  | .attemptFailed _ => .warn
  | .runDone _ => .info
  | .nothingDelivered => .warn
  | .interrupted => .info

/-- An optional number as the log shows it. -/
def limitText : Option Nat → String
  | none => "None"
  | some n => "Some(" ++ toString n ++ ")"

/-- What the log says of an event. -/
def message (labels : Labels) : Event → String
  | .sendingBatches batchSize target period =>
      "sending batches of " ++ toString batchSize ++ " orders to " ++ target ++
      " every " ++ period.text
  | .schedulerStarted period workers maxTicks =>
      "scheduler started: period=" ++ period.text ++ " workers=" ++ toString workers ++
      " max_ticks=" ++ limitText maxTicks
  | .tickLimitReached => "tick limit reached"
  | .waiting inFlight => "waiting on " ++ toString inFlight ++ " in-flight ticks"
  | .tickAborted tick message =>
      "tick aborted: task " ++ labels.task tick ++ " panicked with message " ++ Text.quote message
  | .schedulerStopped summary => "scheduler stopped: " ++ summary.text
  | .connected target => "connected to " ++ target
  | .sent => "Sent at " ++ labels.now
  | .shutdownFailed cause => "shutdown after full batch failed: " ++ cause.text
  | .attemptFailed failure => "Error establishing connection: " ++ failure.text
  | .runDone summary => "--- done --- " ++ summary.text
  | .nothingDelivered => "no batch reached the engine"
  | .interrupted => "ctrl-c received, stopping scheduler"

/-- The record of an event. -/
def record (labels : Labels) (event : Event) : Record :=
  ⟨event.level, event.message labels⟩

end Event

end OrderFlow
