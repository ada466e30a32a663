import OrderFlow.Duration

/-!
# Settings of a run

Settings say where the engine is, how large a batch is, how often and how often
at once ticks fire, and when to stop.  `Settings.fault?` names the first thing
that makes settings unusable.
-/

namespace OrderFlow

/-- Parameters of one run. -/
structure Settings where
  /-- The host every tick connects to. -/
  host : String
  /-- The port every tick connects to. -/
  port : Nat
  /-- Orders written per connection. -/
  batchSize : Nat
  /-- Nominal time between two ticks. -/
  period : Duration
  /-- Ticks that may be in flight at once. -/
  workers : Nat
  /-- Stop after this many ticks. -/
  maxTicks : Option Nat
  /-- Seed of the order generator. -/
  seed : Option UInt64
  /-- Bound on setting up a connection. -/
  connectTimeout : Option Duration
  deriving DecidableEq

namespace Settings

/-- The settings of a run for which nothing was asked. -/
def standard : Settings where
  host := "localhost"
  port := 8080
  batchSize := 100
  period := .ofMicros 50
  workers := 10
  maxTicks := none
  seed := none
  connectTimeout := none

/-- The address every tick connects to. -/
def target (settings : Settings) : String :=
  settings.host ++ ":" ++ toString settings.port

/-- What can make settings unusable. -/
inductive Fault where
  | emptyHost
  | emptyBatch
  | zeroPeriod
  | emptyPool
  | zeroTimeout
  deriving DecidableEq

/-- The wording of a fault. -/
def Fault.message : Fault → String
  | .emptyHost => "host must not be empty"
  | .emptyBatch => "batch size must be > 0"
  | .zeroPeriod => "tick period must be > 0"
  | .emptyPool => "worker pool must have at least one worker"
  | .zeroTimeout => "connect timeout must be > 0"

/-- The first fault of some settings. -/
def fault? (settings : Settings) : Option Fault :=
  if settings.host = "" then some .emptyHost
  else if settings.batchSize = 0 then some .emptyBatch
  else if settings.period.nanos = 0 then some .zeroPeriod
  else if settings.workers = 0 then some .emptyPool
  else if settings.connectTimeout = some ⟨0⟩ then some .zeroTimeout
  else none

end Settings

end OrderFlow
