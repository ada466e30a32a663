import OrderFlow.Log
import OrderFlow.Settings
import OrderFlow.Utf8

/-!
# What a command line can choose

There are nine options, each taking one value.  `Choices` are the values given
so far, each of its option's own type.  An option can be given a value only
once, and only a value it accepts.
-/

namespace OrderFlow.CommandLine

/-- The options that take a value. -/
inductive Opt where
  | host
  | port
  | batchSize
  | periodUs
  | workers
  | maxTicks
  | seed
  | connectTimeoutMs
  | logLevel
  deriving DecidableEq

namespace Opt

/-- All options, in the order of the help text. -/
def all : List Opt :=
  [.host, .port, .batchSize, .periodUs, .workers, .maxTicks, .seed, .connectTimeoutMs,
    .logLevel]

/-- The name of an option, as it follows two dashes. -/
def name : Opt → String
  | .host => "host"
  | .port => "port"
  | .batchSize => "batch-size"
  | .periodUs => "period-us"
  | .workers => "workers"
  | .maxTicks => "max-ticks"
  | .seed => "seed"
  | .connectTimeoutMs => "connect-timeout-ms"
  | .logLevel => "log-level"

/-- What the value of an option is called. -/
def placeholder : Opt → String
  | .host => "HOST"
  | .port => "PORT"
  | .batchSize => "BATCH_SIZE"
  | .periodUs => "PERIOD_US"
  | .workers => "WORKERS"
  | .maxTicks => "MAX_TICKS"
  | .seed => "SEED"
  | .connectTimeoutMs => "CONNECT_TIMEOUT_MS"
  | .logLevel => "LOG_LEVEL"

/-- An option and the name of its value. -/
def shown (option : Opt) : String :=
  "--" ++ option.name ++ " <" ++ option.placeholder ++ ">"

end Opt

/-- Why a text is no value for an option. -/
inductive ValueFault where
  /-- It is no number. -/
  | numeral (fault : Numeral.Fault)
  /-- It is no port number. -/
  | portRange (value : Int)
  /-- It is no level. -/
  | level
  deriving DecidableEq

/-- The wording of a fault. -/
def ValueFault.message : ValueFault → String
  | .numeral fault => fault.message
  | .portRange value => toString value ++ " is not in 0..=65535"
  | .level =>
      "error parsing level: expected one of \"error\", \"warn\", \"info\", \"debug\", \"trace\", or a number 1-5"

/-- Reads a number of 64 bits. -/
def readWord (text : List Char) : Except ValueFault Nat :=
  (Numeral.unsigned Numeral.maxWord text).mapError .numeral

/-- Reads a port: a signed number first, its range tested after. -/
def readPort (text : List Char) : Except ValueFault Nat := do
  let value ← (Numeral.signed text).mapError .numeral
  if 0 ≤ value ∧ value ≤ 65535 then .ok value.toNat else .error (.portRange value)

/-- Reads a level. -/
def readLevel (text : List Char) : Except ValueFault Level :=
  match Level.ofText? text with
  | some level => .ok level
  | none => .error .level

/-- The values given on a command line. -/
structure Choices where
  host : Option String
  port : Option Nat
  batchSize : Option Nat
  periodUs : Option Nat
  workers : Option Nat
  maxTicks : Option Nat
  seed : Option Nat
  connectTimeoutMs : Option Nat
  logLevel : Option Level
  deriving DecidableEq

namespace Choices

/-- Nothing was given. -/
def empty : Choices :=
  ⟨none, none, none, none, none, none, none, none, none⟩

/-- Whether an option was given. -/
def has (choices : Choices) : Opt → Bool
  | .host => choices.host.isSome
  | .port => choices.port.isSome
  | .batchSize => choices.batchSize.isSome
  | .periodUs => choices.periodUs.isSome
  | .workers => choices.workers.isSome
  | .maxTicks => choices.maxTicks.isSome
  | .seed => choices.seed.isSome
  | .connectTimeoutMs => choices.connectTimeoutMs.isSome
  | .logLevel => choices.logLevel.isSome

/-- Gives an option the value that a text stands for. -/
def give (choices : Choices) (option : Opt) (text : List Char) : Except ValueFault Choices :=
  match option with
  | .host => .ok { choices with host := some (String.ofList text) }
  | .port => (readPort text).map fun n => { choices with port := some n }
  | .batchSize => (readWord text).map fun n => { choices with batchSize := some n }
  | .periodUs => (readWord text).map fun n => { choices with periodUs := some n }
  | .workers => (readWord text).map fun n => { choices with workers := some n }
  | .maxTicks => (readWord text).map fun n => { choices with maxTicks := some n }
  | .seed => (readWord text).map fun n => { choices with seed := some n }
  | .connectTimeoutMs => (readWord text).map fun n => { choices with connectTimeoutMs := some n }
  | .logLevel => (readLevel text).map fun level => { choices with logLevel := some level }

/-- The settings that choices ask for; what was not given keeps its standard value. -/
def settings (choices : Choices) : Settings :=
  let standard := Settings.standard
  { host := choices.host.getD standard.host
    port := choices.port.getD standard.port
    batchSize := choices.batchSize.getD standard.batchSize
    period := (choices.periodUs.map Duration.ofMicros).getD standard.period
    workers := choices.workers.getD standard.workers
    maxTicks := choices.maxTicks
    seed := choices.seed.map UInt64.ofNat
    connectTimeout := choices.connectTimeoutMs.map Duration.ofMillis }

/-- The level of the log that choices ask for. -/
def level (choices : Choices) : Level :=
  choices.logLevel.getD .info

end Choices

end OrderFlow.CommandLine
