import OrderFlow.Program
import Std.Time.DateTime.Timestamp

/-!
# The command line tool

The engine is part of the process: it accepts every connection to a target with
a port other than zero and takes whatever is sent.  A run goes by the wall clock;
its log is printed as it comes.
-/

namespace OrderFlow.Main

/-- An engine behind every target; port zero refuses. -/
def network : Network := fun target _ =>
  let peer := if target.endsWith ":0" then Peer.refusing (.os .refused) else Peer.engine
  peer.reachedAt target

/-- A seed that differs from run to run. -/
def freshSeed : IO UInt64 := do
  let bytes ← IO.getRandomBytes 8
  return bytes.toList.foldl (fun seed b => seed * 256 + b.toUInt64) 0

/-- The labels of the log at this moment. -/
def currentLabels : IO Labels := do
  let now ← Std.Time.Timestamp.now
  return ⟨toString now.toMillisecondsSinceUnixEpoch.val, fun tick => toString tick⟩

/-- Prints events to the log. -/
def say (level : Level) (events : List Event) : IO Unit := do
  unless events.isEmpty do
    let labels ← currentLabels
    let output ← IO.getStdout
    output.putStr (Record.text level (events.map (Event.record labels)))
    output.flush

/-- Sleeps until so many nanoseconds after the start. -/
def sleepUntil (start instant : Nat) : IO Unit := do
  let elapsed := (← IO.monoNanosNow) - start
  if elapsed < instant then
    IO.sleep ((instant - elapsed + 999999) / 1000000).toUInt32

/-- Lets a run go on until it is over. -/
partial def follow (surroundings : Surroundings) (settings : Settings) (level : Level)
    (start : Nat) (loop : Loop Generator Delivery Act) : IO Simulation.DeliveryRun := do
  if loop.run.phase.isOver then
    return loop.run
  match loop.turn? (settings.schedule surroundings.timer)
    (Simulation.workOf surroundings settings) with
  | some next =>
      say level (Simulation.events next.run)
      sleepUntil start next.run.now
      follow surroundings settings level start
        { next with run := { next.run with journal := #[] } }
  | none => return loop.run

/-- Runs a simulation by the wall clock. -/
def simulate (surroundings : Surroundings) (level : Level) (settings : Settings) :
    IO UInt32 := do
  say level [Simulation.opening settings]
  let run ← follow surroundings settings level (← IO.monoNanosNow)
    (Simulation.startLoop surroundings settings)
  say level (.runDone run.summary :: Program.lastWord run.summary)
  return 0

/-- Prints a report and gives its exit code. -/
def finish (report : Program.Report) : IO UInt32 := do
  (← IO.getStdout).putStr report.output
  (← IO.getStderr).putStr report.complaint
  return report.exitCode.toUInt32

/-- Runs the program on its arguments. -/
def run (arguments : List Bytes) : IO UInt32 := do
  match CommandLine.read arguments with
  | .error stop => finish (Program.reportOfStop stop)
  | .ok choices =>
      let settings := choices.settings
      let surroundings : Surroundings :=
        ⟨.milliseconds, network, .seeded (← freshSeed), false, none⟩
      match settings.fault?, (settings.schedule surroundings.timer).misuse? with
      | none, none => simulate surroundings choices.level settings
      | _, _ =>
          let report := Program.reportOf (← currentLabels) choices.level settings
            (Simulation.simulate surroundings 0 settings)
          match report with
          | some report => finish report
          | none => return 0

end OrderFlow.Main

def main (arguments : List String) : IO UInt32 :=
  OrderFlow.Main.run (arguments.map fun argument => argument.toUTF8.toList)
