import OrderFlow.CommandLine.Help
import OrderFlow.Shutdown
import OrderFlow.Simulation

/-!
# The program

The program reads its command line, runs a simulation and reports how it went by
an exit code.  It makes a token of its own, which an interrupt fires.  Failed ticks
never change the code; when no tick at all completed, a last line says so.
-/

namespace OrderFlow.Program

/-- The output of the program and its exit code. -/
structure Report where
  exitCode : Nat
  output : String
  complaint : String
  /-- The run, if one took place. -/
  run : Option Simulation.DeliveryRun

/-- The last word on a run: a warning if ticks fired and none completed. -/
def lastWord (summary : Summary) : List Event :=
  if 0 < summary.ticks ∧ summary.completed = 0 then [.nothingDelivered] else []

/-- The exit code of a panic. -/
def panicCode : Nat := 101

/-- What an entry of a run adds to the log.  Only an interrupt fires the token of the program
from outside, and the token logs the interrupt that it hears. -/
def spoken : Entry Act → List Event
  | .cancelled => (Token.step [.fresh] .interrupt).2
  | entry => (Simulation.said? entry).toList

/-- Everything that is logged after a command line was read. -/
def events (settings : Settings) (result : Simulation.Result) : List Event :=
  match result with
  | .finished run =>
      Simulation.opening settings :: run.journal.toList.flatMap spoken ++
        [.runDone run.summary] ++ lastWord run.summary
  | _ => result.events settings

/-- The same surroundings for a run that is given a token just made. -/
def listening (surroundings : Surroundings) : Surroundings :=
  { surroundings with cancelled := Token.fresh.cancelled }

/-- What the program reports of a simulation; `none` if it has not ended. -/
def reportOf (labels : Labels) (level : Level) (settings : Settings)
    (result : Simulation.Result) : Option Report :=
  let output := Record.text level ((events settings result).map (Event.record labels))
  match result with
  | .refused fault => some ⟨1, output, "Error: " ++ fault.message ++ "\n", none⟩
  | .misused misuse => some ⟨panicCode, output, misuse.message ++ "\n", none⟩
  | .finished run => some ⟨0, output, "", some run⟩
  | .unfinished => none

/-- What the program reports when its command line is no more than read. -/
def reportOfStop (stop : CommandLine.Stop) : Report :=
  match stop with
  | .flag _ => ⟨stop.exitCode, stop.text, "", none⟩
  | .fault _ => ⟨stop.exitCode, "", stop.text ++ "\n", none⟩

/-- Runs the program for at most `rounds` rounds of its loop; `none` if it has not ended. -/
def run (labels : Labels) (surroundings : Surroundings) (rounds : Nat)
    (arguments : List Bytes) : Option Report :=
  match CommandLine.read arguments with
  | .error stop => some (reportOfStop stop)
  | .ok choices =>
      let settings := choices.settings
      reportOf labels choices.level settings
        (Simulation.simulate (listening surroundings) rounds settings)

end OrderFlow.Program
