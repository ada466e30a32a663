import OrderFlow.CommandLine.Reading

/-!
# What the command line says of itself

The help text lists every option with its description and its standard value.
`Stop.text` is what is shown when reading stops.
-/

namespace OrderFlow.CommandLine

/-- What an option is for. -/
def Opt.description : Opt → String
  | .host => "Engine host"
  | .port => "Engine port"
  | .batchSize => "Orders written per connection"
  | .periodUs => "Time between ticks, in microseconds"
  | .workers => "Ticks allowed in flight at once"
  | .maxTicks => "Stop after this many ticks (runs until Ctrl-C when omitted)"
  | .seed => "Seed for the order generator"
  | .connectTimeoutMs => "Give up on a connection attempt after this many milliseconds"
  | .logLevel => "trace, debug, info, warn or error"

/-- The value an option has when it is not given. -/
def Opt.standardText : Opt → Option String
  | .host => some Settings.standard.host
  | .port => some (toString Settings.standard.port)
  | .batchSize => some (toString Settings.standard.batchSize)
  | .periodUs => some (toString (Settings.standard.period.nanos / 1000))
  | .workers => some (toString Settings.standard.workers)
  | .maxTicks => none
  | .seed => none
  | .connectTimeoutMs => none
  | .logLevel => some "INFO"

/-- The two lines of an option in the help text. -/
def Opt.helpLines (option : Opt) : List String :=
  let standard :=
    match option.standardText with
    | none => ""
    | some text => " [default: " ++ text ++ "]"
  ["      " ++ option.shown, "          " ++ option.description ++ standard]

/-- The lines of the help text. -/
def helpLines : List String :=
  ["Streams batches of random orders to a matching engine over TCP",
    "",
    "Usage: order_simulator [OPTIONS]",
    "",
    "Options:"] ++
  Opt.all.flatMap Opt.helpLines ++
  ["  -h, --help",
    "          Print help",
    "  -V, --version",
    "          Print version"]

/-- Lines, each ended by a line feed. -/
def unlines (lines : List String) : String :=
  String.join (lines.map (· ++ "\n"))

/-- The text a flag asks for. -/
def Flag.text : Flag → String
  | .help => unlines helpLines
  | .version => "Order Simulator 0.1\n"

namespace Stop

/-- What is shown when reading stops. -/
def text : Stop → String
  | .flag asked => asked.text
  | .fault found => "error: " ++ found.message

/-- The code the program exits with when reading stops. -/
def exitCode : Stop → Nat
  | .flag _ => 0
  | .fault _ => 2

end Stop

end OrderFlow.CommandLine
