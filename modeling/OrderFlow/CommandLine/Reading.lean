import OrderFlow.CommandLine.Word
import OrderFlow.Text.Plain

/-!
# Reading a command line

Arguments are read from left to right.  At most one option is pending: its value
is tested only when the next option or flag, or the end, is reached.  An
unknown name, an operand that belongs to nothing and a flag with a value are
faults at once, so they go before a fault of the pending option.
-/

namespace OrderFlow.CommandLine

/-- What is wrong with a command line. -/
inductive Fault where
  /-- An option lacks its value. -/
  | missingValue (option : Opt)
  /-- An option is given twice. -/
  | repeated (option : Opt)
  /-- A value is not UTF-8. -/
  | notUtf8
  /-- A value is none that its option accepts. -/
  | badValue (option : Opt) (value : List Char) (why : ValueFault)
  /-- An argument belongs to nothing. -/
  | unexpectedArgument (shown : List Char)
  /-- A flag was given a value. -/
  | unexpectedValue (flag : Flag) (value : List Char)
  deriving DecidableEq

/-- A text from the command line between single quotes, in its plain form. -/
def inQuotes (text : List Char) : String :=
  "'" ++ String.ofList (Text.plain text) ++ "'"

/-- The wording of a fault. -/
def Fault.message : Fault → String
  | .missingValue option =>
      "a value is required for '" ++ option.shown ++ "' but none was supplied"
  | .repeated option =>
      "the argument '" ++ option.shown ++ "' cannot be used multiple times"
  | .notUtf8 => "invalid UTF-8 was detected in one or more arguments"
  | .badValue option value why =>
      "invalid value " ++ inQuotes value ++ " for '" ++ option.shown ++ "': " ++ why.message
  | .unexpectedArgument shown => "unexpected argument " ++ inQuotes shown ++ " found"
  | .unexpectedValue flag value =>
      "unexpected value " ++ inQuotes value ++ " for '--" ++ flag.name ++
      "' found; no more were expected"

/-- Why reading stops before the end: something is wrong, or help or the version was asked
for. -/
inductive Stop where
  | flag (flag : Flag)
  | fault (fault : Fault)
  deriving DecidableEq

/-- Where reading stands. -/
structure Reading where
  /-- The values tested and given so far. -/
  choices : Choices
  /-- The option not tested yet, with its value if it has one. -/
  pending : Option (Opt × Option Bytes)
  /-- Whether `--` was read. -/
  terminated : Bool
  deriving DecidableEq

namespace Reading

/-- Nothing is read yet. -/
def start : Reading := ⟨.empty, none, false⟩

/-- Gives an option its value: it needs one, may not have one already, and the value must be
text that the option accepts, tested in this order. -/
def give (choices : Choices) (option : Opt) (value? : Option Bytes) : Except Fault Choices :=
  match value? with
  | none => .error (.missingValue option)
  | some value =>
      if choices.has option then .error (.repeated option)
      else
        match Utf8.decode? value with
        | none => .error .notUtf8
        | some text => (choices.give option text).mapError (.badValue option text)

/-- Tests the pending option and gives it its value. -/
def resolve (reading : Reading) : Except Fault Choices :=
  match reading.pending with
  | none => .ok reading.choices
  | some (option, value?) => give reading.choices option value?

/-- Reads a word. -/
def readWord (reading : Reading) : Word → Except Stop Reading
  | .terminator => .ok { reading with terminated := true }
  | .flag flag => do
      let _ ← reading.resolve.mapError .fault
      .error (.flag flag)
  | .flagValue flag value =>
      .error (.fault (.unexpectedValue flag (Utf8.decodeLossy value)))
  | .option option => do
      let choices ← reading.resolve.mapError .fault
      .ok { reading with choices, pending := some (option, none) }
  | .optionValue option value => do
      let choices ← reading.resolve.mapError .fault
      let choices ← (give choices option (some value)).mapError .fault
      .ok { reading with choices, pending := none }
  | .unknown shown => .error (.fault (.unexpectedArgument shown))
  | .operand value =>
      match reading.pending with
      | some (option, none) => .ok { reading with pending := some (option, some value) }
      | _ => .error (.fault (.unexpectedArgument (Utf8.decodeLossy value)))

/-- Reads an argument.  After `--` every argument is one too many. -/
def readArgument (reading : Reading) (argument : Bytes) : Except Stop Reading :=
  if reading.terminated then
    .error (.fault (.unexpectedArgument (Utf8.decodeLossy argument)))
  else
    reading.readWord (.ofArgument argument)

/-- Reads arguments in order. -/
def readAll : Reading → List Bytes → Except Stop Reading
  | reading, [] => .ok reading
  | reading, argument :: rest => do
      let reading ← reading.readArgument argument
      readAll reading rest

end Reading

/-- The choices of a command line, or why there are none. -/
def read (arguments : List Bytes) : Except Stop Choices := do
  let reading ← Reading.start.readAll arguments
  reading.resolve.mapError .fault

end OrderFlow.CommandLine
