import OrderFlow.CommandLine.Choices

/-!
# Arguments by their shape

An argument is told apart by its first characters alone: `--` ends the options,
`--name` and `--name=value` name an option or a flag, `-c` is a flag of one
character, and anything else, a lone dash and the empty text included, is an
operand.
-/

namespace OrderFlow.CommandLine

/-- The flags that take no value. -/
inductive Flag where
  | help
  | version
  deriving DecidableEq

/-- The name of a flag, as it follows two dashes. -/
def Flag.name : Flag → String
  | .help => "help"
  | .version => "version"

/-- The bytes of a text of ASCII characters. -/
def asciiBytes (text : String) : Bytes :=
  text.toList.map fun c => c.toNat.toUInt8

/-- The dash. -/
def dash : UInt8 := 0x2D

/-- The equals sign. -/
def equals : UInt8 := 0x3D

/-- What an argument is by its shape. -/
inductive Word where
  /-- `--` alone. -/
  | terminator
  /-- A flag. -/
  | flag (flag : Flag)
  /-- A flag with a value, which it cannot have. -/
  | flagValue (flag : Flag) (value : Bytes)
  /-- An option whose value is the next operand. -/
  | option (option : Opt)
  /-- An option with its value. -/
  | optionValue (option : Opt) (value : Bytes)
  /-- A name or a flag that does not exist, as it is shown. -/
  | unknown (shown : List Char)
  /-- Anything else. -/
  | operand (value : Bytes)
  deriving DecidableEq

namespace Word

/-- The option with a name. -/
def option? (name : Bytes) : Option Opt :=
  Opt.all.find? fun candidate => asciiBytes candidate.name == name

/-- The flag with a name. -/
def flag? (name : Bytes) : Option Flag :=
  [Flag.help, Flag.version].find? fun candidate => asciiBytes candidate.name == name

/-- A text split at its first equals sign, if it has one. -/
def splitValue (text : Bytes) : Bytes × Option Bytes :=
  match text.dropWhile (· != equals) with
  | [] => (text, none)
  | _ :: value => (text.takeWhile (· != equals), some value)

/-- The word of what follows two dashes. -/
def ofLong (text : Bytes) : Word :=
  let (name, value?) := splitValue text
  match option? name, flag? name, value? with
  | some found, _, none => .option found
  | some found, _, some value => .optionValue found value
  | none, some found, none => .flag found
  | none, some found, some value => .flagValue found value
  | none, none, _ => .unknown ('-' :: '-' :: Utf8.decodeLossy name)

/-- The word of what follows a single dash: its first character decides, and is shown alone
unless its bytes are no character. -/
def ofShort (text : Bytes) : Word :=
  match Utf8.scan text with
  | some c :: _ =>
      if c = 'h' then .flag .help
      else if c = 'V' then .flag .version
      else .unknown ['-', c]
  | _ => .unknown ('-' :: Utf8.decodeLossy text)

/-- The word of an argument. -/
def ofArgument (argument : Bytes) : Word :=
  match argument with
  | [] => .operand []
  | first :: text =>
      if first = dash then
        match text with
        | [] => .operand argument
        | second :: long =>
            if second = dash then
              if long = [] then .terminator else ofLong long
            else
              ofShort text
      else
        .operand argument

end Word

end OrderFlow.CommandLine
