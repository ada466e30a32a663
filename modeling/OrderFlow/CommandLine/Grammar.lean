import OrderFlow.CommandLine.Word

/-!
# The grammar of the command line

Which command lines are accepted, and what they mean, without reference to how
they are read.  A command line is a sequence of segments, each an option with its
value in one argument or in two, perhaps followed by `--`.  No option occurs
twice, and each value is the UTF-8 form of a text that means something to its
option.
-/

namespace OrderFlow.CommandLine

/-- The type of an option's value. -/
abbrev Opt.Value : Opt → Type
  | .host => String
  | .port => Nat
  | .batchSize => Nat
  | .periodUs => Nat
  | .workers => Nat
  | .maxTicks => Nat
  | .seed => Nat
  | .connectTimeoutMs => Nat
  | .logLevel => Level

/-- The value that an option was given. -/
def Choices.get (choices : Choices) : (option : Opt) → Option option.Value
  | .host => choices.host
  | .port => choices.port
  | .batchSize => choices.batchSize
  | .periodUs => choices.periodUs
  | .workers => choices.workers
  | .maxTicks => choices.maxTicks
  | .seed => choices.seed
  | .connectTimeoutMs => choices.connectTimeoutMs
  | .logLevel => choices.logLevel

namespace Grammar

/-- An option with its value, in one argument or in two. -/
inductive Segment where
  | joined (option : Opt) (value : Bytes)
  | separate (option : Opt) (value : Bytes)

namespace Segment

/-- The option of a segment. -/
def option : Segment → Opt
  | .joined option _ => option
  | .separate option _ => option

/-- The value of a segment. -/
def value : Segment → Bytes
  | .joined _ value => value
  | .separate _ value => value

/-- The arguments of a segment. -/
def arguments : Segment → List Bytes
  | .joined option value => [dash :: dash :: asciiBytes option.name ++ equals :: value]
  | .separate option value => [dash :: dash :: asciiBytes option.name, value]

/-- A value in an argument of its own starts with no dash, unless it is a dash alone. -/
def WellFormed : Segment → Prop
  | .joined _ _ => True
  | .separate _ value => value.head? = some dash → value = [dash]

end Segment

/-- The UTF-8 form of a text. -/
def encode (text : List Char) : Bytes :=
  text.flatMap String.utf8EncodeChar

/-- A number written in decimal digits. -/
def Digits (text : List Char) (n : Nat) : Prop :=
  text ≠ [] ∧ (∀ c ∈ text, c.isDigit) ∧ Nat.ofDigitChars 10 text 0 = n

/-- A number of 64 bits: digits, perhaps after a plus sign. -/
inductive IsWord : List Char → Nat → Prop where
  | bare {text : List Char} {n : Nat} (digits : Digits text n) (fits : n < UInt64.size) :
      IsWord text n
  | plus {text : List Char} {n : Nat} (digits : Digits text n) (fits : n < UInt64.size) :
      IsWord ('+' :: text) n

/-- A port: digits, perhaps after a sign; only zero has a minus sign. -/
inductive IsPort : List Char → Nat → Prop where
  | bare {text : List Char} {n : Nat} (digits : Digits text n) (fits : n < UInt16.size) :
      IsPort text n
  | plus {text : List Char} {n : Nat} (digits : Digits text n) (fits : n < UInt16.size) :
      IsPort ('+' :: text) n
  | minusZero {text : List Char} (digits : Digits text 0) : IsPort ('-' :: text) 0

/-- A level: its number, or its name in any case. -/
inductive IsLevel : List Char → Level → Prop where
  | number {text : List Char} {level : Level} (word : IsWord text level.detail) :
      IsLevel text level
  | name {text : List Char} {level : Level}
      (spelled : text.map Char.toLower = level.name.toList) : IsLevel text level

/-- What a text means as the value of an option. -/
def Means : (option : Opt) → List Char → option.Value → Prop
  | .host, text, host => host = String.ofList text
  | .port, text, n => IsPort text n
  | .batchSize, text, n => IsWord text n
  | .periodUs, text, n => IsWord text n
  | .workers, text, n => IsWord text n
  | .maxTicks, text, n => IsWord text n
  | .seed, text, n => IsWord text n
  | .connectTimeoutMs, text, n => IsWord text n
  | .logLevel, text, level => IsLevel text level

/-- The value of a segment means something to its option. -/
def Segment.Gives (segment : Segment) (value : segment.option.Value) : Prop :=
  ∃ text, encode text = segment.value ∧ Means segment.option text value

/-- Segments give exactly the values of some choices. -/
structure Yields (segments : List Segment) (choices : Choices) : Prop where
  distinct : (segments.map Segment.option).Nodup
  wellFormed : ∀ segment ∈ segments, segment.WellFormed
  given : ∀ segment ∈ segments, ∃ value,
    segment.Gives value ∧ choices.get segment.option = some value
  absent : ∀ option, option ∉ segments.map Segment.option → choices.get option = none

/-- A command line is accepted and means some choices. -/
def Accepts (arguments : List Bytes) (choices : Choices) : Prop :=
  ∃ segments : List Segment, ∃ closing : List Bytes,
    (closing = [] ∨ closing = [[dash, dash]]) ∧
    arguments = segments.flatMap Segment.arguments ++ closing ∧
    Yields segments choices

end Grammar

end OrderFlow.CommandLine
