import OrderFlow.Numeral

/-!
# The log

A record is a level and a message.  The log keeps the records at or above a level
and writes each as its bare message and a line feed, control characters escaped.
-/

namespace OrderFlow

/-- How much a record matters. -/
inductive Level where
  | error
  | warn
  | info
  | debug
  | trace
  deriving DecidableEq

namespace Level

/-- How much detail a level asks for; a record is kept up to the detail asked for. -/
def detail : Level → Nat
  | .error => 1
  | .warn => 2
  | .info => 3
  | .debug => 4
  | .trace => 5

/-- The name of a level in lower case. -/
def name : Level → String
  | .error => "error"
  | .warn => "warn"
  | .info => "info"
  | .debug => "debug"
  | .trace => "trace"

/-- All levels. -/
def all : List Level := [.error, .warn, .info, .debug, .trace]

/-- The level a text names: a number from 1 to 5, or a name in any case. -/
def ofText? (text : List Char) : Option Level :=
  match Numeral.unsigned Numeral.maxWord text with
  | .ok n => all.find? fun level => level.detail == n
  | .error _ => all.find? fun level => level.name.toList == text.map Char.toLower

end Level

/-- A line for the log. -/
structure Record where
  level : Level
  message : String
  deriving DecidableEq

namespace Record

/-- The lower-case hexadecimal digits of a number. -/
def hex (n : Nat) : List Char := Nat.toDigits 16 n

/-- A character as it is written in a message: the control characters that move a terminal
about are spelled out. -/
def escape (c : Char) : List Char :=
  if c = '\x1b' ∨ c = '\x07' ∨ c = '\x08' ∨ c = '\x0c' ∨ c = '\x7f' then
    '\\' :: 'x' :: (if c.toNat < 16 then '0' :: hex c.toNat else hex c.toNat)
  else if 0x80 ≤ c.toNat ∧ c.toNat ≤ 0x9f then
    '\\' :: 'u' :: '\x7b' :: (hex c.toNat ++ ['\x7d'])
  else
    [c]

/-- The line a record is written as. -/
def line (record : Record) : String :=
  String.ofList (record.message.toList.flatMap escape) ++ "\n"

/-- Whether a log of some detail keeps a record. -/
def kept (threshold : Level) (record : Record) : Bool :=
  record.level.detail ≤ threshold.detail

/-- The text of a log that keeps the records up to a level. -/
def text (threshold : Level) (records : List Record) : String :=
  String.join ((records.filter (kept threshold)).map line)

end Record

end OrderFlow
