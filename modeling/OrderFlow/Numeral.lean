/-!
# Reading whole numbers

A number is an optional sign and decimal digits.  The characters are read from
the left and the first trouble decides the fault: for each character it is
tested whether it is a digit, and then whether the value still fits.
-/

namespace OrderFlow.Numeral

/-- Why a text is no number of the wanted range. -/
inductive Fault where
  | empty
  | invalidDigit
  | tooLarge
  | tooSmall
  deriving DecidableEq

/-- The wording of a fault. -/
def Fault.message : Fault → String
  | .empty => "cannot parse integer from empty string"
  | .invalidDigit => "invalid digit found in string"
  | .tooLarge => "number too large to fit in target type"
  | .tooSmall => "number too small to fit in target type"

/-- The greatest number of 64 bits. -/
def maxWord : Nat := UInt64.size - 1

/-- Reads digits after a value already read; `overflow` is the fault of exceeding `limit`. -/
def readDigits (limit : Nat) (overflow : Fault) : Nat → List Char → Except Fault Nat
  | value, [] => .ok value
  | value, c :: rest =>
      if c.isDigit then
        let value := 10 * value + (c.toNat - '0'.toNat)
        if value ≤ limit then readDigits limit overflow value rest else .error overflow
      else
        .error .invalidDigit

/-- Reads a number from zero to `limit`: an optional `+`, then digits. -/
def unsigned (limit : Nat) : List Char → Except Fault Nat
  | [] => .error .empty
  | ['+'] => .error .invalidDigit
  | '+' :: digits => readDigits limit .tooLarge 0 digits
  | digits => readDigits limit .tooLarge 0 digits

/-- Reads a signed number of 64 bits: an optional sign, then digits. -/
def signed : List Char → Except Fault Int
  | [] => .error .empty
  | ['+'] => .error .invalidDigit
  | ['-'] => .error .invalidDigit
  | '+' :: digits => (readDigits (UInt64.size / 2 - 1) .tooLarge 0 digits).map Int.ofNat
  | '-' :: digits => (readDigits (UInt64.size / 2) .tooSmall 0 digits).map fun n => -Int.ofNat n
  | digits => (readDigits (UInt64.size / 2 - 1) .tooLarge 0 digits).map Int.ofNat

end OrderFlow.Numeral
