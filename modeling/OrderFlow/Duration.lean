/-!
# Durations

A duration is a whole number of nanoseconds.  It is written in the largest unit
that gives at least one, with the exact decimal fraction and no trailing zeros.
-/

namespace OrderFlow

/-- A span of time. -/
structure Duration where
  nanos : Nat
  deriving DecidableEq

namespace Duration

/-- So many microseconds. -/
def ofMicros (n : Nat) : Duration := ⟨n * 1000⟩

/-- So many milliseconds. -/
def ofMillis (n : Nat) : Duration := ⟨n * 1000000⟩

/-- The digits of a fraction with `places` places, without the zeros at its end. -/
def fractionDigits : (places : Nat) → (value : Nat) → List Char
  | 0, _ => []
  | places + 1, value =>
      if value = 0 then []
      else
        Nat.digitChar (value / Nat.pow 10 places) ::
          fractionDigits places (value % Nat.pow 10 places)

/-- `value` units of `10 ^ places` as a decimal number. -/
def decimal (places value : Nat) : String :=
  let whole := toString (value / Nat.pow 10 places)
  match fractionDigits places (value % Nat.pow 10 places) with
  | [] => whole
  | digits => whole ++ "." ++ String.ofList digits

/-- The text of a duration, such as `1.5ms`. -/
def text (d : Duration) : String :=
  if 1000000000 ≤ d.nanos then decimal 9 d.nanos ++ "s"
  else if 1000000 ≤ d.nanos then decimal 6 d.nanos ++ "ms"
  else if 1000 ≤ d.nanos then decimal 3 d.nanos ++ "µs"
  else decimal 0 d.nanos ++ "ns"

end Duration

end OrderFlow
