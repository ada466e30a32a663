/-!
# Reading bytes as text

Bytes are read as UTF-8 one by one.  Each stretch of bytes that cannot be part
of a character is one error, shown as U+FFFD where text is wanted all the same.
`decode?` gives the text of bytes without an error.
-/

namespace OrderFlow

/-- Raw bytes, such as an argument of the command line. -/
abbrev Bytes := List UInt8

namespace Utf8

/-- A character of which some bytes are read: how many more follow after the next, the range
of the next byte, and the value so far. -/
structure Partial where
  more : Nat
  least : UInt8
  greatest : UInt8
  value : Nat

/-- What a first byte starts: a character of one byte, a longer character, or nothing. -/
inductive Lead where
  | whole (c : Char)
  | opens (start : Partial)
  | invalid

/-- What a byte starts.  The narrower ranges keep out overlong forms, surrogates and values
over U+10FFFF. -/
def lead (b : UInt8) : Lead :=
  let n := b.toNat
  if n < 0x80 then .whole (Char.ofNat n)
  else if n < 0xC2 then .invalid
  else if n < 0xE0 then .opens ⟨0, 0x80, 0xBF, n - 0xC0⟩
  else if n = 0xE0 then .opens ⟨1, 0xA0, 0xBF, 0⟩
  else if n = 0xED then .opens ⟨1, 0x80, 0x9F, 0xD⟩
  else if n < 0xF0 then .opens ⟨1, 0x80, 0xBF, n - 0xE0⟩
  else if n = 0xF0 then .opens ⟨2, 0x90, 0xBF, 0⟩
  else if n < 0xF4 then .opens ⟨2, 0x80, 0xBF, n - 0xF0⟩
  else if n = 0xF4 then .opens ⟨2, 0x80, 0x8F, 4⟩
  else .invalid

/-- The characters and errors (`none`) of some bytes, after a character already begun. -/
def scanFrom : Option Partial → Bytes → List (Option Char)
  | none, [] => []
  | some _, [] => [none]
  | none, b :: rest =>
      match lead b with
      | .whole c => some c :: scanFrom none rest
      | .opens start => scanFrom (some start) rest
      | .invalid => none :: scanFrom none rest
  | some begun, b :: rest =>
      if begun.least ≤ b ∧ b ≤ begun.greatest then
        let value := begun.value * 64 + b.toNat % 64
        match begun.more with
        | 0 => some (Char.ofNat value) :: scanFrom none rest
        | more + 1 => scanFrom (some ⟨more, 0x80, 0xBF, value⟩) rest
      else
        match lead b with
        | .whole c => none :: some c :: scanFrom none rest
        | .opens start => none :: scanFrom (some start) rest
        | .invalid => none :: none :: scanFrom none rest

/-- The characters and errors of some bytes. -/
def scan (bytes : Bytes) : List (Option Char) :=
  scanFrom none bytes

/-- The text of some bytes, if they are UTF-8. -/
def decode? (bytes : Bytes) : Option (List Char) :=
  (scan bytes).mapM id

/-- The text of some bytes, with U+FFFD for each error. -/
def decodeLossy (bytes : Bytes) : List Char :=
  (scan bytes).map fun c => c.getD '\uFFFD'

end Utf8

end OrderFlow
