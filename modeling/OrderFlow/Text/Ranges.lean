/-!
# Sets of characters

A set of characters is written as the ranges of their code points.
-/

namespace OrderFlow.Text

/-- A set of code points: closed ranges. -/
abbrev Ranges := List (Nat × Nat)

namespace Ranges

/-- Whether a code point lies in one of the ranges. -/
def covers (ranges : Ranges) (n : Nat) : Bool :=
  ranges.any fun range => range.1 ≤ n && n ≤ range.2

end Ranges

end OrderFlow.Text
