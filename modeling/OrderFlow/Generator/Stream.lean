import OrderFlow.Generator

/-!
# The order stream by position

`Generator.after` is the generator after some orders were drawn, and `orderAt`
the order at a position.  `orderOfWords` computes the same order straight from
six words of the keystream.
-/

namespace OrderFlow.Generator

/-- The generator after `n` orders. -/
def after (generator : Generator) : Nat → Generator
  | 0 => generator
  | n + 1 => (generator.after n).next.2

/-- The order at position `n`, counted from zero. -/
def orderAt (generator : Generator) (n : Nat) : Order :=
  (generator.after n).next.1

/-- The value of a draw by its two leading bits. -/
def valueOf (x : UInt64) : Nat :=
  minValue + (x >>> 62).toNat

/-- The side of a draw by its leading bit. -/
def sideOf (x : UInt64) : Side :=
  if x < 0x8000000000000000 then .buy else .sell

/-- Draw `n` of the keystream of a seed: words `2 n` and `2 n + 1`. -/
def drawAt (seed : UInt64) (n : Nat) : UInt64 :=
  Keystream.join (Keystream.wordAt seed (2 * n)) (Keystream.wordAt seed (2 * n + 1))

/-- The order at position `n` of the stream of a seed, computed from keystream words
`6 n` to `6 n + 5` alone. -/
def orderOfWords (seed : UInt64) (n : Nat) : Order where
  side := sideOf (drawAt seed (3 * n))
  quantity := valueOf (drawAt seed (3 * n + 1))
  price := valueOf (drawAt seed (3 * n + 2))

end OrderFlow.Generator
