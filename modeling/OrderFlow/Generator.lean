import OrderFlow.Keystream
import OrderFlow.Order

/-!
# The order generator

An order takes three draws: one decides the side, one the quantity, one the
price.  Quantity and price are drawn evenly from `minValue` to `maxValue`.
-/

namespace OrderFlow

/-- The least generated quantity and price. -/
def minValue : Nat := 1

/-- The greatest generated quantity and price. -/
def maxValue : Nat := 4

/-- A source of orders, all of whose users share its position in one keystream. -/
structure Generator where
  stream : Keystream

namespace Generator

/-- The generator of a seed, before its first order. -/
def seeded (seed : UInt64) : Generator :=
  ⟨Keystream.ofSeed seed⟩

/-- Draws a side; both are equally likely. -/
def drawSide (stream : Keystream) : Side × Keystream :=
  let (x, stream) := stream.draw
  (if x.toNat < UInt64.size / 2 then .buy else .sell, stream)

/-- Draws from `low` to `high`, both included.

The draw is scaled to the number of values by a widening product, whose high half picks the
value.  Only where the low half leaves it open which value is meant, a second draw settles
the carry. -/
def drawBetween (low high : Nat) (stream : Keystream) : Nat × Keystream :=
  let count := high - low + 1
  let (x, stream) := stream.draw
  let product := x.toNat * count
  let value := low + product / UInt64.size
  if product % UInt64.size ≤ UInt64.size - count then
    (value, stream)
  else
    let (y, stream) := stream.draw
    let carry := (product % UInt64.size + y.toNat * count / UInt64.size) / UInt64.size
    (value + carry, stream)

/-- The next order, and the generator after it. -/
def next (generator : Generator) : Order × Generator :=
  let (side, stream) := drawSide generator.stream
  let (quantity, stream) := drawBetween minValue maxValue stream
  let (price, stream) := drawBetween minValue maxValue stream
  (⟨side, quantity, price⟩, ⟨stream⟩)

/-- The next `n` orders, and the generator after them. -/
def take : Nat → Generator → List Order × Generator
  | 0, generator => ([], generator)
  | n + 1, generator =>
      let (order, generator) := generator.next
      let (orders, generator) := take n generator
      (order :: orders, generator)

end Generator

end OrderFlow
