import OrderFlow.Generator.Stream

/-!
# Generated values

Quantities and prices are drawn between their bounds, whatever the keystream holds, and both
bounds are single digits.  So all generated orders are written in lines of one length.
-/

namespace OrderFlow.Generator

/-- The quotient of a product with something added is that of the exact sum. -/
theorem div_add_carry (product extra size : Nat) (hsize : 0 < size) :
    product / size + (product % size + extra) / size = (product + extra) / size := by
  calc product / size + (product % size + extra) / size
      = (size * (product / size) + (product % size + extra)) / size :=
        (Nat.mul_add_div hsize _ _).symm
    _ = (product + extra) / size := by rw [← Nat.add_assoc, Nat.div_add_mod]

/-- A word scaled to so many values falls short of the end even with the greatest carry. -/
theorem scaled_add_lt (x : UInt64) {extra most : Nat} (h : extra ≤ most) :
    x.toNat * (most + 1) + extra < UInt64.size * (most + 1) := by
  have hscaled : (x.toNat + 1) * (most + 1) ≤ UInt64.size * (most + 1) :=
    Nat.mul_le_mul_right _ x.toNat_lt_size
  rw [Nat.succ_mul] at hscaled
  omega

/-- A draw is within its bounds, also when a second draw settles the carry. -/
theorem drawBetween_mem {low high : Nat} (h : low ≤ high) (stream : Keystream) :
    low ≤ (drawBetween low high stream).1 ∧ (drawBetween low high stream).1 ≤ high := by
  have hscaled : ∀ (x : UInt64) {extra : Nat}, extra ≤ high - low →
      (x.toNat * (high - low + 1) + extra) / UInt64.size ≤ high - low := fun x _ hextra =>
    Nat.le_of_lt_succ (Nat.div_lt_of_lt_mul (scaled_add_lt x hextra))
  have hquotient : ∀ x : UInt64, x.toNat * (high - low + 1) / UInt64.size ≤ high - low :=
    fun x => hscaled x (Nat.zero_le _)
  unfold drawBetween
  dsimp only
  split
  · have hvalue := hquotient stream.draw.1
    exact ⟨Nat.le_add_right low _, by dsimp only; omega⟩
  · have hvalue := hscaled stream.draw.1 (hquotient stream.draw.2.draw.1)
    rw [← div_add_carry _ _ _ (by decide)] at hvalue
    exact ⟨Nat.le_trans (Nat.le_add_right low _) (Nat.le_add_right _ _), by dsimp only; omega⟩

/-- What is drawn of a generated order lies between the bounds of all generated values. -/
theorem next_mem (generator : Generator) :
    minValue ≤ generator.next.1.quantity ∧ generator.next.1.quantity ≤ maxValue ∧
      minValue ≤ generator.next.1.price ∧ generator.next.1.price ≤ maxValue := by
  have hbounds : minValue ≤ maxValue := by decide
  obtain ⟨hleast, hmost⟩ := drawBetween_mem hbounds (drawSide generator.stream).2
  obtain ⟨hleast', hmost'⟩ :=
    drawBetween_mem hbounds (drawBetween minValue maxValue (drawSide generator.stream).2).2
  unfold next
  exact ⟨hleast, hmost, hleast', hmost'⟩

/-- The number of characters in the line of a generated order. -/
def lineWidth : Nat := 7

/-- All generated orders are written in lines of one length. -/
theorem length_line_next (generator : Generator) :
    generator.next.1.line.length = lineWidth := by
  obtain ⟨_, hquantity, _, hprice⟩ := next_mem generator
  have hdigit : ∀ n ≤ maxValue, (Order.digits n).length = 1 := by decide
  rw [Order.length_line, hdigit _ hquantity, hdigit _ hprice, lineWidth]

theorem length_line_orderAt (generator : Generator) (n : Nat) :
    (generator.orderAt n).line.length = lineWidth :=
  length_line_next (generator.after n)

end OrderFlow.Generator
