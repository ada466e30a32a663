import OrderFlow.Proofs.Generator.Stream
import OrderFlow.Proofs.Generator.Values
import OrderFlow.Proofs.Keystream

/-!
# Orders by position

An order takes three draws, whatever they are: the number of values divides the number of
draws, so that a draw never leaves open which value is meant.  So the orders of a seed take six
words of its keystream each, one order after the other, and an order can be computed from its
six words alone.
-/

namespace OrderFlow.Generator

/-! ## Three draws an order -/

/-- A multiple of a divisor leaves a remainder that falls short of the size by the divisor. -/
theorem mod_le_sub_of_dvd {count size product : Nat} (hsize : 0 < size) (hcount : count ∣ size)
    (hproduct : count ∣ product) : product % size ≤ size - count := by
  have hlt : product % size < size := Nat.mod_lt product hsize
  have hshort : count ∣ size - product % size :=
    Nat.dvd_sub hcount ((Nat.dvd_mod_iff hcount).mpr hproduct)
  have hle : count ≤ size - product % size := Nat.le_of_dvd (Nat.sub_pos_of_lt hlt) hshort
  omega

/-- Where the draws fall into as many equal parts as there are values, one draw settles which
value is meant. -/
theorem drawBetween_of_dvd {low high : Nat} (h : high - low + 1 ∣ UInt64.size)
    (stream : Keystream) :
    drawBetween low high stream =
      (low + stream.draw.1.toNat * (high - low + 1) / UInt64.size, stream.draw.2) := by
  have hsettled : stream.draw.1.toNat * (high - low + 1) % UInt64.size ≤
      UInt64.size - (high - low + 1) :=
    mod_le_sub_of_dvd (by decide) h (Nat.dvd_mul_left _ _)
  unfold drawBetween
  exact if_pos hsettled

/-- A value scaled from a draw is told by the two leading bits of the draw. -/
theorem scaled_eq_valueOf (x : UInt64) :
    minValue + x.toNat * (maxValue - minValue + 1) / UInt64.size = valueOf x := by
  have hbits : (x >>> 62).toNat = x.toNat / 2 ^ 62 := by
    rw [UInt64.toNat_shiftRight, Nat.shiftRight_eq_div_pow]
    rfl
  have hcount : maxValue - minValue + 1 = 4 := by decide
  have hsize : UInt64.size = 2 ^ 62 * 4 := by decide
  rw [valueOf, hbits, hcount, hsize, Nat.mul_div_mul_right _ _ (by decide)]

/-- A quantity or a price takes one draw. -/
theorem drawBetween_values (stream : Keystream) :
    drawBetween minValue maxValue stream = (valueOf stream.draw.1, stream.draw.2) := by
  rw [drawBetween_of_dvd (by decide), scaled_eq_valueOf]

theorem drawSide_eq (stream : Keystream) :
    drawSide stream = (sideOf stream.draw.1, stream.draw.2) := rfl

/-- An order takes three draws, whatever they are. -/
theorem next_eq (generator : Generator) :
    generator.next =
      (⟨sideOf generator.stream.draw.1, valueOf generator.stream.draw.2.draw.1,
          valueOf generator.stream.draw.2.draw.2.draw.1⟩,
        ⟨generator.stream.draw.2.draw.2.draw.2⟩) := by
  simp only [next, drawSide_eq, drawBetween_values]

/-! ## Six words an order -/

open Keystream (join wordAt)

theorem orderOfWords_eq (seed : UInt64) (n : Nat) :
    orderOfWords seed n =
      { side := sideOf (join (wordAt seed (6 * n)) (wordAt seed (6 * n + 1)))
        quantity := valueOf (join (wordAt seed (6 * n + 2)) (wordAt seed (6 * n + 3)))
        price := valueOf (join (wordAt seed (6 * n + 4)) (wordAt seed (6 * n + 5))) } := by
  have hside : 2 * (3 * n) = 6 * n := by omega
  have hquantity : 2 * (3 * n + 1) = 6 * n + 2 := by omega
  have hprice : 2 * (3 * n + 2) = 6 * n + 4 := by omega
  simp only [orderOfWords, drawAt, hside, hquantity, hprice]

/-- A generator that stands at the first word of an order gives the order of these words, and
then stands at the first word of the next one. -/
theorem next_standingAt (seed : UInt64) (n : Nat) :
    next ⟨Keystream.standingAt seed (6 * n)⟩ =
      (orderOfWords seed n, ⟨Keystream.standingAt seed (6 * (n + 1))⟩) := by
  rw [next_eq, orderOfWords_eq, Nat.mul_succ]
  simp only [Keystream.draw_standingAt]

/-- So many orders of a seed leave its keystream where six words for each of them do. -/
theorem after_seeded (seed : UInt64) (n : Nat) :
    (seeded seed).after n = ⟨(Keystream.ofSeed seed).after (6 * n)⟩ := by
  rw [Keystream.after_ofSeed]
  induction n with
  | zero => rfl
  | succ n ih => rw [after, ih, next_standingAt]

theorem orderAt_seeded (seed : UInt64) (n : Nat) :
    (seeded seed).orderAt n = orderOfWords seed n := by
  rw [orderAt, after_seeded, Keystream.after_ofSeed, next_standingAt]

/-- The orders of a seed are those computed from its keystream by position, and to draw some of
them takes six words each and no more.  The words taken one by one are the words of the blocks
in order, whose numbers wrap around.  An order takes three draws from any stream, whatever
these are, and its quantity and price are within their bounds. -/
theorem orders_computed_by_position (seed : UInt64) :
    (∀ n, (seeded seed).orderAt n = orderOfWords seed n ∧
      orderOfWords seed n =
        { side := sideOf (join (wordAt seed (6 * n)) (wordAt seed (6 * n + 1)))
          quantity := valueOf (join (wordAt seed (6 * n + 2)) (wordAt seed (6 * n + 3)))
          price := valueOf (join (wordAt seed (6 * n + 4)) (wordAt seed (6 * n + 5))) }) ∧
    (∀ count, take count (seeded seed) =
      ((List.range count).map (orderOfWords seed),
        ⟨(Keystream.ofSeed seed).after (6 * count)⟩)) ∧
    (∀ j, ((Keystream.ofSeed seed).after j).next.1 = wordAt seed j ∧
      (Block.ofCounter (Key.ofSeed seed) (UInt64.ofNat (j / 16 % UInt64.size)))[j % 16]? =
        some (wordAt seed j)) ∧
    (∀ generator : Generator, generator.next =
      ({ side := sideOf generator.stream.draw.1
         quantity := valueOf generator.stream.draw.2.draw.1
         price := valueOf generator.stream.draw.2.draw.2.draw.1 },
        ⟨generator.stream.draw.2.draw.2.draw.2⟩)) ∧
    (∀ stream, drawBetween minValue maxValue stream = (valueOf stream.draw.1, stream.draw.2)) ∧
    ∀ n, minValue ≤ ((seeded seed).orderAt n).quantity ∧
      ((seeded seed).orderAt n).quantity ≤ maxValue ∧
      minValue ≤ ((seeded seed).orderAt n).price ∧
      ((seeded seed).orderAt n).price ≤ maxValue := by
  refine ⟨fun n => ⟨orderAt_seeded seed n, orderOfWords_eq seed n⟩, fun count => ?_,
    fun j => ⟨Keystream.next_after_ofSeed seed j, Keystream.getElem?_ofCounter seed j⟩, next_eq,
    drawBetween_values, fun n => next_mem ((seeded seed).after n)⟩
  have horders : (seeded seed).firstOrders count = (List.range count).map (orderOfWords seed) :=
    List.map_congr_left fun n _ => orderAt_seeded seed n
  rw [take_eq, horders, after_seeded]

/-- The third order of a seed takes the last words of one block and the first words of the next. -/
example : orderOfWords 0 2 = ⟨.buy, 4, 3⟩ := by decide +kernel

end OrderFlow.Generator
