import OrderFlow.Generator.Stream

/-!
# Drawing in portions

The orders that a generator gives one by one are those of its stream in order, and
it makes no difference to them in which portions they are drawn.
-/

namespace OrderFlow.Generator

/-- The first orders of the stream of a generator. -/
def firstOrders (generator : Generator) (count : Nat) : List Order :=
  (List.range count).map generator.orderAt

@[simp] theorem length_firstOrders (generator : Generator) (count : Nat) :
    (generator.firstOrders count).length = count := by
  simp [firstOrders]

theorem after_after (generator : Generator) (m n : Nat) :
    (generator.after m).after n = generator.after (m + n) := by
  induction n with
  | zero => rfl
  | succ n ih => rw [after, ih, ← Nat.add_assoc, after]

theorem orderAt_after (generator : Generator) (m n : Nat) :
    (generator.after m).orderAt n = generator.orderAt (m + n) := by
  rw [orderAt, after_after, orderAt]

theorem firstOrders_add (generator : Generator) (m n : Nat) :
    generator.firstOrders (m + n) =
      generator.firstOrders m ++ (generator.after m).firstOrders n := by
  rw [firstOrders, List.range_add, List.map_append, List.map_map]
  refine congrArg (generator.firstOrders m ++ ·) (List.map_congr_left ?_)
  intro i _
  exact (orderAt_after generator m i).symm

/-- Orders drawn together are the first ones of the stream. -/
theorem take_eq (count : Nat) (generator : Generator) :
    take count generator = (generator.firstOrders count, generator.after count) := by
  induction count generalizing generator with
  | zero => rfl
  | succ count ih =>
      have hnext : take (count + 1) generator =
          (generator.next.1 :: (take count generator.next.2).1,
            (take count generator.next.2).2) := rfl
      rw [hnext, ih, Nat.add_comm count 1, firstOrders_add, ← after_after]
      rfl

/-- A generator gives some orders, no more, and becomes another. -/
structure Yields (generator : Generator) (orders : List Order) (later : Generator) : Prop where
  inOrder : orders = generator.firstOrders orders.length
  moved : later = generator.after orders.length

theorem Yields.nil (generator : Generator) : Yields generator [] generator :=
  ⟨rfl, rfl⟩

theorem Yields.next (generator : Generator) :
    Yields generator [generator.next.1] generator.next.2 :=
  ⟨rfl, rfl⟩

theorem Yields.append {first second third : Generator} {xs ys : List Order}
    (hxs : Yields first xs second) (hys : Yields second ys third) :
    Yields first (xs ++ ys) third := by
  constructor
  · rw [List.length_append, firstOrders_add, ← hxs.inOrder, ← hxs.moved, ← hys.inOrder]
  · rw [List.length_append, ← after_after, ← hxs.moved, hys.moved]

end OrderFlow.Generator
