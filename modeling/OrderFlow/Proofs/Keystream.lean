import OrderFlow.Keystream

/-!
# The keystream by position

Words taken one by one from the keystream of a seed are its words by position: where a
block ends, none is left out and none is given twice.  The number of words taken tells where
the stream stands, so that `standingAt` is the stream there and then, without what came before.
-/

namespace OrderFlow.Keystream

/-- The stream after `count` words. -/
def after (stream : Keystream) : Nat → Keystream
  | 0 => stream
  | count + 1 => (stream.after count).next.2

/-- How many blocks have to be computed for so many words. -/
def blocksFor (count : Nat) : Nat :=
  (count + 15) / 16

/-- The keystream of a seed with `count` words taken: the words up to the end of the block that
is begun are left, and the block after it is the next to compute. -/
def standingAt (seed : UInt64) (count : Nat) : Keystream where
  key := Key.ofSeed seed
  counter := UInt64.ofNat (blocksFor count)
  buffered := (List.range' count (16 * blocksFor count - count)).map (wordAt seed)

/-! ## Words of a block -/

/-- A word of the keystream stands in its block, and the numbers of blocks wrap around. -/
theorem getElem?_ofCounter (seed : UInt64) (j : Nat) :
    (Block.ofCounter (Key.ofSeed seed) (UInt64.ofNat (j / 16 % UInt64.size)))[j % 16]? =
      some (wordAt seed j) := by
  have hcounter : UInt64.ofNat (j / 16 % UInt64.size) = UInt64.ofNat (j / 16) :=
    UInt64.ofNat_mod_size
  rw [hcounter, wordAt, Vector.getElem?_eq_getElem]

theorem wordAt_of_block (seed : UInt64) (number : Nat) {i : Nat} (h : i < 16) :
    wordAt seed (16 * number + i) =
      (Block.ofCounter (Key.ofSeed seed) (UInt64.ofNat number))[i] := by
  have hblock : (16 * number + i) / 16 = number := by omega
  have hplace : (16 * number + i) % 16 = i := by omega
  simp only [wordAt, hblock, hplace]

/-- The words of a block are those of the keystream from the block's start. -/
theorem toList_ofCounter (seed : UInt64) (number : Nat) :
    (Block.ofCounter (Key.ofSeed seed) (UInt64.ofNat number)).toList =
      (List.range' (16 * number) 16).map (wordAt seed) := by
  apply List.ext_getElem
  · simp
  · intro i hi _
    have hplace : i < 16 := by simpa using hi
    simp [wordAt_of_block seed number hplace]

/-! ## Taking words -/

/-- Before the first word of a block nothing is left of the blocks before it. -/
theorem standingAt_start (seed : UInt64) (number : Nat) :
    standingAt seed (16 * number) = ⟨Key.ofSeed seed, UInt64.ofNat number, []⟩ := by
  have hblocks : blocksFor (16 * number) = number := by
    unfold blocksFor
    omega
  rw [standingAt, hblocks, Nat.sub_self, List.range'_zero, List.map_nil]

/-- After a word of a block the words behind it in the block are left. -/
theorem standingAt_within (seed : UInt64) (number : Nat) {i : Nat} (h : i < 16) :
    standingAt seed (16 * number + i + 1) =
      ⟨Key.ofSeed seed, UInt64.ofNat (number + 1),
        (List.range' (16 * number + i + 1) (15 - i)).map (wordAt seed)⟩ := by
  have hblocks : blocksFor (16 * number + i + 1) = number + 1 := by
    unfold blocksFor
    omega
  have hleft : 16 * (number + 1) - (16 * number + i + 1) = 15 - i := by omega
  rw [standingAt, hblocks, hleft]

/-- A stream with nothing left takes the first word of its next block and keeps the others. -/
theorem next_of_used_up (seed : UInt64) (number : Nat) :
    next ⟨Key.ofSeed seed, UInt64.ofNat number, []⟩ =
      (wordAt seed (16 * number), ⟨Key.ofSeed seed, UInt64.ofNat (number + 1),
        (List.range' (16 * number + 1) 15).map (wordAt seed)⟩) := by
  have hfirst : (Block.ofCounter (Key.ofSeed seed) (UInt64.ofNat number))[0] =
      wordAt seed (16 * number) :=
    (wordAt_of_block seed number (by decide)).symm
  have hothers : (Block.ofCounter (Key.ofSeed seed) (UInt64.ofNat number)).toList.drop 1 =
      (List.range' (16 * number + 1) 15).map (wordAt seed) := by
    rw [toList_ofCounter, List.drop_one, ← List.map_tail, List.tail_range']
  have hcounter : UInt64.ofNat number + 1 = UInt64.ofNat (number + 1) :=
    (UInt64.ofNat_add number 1).symm
  simp only [next, hfirst, hothers, hcounter]

/-- The next word is the one at the place where the stream stands, also where a block ends. -/
theorem next_standingAt (seed : UInt64) (count : Nat) :
    (standingAt seed count).next = (wordAt seed count, standingAt seed (count + 1)) := by
  obtain ⟨number, i, hi, rfl⟩ : ∃ number i, i < 16 ∧ count = 16 * number + i :=
    ⟨count / 16, count % 16, Nat.mod_lt _ (by decide), (Nat.div_add_mod count 16).symm⟩
  rw [standingAt_within seed number hi]
  cases i with
  | zero => rw [Nat.add_zero, standingAt_start, next_of_used_up]
  | succ i =>
      have hleft : 15 - i = 15 - (i + 1) + 1 := by omega
      rw [← Nat.add_assoc, standingAt_within seed number (Nat.lt_of_succ_lt hi), hleft,
        List.range'_succ, List.map_cons, next]

/-- The number of words taken tells where the keystream of a seed stands. -/
theorem after_ofSeed (seed : UInt64) (count : Nat) :
    (ofSeed seed).after count = standingAt seed count := by
  induction count with
  | zero => rfl
  | succ count ih => rw [after, ih, next_standingAt]

/-- Words taken one by one are the words by position. -/
theorem next_after_ofSeed (seed : UInt64) (j : Nat) :
    ((ofSeed seed).after j).next.1 = wordAt seed j := by
  rw [after_ofSeed, next_standingAt]

/-- A draw joins the two words from the place where the stream stands. -/
theorem draw_standingAt (seed : UInt64) (count : Nat) :
    (standingAt seed count).draw =
      (join (wordAt seed count) (wordAt seed (count + 1)), standingAt seed (count + 2)) := by
  simp only [draw, next_standingAt]

end OrderFlow.Keystream
