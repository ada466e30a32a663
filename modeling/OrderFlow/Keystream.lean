/-!
# The keystream behind the order generator

The generator draws from the keystream of the ChaCha cipher with twelve rounds.
`Keystream.next` hands out its words one by one and keeps the rest of the
current block.  `wordAt` is the same stream by position: word `j` is word
`j mod 16` of block `j / 16`.
-/

namespace OrderFlow

/-- Sixteen words: the cipher's state, and one block of its output. -/
abbrev Block := Vector UInt32 16

/-- Eight words of key. -/
abbrev Key := Vector UInt32 8

/-- A word with its bits moved `count` places up, the ones pushed out coming back below. -/
def rotateUp (word count : UInt32) : UInt32 :=
  (word <<< count) ||| (word >>> (32 - count))

/-- A word with its bits moved `count` places down, the ones pushed out coming back above. -/
def rotateDown (word count : UInt32) : UInt32 :=
  (word >>> count) ||| (word <<< (32 - count))

namespace Key

/-- One step of the generator that a key is spread from. -/
def spreadStep (state : UInt64) : UInt64 :=
  state * 6364136223846793005 + 11634580027462260723

/-- The key word a state of the spreading generator gives. -/
def spreadWord (state : UInt64) : UInt32 :=
  rotateDown (((state >>> 18) ^^^ state) >>> 27).toUInt32 (state >>> 59).toUInt32

/-- The state of the spreading generator after `n + 1` steps from a seed. -/
def spreadState (seed : UInt64) : Nat → UInt64
  | 0 => spreadStep seed
  | n + 1 => spreadStep (spreadState seed n)

/-- The key of a seed. -/
def ofSeed (seed : UInt64) : Key :=
  Vector.ofFn fun i => spreadWord (spreadState seed i.val)

end Key

namespace Block

/-- Mixes four words of a state. -/
def quarterRound (a b c d : Fin 16) (s : Block) : Block :=
  let wa := s[a] + s[b]
  let wd := rotateUp (s[d] ^^^ wa) 16
  let wc := s[c] + wd
  let wb := rotateUp (s[b] ^^^ wc) 12
  let wa := wa + wb
  let wd := rotateUp (wd ^^^ wa) 8
  let wc := wc + wd
  let wb := rotateUp (wb ^^^ wc) 7
  (((s.set a wa).set b wb).set c wc).set d wd

/-- Two rounds: the columns of the state, then its diagonals. -/
def doubleRound (s : Block) : Block :=
  let s := quarterRound 0 4 8 12 s
  let s := quarterRound 1 5 9 13 s
  let s := quarterRound 2 6 10 14 s
  let s := quarterRound 3 7 11 15 s
  let s := quarterRound 0 5 10 15 s
  let s := quarterRound 1 6 11 12 s
  let s := quarterRound 2 7 8 13 s
  quarterRound 3 4 9 14 s

/-- The state a block is computed from: four constants, the key, the block's number with
its low word first, and two words of zero. -/
def initial (key : Key) (counter : UInt64) : Block :=
  #v[0x61707865, 0x3320646e, 0x79622d32, 0x6b206574,
    key[0], key[1], key[2], key[3], key[4], key[5], key[6], key[7],
    counter.toUInt32, (counter >>> 32).toUInt32, 0, 0]

/-- The output block of a number: six double rounds, added to what they started from. -/
def ofCounter (key : Key) (counter : UInt64) : Block :=
  let start := initial key counter
  let mixed := doubleRound (doubleRound (doubleRound (doubleRound (doubleRound
    (doubleRound start)))))
  Vector.zipWith (· + ·) mixed start

end Block

/-- A position in a keystream: the words left of the current block, and the number of the
block to compute when they are used up. -/
structure Keystream where
  key : Key
  counter : UInt64
  buffered : List UInt32

namespace Keystream

/-- The start of the keystream of a seed. -/
def ofSeed (seed : UInt64) : Keystream :=
  ⟨Key.ofSeed seed, 0, []⟩

/-- The next word, and the stream after it. -/
def next (stream : Keystream) : UInt32 × Keystream :=
  match stream.buffered with
  | word :: rest => (word, { stream with buffered := rest })
  | [] =>
      let block := Block.ofCounter stream.key stream.counter
      (block[0], { stream with
        counter := stream.counter + 1
        buffered := block.toList.drop 1 })

/-- Two words as one number, the low word first. -/
def join (low high : UInt32) : UInt64 :=
  low.toUInt64 ||| (high.toUInt64 <<< 32)

/-- The next two words as one number, and the stream after them. -/
def draw (stream : Keystream) : UInt64 × Keystream :=
  let (low, stream) := stream.next
  let (high, stream) := stream.next
  (join low high, stream)

/-- Word `j` of the keystream of a seed, counted from zero. -/
def wordAt (seed : UInt64) (j : Nat) : UInt32 :=
  (Block.ofCounter (Key.ofSeed seed) (UInt64.ofNat (j / 16)))[j % 16]

end Keystream

end OrderFlow
