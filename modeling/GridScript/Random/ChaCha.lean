import GridScript.Random.Basic

/-!
# The ChaCha stream of random numbers

The key is spread from a seed of 64 bits, and block after block of the ChaCha
stream with twenty rounds is read from it. Each random number takes two words of
the stream, so a source is known by its key and by how many numbers were drawn.
-/

namespace GridScript.ChaCha

/-- The sixteen words of a block. -/
abbrev Words := Vector UInt32 16

/-- The words of an expanded seed. -/
abbrev Key := Vector UInt32 8

/-- A word rotated to the left. -/
def rotateLeft (word amount : UInt32) : UInt32 :=
  (word <<< amount) ||| (word >>> (32 - amount))

/-- A word rotated to the right, by any amount. -/
def rotateRight (word amount : UInt32) : UInt32 :=
  (word >>> amount) ||| (word <<< ((32 - amount) % 32))

/-- One addition, exclusion and rotation: the word at `target` takes up the one
at `source`, and the one at `mixed` is turned by `amount`. -/
def mix (words : Words) (target source mixed : Fin 16) (amount : UInt32) : Words :=
  let words := words.set target (words[target] + words[source])
  words.set mixed (rotateLeft (words[mixed] ^^^ words[target]) amount)

/-- A quarter round on four of the words. -/
def quarterRound (words : Words) (a b c d : Fin 16) : Words :=
  let words := mix words a b d 16
  let words := mix words c d b 12
  let words := mix words a b d 8
  mix words c d b 7

/-- A round on the columns and a round on the diagonals. -/
def doubleRound (words : Words) : Words :=
  let words := quarterRound words 0 4 8 12
  let words := quarterRound words 1 5 9 13
  let words := quarterRound words 2 6 10 14
  let words := quarterRound words 3 7 11 15
  let words := quarterRound words 0 5 10 15
  let words := quarterRound words 1 6 11 12
  let words := quarterRound words 2 7 8 13
  quarterRound words 3 4 9 14

/-- A step done a number of times. -/
def iterate (step : Words → Words) : Nat → Words → Words
  | 0, words => words
  | count + 1, words => iterate step count (step words)

/-- The words a block starts from: four constants, the key, and the number of the
block. -/
def start (key : Key) (index : UInt64) : Words :=
  #v[0x61707865, 0x3320646e, 0x79622d32, 0x6b206574,
    key[0], key[1], key[2], key[3], key[4], key[5], key[6], key[7],
    index.toUInt32, (index >>> 32).toUInt32, 0, 0]

/-- A block of the stream. -/
def block (key : Key) (index : UInt64) : Words :=
  let words := start key index
  (iterate doubleRound 10 words).zipWith (· + ·) words

/-- The state of the seed expansion after one step. -/
def advanceSeed (state : UInt64) : UInt64 :=
  state * 6364136223846793005 + 11634580027462260723

/-- The word that a state of the seed expansion stands for. -/
def seedWord (state : UInt64) : UInt32 :=
  rotateRight (((state >>> 18) ^^^ state) >>> 27).toUInt32 (state >>> 59).toUInt32

/-- The state of the seed expansion after a number of steps. -/
def seedState (seed : UInt64) : Nat → UInt64
  | 0 => seed
  | count + 1 => advanceSeed (seedState seed count)

/-- The key a seed is expanded to. -/
def keyOfSeed (seed : UInt64) : Key :=
  Vector.ofFn fun index : Fin 8 => seedWord (seedState seed (index + 1))

/-- A word of 64 bits as a number that is at least zero and below one: its
highest 53 bits are the binary places. -/
def fraction (word : UInt64) : Float :=
  (word >>> 11).toFloat * Float.scaleB 1.0 (-53)

/-- A source of random numbers from the stream. -/
structure Source where
  /-- Key of the stream. -/
  key : Key
  /-- How many numbers have been drawn. -/
  drawn : Nat

/-- The source a seed stands for. -/
def Source.ofSeed (seed : UInt64) : Source :=
  ⟨keyOfSeed seed, 0⟩

/-- The word of 64 bits that the next number is made from. -/
def Source.word (source : Source) : UInt64 :=
  let words := block source.key (UInt64.ofNat (source.drawn / 8))
  let low : Fin 16 := Fin.ofNat 16 (2 * (source.drawn % 8))
  let high : Fin 16 := Fin.ofNat 16 (2 * (source.drawn % 8) + 1)
  words[low].toUInt64 ||| (words[high].toUInt64 <<< 32)

instance : RandomSource Source where
  draw source := (fraction source.word, { source with drawn := source.drawn + 1 })

end GridScript.ChaCha
