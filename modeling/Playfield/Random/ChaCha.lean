/-!
# The ChaCha stream

The stream is a row of 32-bit words, in blocks of 16. A block mixes a state of four constants, a key
of eight words and the number of the block by rounds of additions, exclusive ors and rotations, and
adds the state to what comes out. Eight rounds are used here, and block numbers of 64 bits.
-/
namespace Playfield.Random

/-- Sixteen words. -/
abbrev Block := Vector UInt32 16

/-- The key of a stream. -/
abbrev Key := Vector UInt32 8

namespace ChaCha

/-- Rotates a word to the left. -/
def rotateLeft (x n : UInt32) : UInt32 := (x <<< n) ||| (x >>> (32 - n))

/-- Adds one word to another and mixes the sum into a third, which is rotated. -/
def mix (s : Block) (a b d : Fin 16) (n : UInt32) : Block :=
  let s := s.set a (s[a] + s[b])
  s.set d (rotateLeft (s[d] ^^^ s[a]) n)

/-- Mixes four words. -/
def quarterRound (s : Block) (a b c d : Fin 16) : Block :=
  let s := mix s a b d 16
  let s := mix s c d b 12
  let s := mix s a b d 8
  mix s c d b 7

/-- Mixes the four columns of the block, then its four diagonals. -/
def doubleRound (s : Block) : Block :=
  let s := quarterRound s 0 4 8 12
  let s := quarterRound s 1 5 9 13
  let s := quarterRound s 2 6 10 14
  let s := quarterRound s 3 7 11 15
  let s := quarterRound s 0 5 10 15
  let s := quarterRound s 1 6 11 12
  let s := quarterRound s 2 7 8 13
  quarterRound s 3 4 9 14

/-- The state from which a block is made. -/
def state (key : Key) (counter : UInt64) : Block :=
  (#v[0x61707865, 0x3320646e, 0x79622d32, 0x6b206574] : Vector UInt32 4) ++ key ++
    (#v[counter.toUInt32, (counter >>> 32).toUInt32, 0, 0] : Vector UInt32 4)

/-- A block of the stream. -/
def block (key : Key) (counter : UInt64) : Block :=
  let start := state key counter
  let mixed := doubleRound (doubleRound (doubleRound (doubleRound start)))
  start.zipWith (· + ·) mixed

/-- A word of the stream. The stream repeats after `2 ^ 64` blocks. -/
def word (key : Key) (n : Nat) : UInt32 :=
  (block key (.ofNat (n / 16)))[Fin.ofNat 16 n]

end ChaCha
end Playfield.Random
