import Playfield.Random.ChaCha

/-!
# Draws

Draws are made from a ChaCha stream whose key is spread from a seed of 64 bits, so equal seeds give
equal draws. A draw below `n` takes words of the stream until one falls into the largest range of
words that `n` choices share evenly.
-/
namespace Playfield.Random

/-- The stream of a seed, and how much of it has been used. -/
structure Draws where
  seed : UInt64
  /-- The number of words used. -/
  used : Nat
  deriving DecidableEq, Repr

namespace Draws

/-- The unused stream of a seed. -/
def ofSeed (seed : UInt64) : Draws := ⟨seed, 0⟩

/-- The next state of the generator that spreads a seed. -/
def spread (s : UInt64) : UInt64 := s * 6364136223846793005 + 11634580027462260723

/-- Rotates a word to the right. -/
def rotateRight (x n : UInt32) : UInt32 := (x >>> n) ||| (x <<< ((32 - n) % 32))

/-- The word that the generator gives in a state. -/
def output (s : UInt64) : UInt32 := rotateRight ((((s >>> 18) ^^^ s) >>> 27).toUInt32) ((s >>> 59).toUInt32)

/-- The state of the generator after a number of steps. -/
def spreads (seed : UInt64) : Nat → UInt64
  | 0 => seed
  | n + 1 => spread (spreads seed n)

/-- The key of a seed: the first eight words that the generator gives. -/
def key (seed : UInt64) : Key := .ofFn fun i => output (spreads seed (i + 1))

/-- The next word of the stream. -/
def next (d : Draws) : UInt32 := ChaCha.word (key d.seed) d.used

/-- The stream after the next word. -/
def skip (d : Draws) : Draws := { d with used := d.used + 1 }

/-- The stream repeats after this many words: 16 words in each of the blocks that a word of 64 bits
    can number. -/
def period : Nat := 16 * 18446744073709551616

/-- The last lower half of a product with `n` that is accepted: the largest multiple of `n` by a
    power of two that fits a word, less one. -/
def zone (n : Nat) : Nat := n <<< (31 - n.log2) - 1

/-- Draws a number below `n`. The upper half of the product of a word and `n` is the number, the
    lower half decides whether the word is taken. After `tries` words the next one is taken as it
    is. -/
def below (n : Nat) : Nat → Draws → Nat × Draws
  | 0, d => (d.next.toNat * n / UInt32.size, d.skip)
  | tries + 1, d =>
    let product := d.next.toNat * n
    if product % UInt32.size ≤ zone n then (product / UInt32.size, d.skip) else below n tries d.skip

/-- Draws a number below `n`; `none`, without a draw, if there is none. -/
def pick (n : Nat) (d : Draws) : Option Nat × Draws :=
  if n = 0 then (none, d) else ((below n period d).map some id)

/-- Draws a member of a list; `none`, without a draw, of the empty list. -/
def choose {α : Type} (xs : List α) (d : Draws) : Option α × Draws :=
  (d.pick xs.length).map (·.bind fun i => xs[i]?) id

theorem below_lt {n : Nat} (positive : 0 < n) (tries : Nat) (d : Draws) : (below n tries d).1 < n := by
  have high (d : Draws) : d.next.toNat * n / UInt32.size < n := by
    refine Nat.div_lt_of_lt_mul ?_
    exact (Nat.mul_lt_mul_right positive).mpr d.next.toNat_lt
  induction tries generalizing d with
  | zero => exact high d
  | succ tries ih =>
    rw [below]
    split
    · exact high d
    · exact ih d.skip

end Draws

/-- A way to draw members of lists: one is drawn of every list that has any. -/
structure Chooser (α : Type) where
  choose : List α → Draws → Option α × Draws
  mem_of_choose : ∀ {xs d a}, (choose xs d).1 = some a → a ∈ xs
  isSome_of_ne_nil : ∀ {xs} d, xs ≠ [] → (choose xs d).1.isSome

/-- Members are drawn with the numbers of the stream. -/
def Chooser.stream {α : Type} : Chooser α where
  choose := Draws.choose
  mem_of_choose {xs d a} drawn := by
    obtain ⟨i, _, here⟩ := Option.bind_eq_some_iff.mp drawn
    exact List.mem_of_getElem? here
  isSome_of_ne_nil {xs} d some_member := by
    have positive := List.length_pos_iff.mpr some_member
    have inside := Draws.below_lt positive Draws.period d
    simp [Draws.choose, Draws.pick, Nat.ne_of_gt positive, inside]

end Playfield.Random
