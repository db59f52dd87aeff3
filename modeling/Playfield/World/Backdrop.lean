import Playfield.Byte
import Playfield.Fault

/-!
# Backdrops

A backdrop is a row of background kinds, one for each place of a board. Even and odd places are kept
apart, those of each half again, and so on; a half that has one kind throughout is kept as one piece.
A board of one background so takes no room, whatever its size.
-/
namespace Playfield

/-- Background kinds by place, without an end. -/
inductive Patches
  /-- One kind everywhere. -/
  | plain (kind : Nat)
  /-- The even places and the odd ones. -/
  | split (even odd : Patches)
  deriving DecidableEq, Repr

namespace Patches

/-- The kind at a place. -/
def get : Patches → Nat → Nat
  | plain kind, _ => kind
  | split even odd, i => if i % 2 = 0 then even.get (i / 2) else odd.get (i / 2)

/-- What is at the even places. -/
def evens : Patches → Patches
  | plain kind => plain kind
  | split even _ => even

/-- What is at the odd places. -/
def odds : Patches → Patches
  | plain kind => plain kind
  | split _ odd => odd

/-- The patches with another kind at a place, which is found by halving `depth` times. -/
def putAt : Nat → Patches → Nat → Nat → Patches
  | 0, _, _, kind => plain kind
  | depth + 1, b, i, kind =>
    if i % 2 = 0 then split (putAt depth b.evens (i / 2) kind) b.odds
    else split b.evens (putAt depth b.odds (i / 2) kind)

/-- The patches with another kind at a place. The number of places is that of a signed word. -/
def put (b : Patches) (i kind : Nat) : Patches := putAt 31 b i kind

theorem get_eq_parts (b : Patches) (i : Nat) :
    b.get i = if i % 2 = 0 then b.evens.get (i / 2) else b.odds.get (i / 2) := by
  cases b with
  | plain kind => simp [get, evens, odds]
  | split even odd => rfl

theorem get_putAt {depth i j : Nat} (b : Patches) (i_lt : i < Bits.weight depth) (j_lt : j < Bits.weight depth)
    (kind : Nat) : (putAt depth b i kind).get j = if i = j then kind else b.get j := by
  induction depth generalizing b i j with
  | zero =>
    rw [Bits.weight] at i_lt j_lt
    have same : i = j := by omega
    simp [putAt, get, same]
  | succ depth ih =>
    rw [Bits.weight] at i_lt j_lt
    have halves : i = j ↔ i % 2 = j % 2 ∧ i / 2 = j / 2 := by omega
    rw [putAt, get_eq_parts b j]
    rcases Nat.mod_two_eq_zero_or_one i with i_even | i_odd <;>
      rcases Nat.mod_two_eq_zero_or_one j with j_even | j_odd
    · simp [*, get, ih b.evens (i := i / 2) (j := j / 2) (by omega) (by omega)]
    · simp [*, get]
    · simp [*, get]
    · simp [*, get, ih b.odds (i := i / 2) (j := j / 2) (by omega) (by omega)]

/-- What is put at a place is found there, and every other place keeps its kind. -/
theorem get_put {i j : Nat} (b : Patches) (i_lt : i < Word.half.reach) (j_lt : j < Word.half.reach) (kind : Nat) :
    (b.put i kind).get j = if i = j then kind else b.get j :=
  get_putAt b i_lt j_lt kind

end Patches

/-- A row of background kinds. -/
structure Backdrop where
  /-- The number of places. -/
  length : Nat
  patches : Patches
  deriving DecidableEq, Repr

namespace Backdrop

/-- A row of one kind. -/
def plain (length kind : Nat) : Backdrop := ⟨length, .plain kind⟩

/-- The kind at a place of the row. -/
def get? (b : Backdrop) (i : Nat) : Option Nat := if i < b.length then some (b.patches.get i) else none

/-- The row with another kind at a place. -/
def put (b : Backdrop) (i kind : Nat) : Backdrop := { b with patches := b.patches.put i kind }

/-- The kinds of the row in order. -/
def toList (b : Backdrop) : List Nat := (List.range b.length).map b.patches.get

@[simp] theorem length_put (b : Backdrop) (i kind : Nat) : (b.put i kind).length = b.length := rfl

@[simp] theorem length_toList (b : Backdrop) : b.toList.length = b.length := by simp [toList]

theorem getElem?_toList (b : Backdrop) (i : Nat) : b.toList[i]? = b.get? i := by
  rw [toList, get?, List.getElem?_map]
  by_cases inside : i < b.length <;> simp [inside]

/-- What is put at a place of the row is found there, and every other place keeps its kind. -/
theorem get?_put {i : Nat} (b : Backdrop) (short : b.length ≤ Word.half.reach) (inside : i < b.length) (j kind : Nat) :
    (b.put i kind).get? j = if i = j then some kind else b.get? j := by
  rw [get?, get?, length_put]
  by_cases here : j < b.length
  · rw [if_pos here, if_pos here]
    show some ((b.patches.put i kind).get j) = _
    rw [Patches.get_put b.patches (Nat.lt_of_lt_of_le inside short) (Nat.lt_of_lt_of_le here short)]
    split <;> rfl
  · rw [if_neg here, if_neg here, if_neg (by omega)]

/-- The list of the row with one kind written over. -/
theorem toList_put {i : Nat} (b : Backdrop) (short : b.length ≤ Word.half.reach) (inside : i < b.length) (kind : Nat) :
    (b.put i kind).toList = b.toList.set i kind := by
  refine List.ext_getElem? fun j => ?_
  rw [getElem?_toList, get?_put b short inside, List.getElem?_set, length_toList, getElem?_toList]
  by_cases same : i = j
  · rw [if_pos same, if_pos same, if_pos inside]
  · rw [if_neg same, if_neg same]

end Backdrop
end Playfield
