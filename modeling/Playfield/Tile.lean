import Playfield.Fault

/-!
# Tiles

A tile of the board is named by its column and row, counted from the upper left corner; rows grow
downward. Tiles past the edge of the board can be named too, and hold nothing. Tile coordinates are
signed 32-bit words, so a tile far enough out has no neighbour.
-/
namespace Playfield

/-- The way from one tile, or cell, to another. -/
structure Offset where
  dx : Int
  dy : Int
  deriving DecidableEq, Repr

/-- A tile of the board. -/
structure Tile where
  col : Int
  row : Int
  deriving DecidableEq, Repr

namespace Tile

/-- The tile at an offset. -/
def shift (t : Tile) (o : Offset) : Tile := ⟨t.col + o.dx, t.row + o.dy⟩

/-- The tile at an offset, if its coordinates are words. -/
def shifted (t : Tile) (o : Offset) : Checked Tile := do
  let col ← signed .half (t.col + o.dx)
  let row ← signed .half (t.row + o.dy)
  return ⟨col, row⟩

/-- A tile whose neighbourhood of two steps can be named. -/
def Roomy (t : Tile) : Prop :=
  -(Word.half.reach : Int) ≤ t.col - 2 ∧ t.col + 2 < (Word.half.reach : Int) ∧
    -(Word.half.reach : Int) ≤ t.row - 2 ∧ t.row + 2 < (Word.half.reach : Int)

theorem shifted_eq_ok {t : Tile} {o : Offset} (room : t.Roomy) (dx : o.dx.natAbs ≤ 2) (dy : o.dy.natAbs ≤ 2) :
    t.shifted o = .ok (t.shift o) := by
  obtain ⟨left, right, up, down⟩ := room
  rw [shifted, signed_eq_ok (by omega) (by omega), signed_eq_ok (by omega) (by omega)]
  rfl

end Tile
end Playfield
