import Playfield.Tile

/-!
# Cells of the window

A rule looks at the 5×5 window of tiles around a sprite. A cell names a place in that window;
`(2,2)` is the sprite itself. Cells outside the window can be written down, and rules that hold
them are legal, but no such cell is ever looked at.
-/
namespace Playfield

/-- A cell, by its column and row in the window. -/
structure Cell where
  col : UInt8
  row : UInt8
  deriving DecidableEq, Repr

namespace Cell

/-- The number of columns, and of rows, of the window. -/
def side : Nat := 5

/-- The cell of the sprite itself. -/
def centre : Cell := ⟨2, 2⟩

/-- Whether the cell lies in the window. -/
def inWindow (c : Cell) : Bool := c.col.toNat < side && c.row.toNat < side

/-- The way from the centre to the cell. -/
def offset (c : Cell) : Offset := ⟨c.col.toNat - 2, c.row.toNat - 2⟩

/-- The cell at an offset from the centre. -/
def ofOffset (o : Offset) : Cell := ⟨.ofNat (o.dx + 2).toNat, .ofNat (o.dy + 2).toNat⟩

/-- The Manhattan distance from the centre. -/
def distance (c : Cell) : Nat := c.offset.dx.natAbs + c.offset.dy.natAbs

/-- The Manhattan distance from the centre, as a byte. -/
def byteDistance (c : Cell) : Checked Nat := unsigned .byte c.distance

/-- The cells of a square of columns and rows, column by column. -/
def square (sides : List Nat) : List Cell :=
  sides.flatMap fun col => sides.map fun row => ⟨.ofNat col, .ofNat row⟩

/-- The cells of the window, column by column. -/
def window : List Cell := square (List.range side)

/-- The inner 3×3 cells, column by column. -/
def inner : List Cell := square [1, 2, 3]

/-- Whether the cell is one of the inner 3×3. -/
def isInner (c : Cell) : Bool := c.offset.dx.natAbs ≤ 1 && c.offset.dy.natAbs ≤ 1

/-- The cells that a rule guards: all within distance 2 of the centre except the centre itself, in
    the order in which they are scanned. -/
def neighbourhood : List Cell := window.filter fun c => c.distance ≤ 2 && c != centre

/-- The text of a cell. -/
def text (c : Cell) : String := s!"({c.col},{c.row})"

theorem inWindow_iff {c : Cell} : c.inWindow ↔ c.col.toNat < side ∧ c.row.toNat < side := by
  simp [inWindow]

theorem mem_window {c : Cell} : c ∈ window ↔ c.inWindow := by
  obtain ⟨col, row⟩ := c
  constructor
  · intro member
    simp only [window, square, List.mem_flatMap, List.mem_map, List.mem_range] at member
    obtain ⟨i, i_lt, j, j_lt, same⟩ := member
    cases same
    simp only [side] at i_lt j_lt
    simp only [inWindow, side, UInt8.toNat_ofNat', Bool.and_eq_true, decide_eq_true_eq]
    omega
  · intro inside
    simp only [inWindow, Bool.and_eq_true, decide_eq_true_eq] at inside
    simp only [window, square, List.mem_flatMap, List.mem_map, List.mem_range]
    exact ⟨col.toNat, inside.1, row.toNat, inside.2, by simp⟩

/-- What holds of each of the 25 cells holds of every cell in the window. -/
theorem forall_inWindow {p : Cell → Prop} (all : ∀ c ∈ window, p c) (c : Cell) (inside : c.inWindow) : p c :=
  all c (mem_window.mpr inside)

theorem mem_neighbourhood {c : Cell} :
    c ∈ neighbourhood ↔ c.inWindow ∧ c.distance ≤ 2 ∧ c ≠ centre := by
  simp [neighbourhood, mem_window]

end Cell
end Playfield
