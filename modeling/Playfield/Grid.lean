import Playfield.Heading

/-!
# Grids

Rules are matched against a grid, which is asked about tiles and sprites and never changed. A tile
past the edge has no background and no sprite.
-/
namespace Playfield

/-- What can be asked of a board whose sprites are named by `ι`. -/
structure Grid (ι : Type) where
  /-- The background kind of a tile. -/
  backgroundAt : Tile → Option Nat
  /-- The sprite of a kind on a tile. -/
  spriteAt : Tile → Nat → Option ι
  /-- The tile of a sprite. -/
  position : ι → Option Tile
  /-- The motion of a sprite; `none` at rest and for a sprite that is gone. -/
  motion : ι → Option Heading

end Playfield
