import Playfield.Dispatch
import Playfield.World.Motion

/-!
# A world as an engine

A command on a sprite that is gone does nothing.
-/
namespace Playfield.World

/-- The tiles to which a portal of a background kind may send a sprite from a tile, row by row. -/
def destinations (w : World) (home : Tile) (background : Nat) : List Tile :=
  w.tiles.filter fun t => t != home && w.backgroundAt t == some background && (w.occupant t).isNone

/-- Sends a sprite to a free tile of a background kind and brings it to rest. The tile is drawn in a
    given way; if there is none, nothing happens. -/
def portalBy (chooser : Random.Chooser Tile) (w : World) (id : SpriteId) (background : Nat) : World :=
  match w.position id with
  | none => w
  | some home =>
    let (drawn, draws) := chooser.choose (w.destinations home background) w.draws
    let w := { w with draws := draws }
    match drawn with
    | none => w
    | some t => (w.relocate id t).setMotion id none

/-- Sends a sprite to a free tile of a background kind, drawn from the stream of the world. -/
def portal (w : World) (id : SpriteId) (background : Nat) : World := w.portalBy .stream id background

/-- Suspends the rules of a sprite kind for the next round. -/
def block (w : World) (kind : Nat) : World :=
  if w.pendingBlocks.contains kind then w else { w with pendingBlocks := w.pendingBlocks ++ [kind] }

/-- Changes the game. -/
def event (w : World) : GameEvent → Checked World
  | .win => return { w with status := .won }
  | .lose => return { w with status := .lost }
  | .score => return { w with score := ← signed .full (w.score + w.scoreStep) }
  | .nextLevel => return { w with level := ← unsigned .half (w.level + 1) }

/-- What can be done to a world, with portals that draw in a given way. -/
def engineBy (chooser : Random.Chooser Tile) : Engine World SpriteId where
  create t kind motion w := w.spawn t kind motion
  move id heading w := return w.setMotion id (some heading)
  reverse id heading w := return w.setMotion id (some heading)
  stop id w := return w.setMotion id none
  destroy id w := return w.destroy id
  advance w := w.advance
  paint t kind w := return (w.setBackground t kind).2
  portal id background w := return w.portalBy chooser id background
  block kind w := return w.block kind
  event what w := w.event what

/-- What can be done to a world. -/
def engine : Engine World SpriteId := engineBy .stream

end Playfield.World
