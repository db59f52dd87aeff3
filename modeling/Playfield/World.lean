import Playfield.Command
import Playfield.Grid
import Playfield.IdMap
import Playfield.Random.Draws
import Playfield.Settings
import Playfield.World.Backdrop
import Playfield.World.Occupancy

/-!
# Worlds

A world is a rectangle of tiles, each with a background, the sprites on them, at most one to a
tile, and the counters of the game. The sprites and the occupancy say the same twice: who stands
where, and where each one stands.
-/
namespace Playfield

/-- Whether the game goes on. -/
inductive Status
  | playing | won | lost
  deriving DecidableEq, Repr

instance : Vocabulary Status where
  words := [.playing, .won, .lost]
  code s := .ofNat s.ctorIdx
  name
    | .playing => "Playing"
    | .won => "Won"
    | .lost => "Lost"
  words_code s := by cases s <;> rfl
  codes := rfl

/-- A sprite on the board. -/
structure Sprite where
  id : SpriteId
  kind : Nat
  tile : Tile
  motion : Option Heading
  deriving DecidableEq, Repr

/-- A board with its sprites and counters. -/
structure World where
  width : Nat
  height : Nat
  kinds : Kinds
  /-- The background kinds, row by row. -/
  backgrounds : Backdrop
  sprites : IdMap Sprite
  occupancy : Occupancy
  /-- The id of the next new sprite. -/
  nextId : Nat
  /-- The sprite kinds whose rules are suspended in this round. -/
  blocked : List Nat
  /-- The sprite kinds whose rules will be suspended in the next round. -/
  pendingBlocks : List Nat
  /-- The sprites that the last tick brought to rest. -/
  rejected : List SpriteId
  draws : Random.Draws
  status : Status
  score : Int
  scoreStep : Int
  level : Nat
  /-- The number of ticks so far. -/
  tick : Nat
  deriving DecidableEq, Repr

namespace World

/-- A world without sprites whose tiles all have one background. -/
def new (width height : Int) (fill : Nat) (kinds : Kinds) (settings : Settings) : Checked World :=
  if ¬(0 < width ∧ 0 < height) then .error .emptyWorld
  else if ¬fill < kinds.backgrounds then .error (.unknownFill fill)
  else do
    let area ← signed .half (width * height)
    return {
      width := width.toNat
      height := height.toNat
      kinds := kinds
      backgrounds := .plain area.toNat fill
      sprites := .empty
      occupancy := .empty
      nextId := 0
      blocked := []
      pendingBlocks := []
      rejected := []
      draws := .ofSeed settings.seed
      status := .playing
      score := 0
      scoreStep := settings.scoreStep
      level := 0
      tick := 0 }

/-! ### Tiles -/

/-- Whether a tile is on the board. -/
def inBounds (w : World) (t : Tile) : Bool := 0 ≤ t.col && t.col < w.width && 0 ≤ t.row && t.row < w.height

/-- The place of a tile, row by row. -/
def index? (w : World) (t : Tile) : Option Nat :=
  if w.inBounds t then some (t.row.toNat * w.width + t.col.toNat) else none

/-- Every tile of the board, row by row. -/
def tiles (w : World) : List Tile :=
  (List.range w.height).flatMap fun row : Nat => (List.range w.width).map fun col : Nat => ⟨col, row⟩

/-- The background kind of a tile. -/
def backgroundAt (w : World) (t : Tile) : Option Nat := (w.index? t).bind w.backgrounds.get?

/-- Gives a tile a background; answers whether the tile is on the board and the kind is known. -/
def setBackground (w : World) (t : Tile) (kind : Nat) : Bool × World :=
  match w.index? t with
  | some i =>
    if kind < w.kinds.backgrounds then (true, { w with backgrounds := w.backgrounds.put i kind })
    else (false, w)
  | none => (false, w)

/-! ### Sprites -/

/-- A sprite of the board. -/
def sprite? (w : World) (id : SpriteId) : Option Sprite := w.sprites.get? id.raw

/-- The sprites, by ascending id. -/
def spriteList (w : World) : List Sprite := w.sprites.values

/-- The sprite on a tile. -/
def occupant (w : World) (t : Tile) : Option SpriteId := w.occupancy.at? t

/-- The sprite on a tile, if it is of a kind. -/
def spriteAt (w : World) (t : Tile) (kind : Nat) : Option SpriteId :=
  (((w.occupant t).bind w.sprite?).filter fun s => s.kind == kind).map (·.id)

/-- The tile of a sprite. -/
def position (w : World) (id : SpriteId) : Option Tile := (w.sprite? id).map (·.tile)

/-- The motion of a sprite. -/
def motion (w : World) (id : SpriteId) : Option Heading := (w.sprite? id).bind (·.motion)

/-- What rules see of a world. -/
def grid (w : World) : Grid SpriteId where
  backgroundAt := w.backgroundAt
  spriteAt := w.spriteAt
  position := w.position
  motion := w.motion

/-- Whether the rules of a sprite kind are suspended. -/
def isBlocked (w : World) (kind : Nat) : Bool := w.blocked.contains kind

/-- The world with one sprite changed, if it is there. -/
def modifySprite (w : World) (id : SpriteId) (f : Sprite → Sprite) : World :=
  { w with sprites := w.sprites.modify id.raw f }

/-- Sets the motion of a sprite. -/
def setMotion (w : World) (id : SpriteId) (motion : Option Heading) : World :=
  w.modifySprite id fun s => { s with motion := motion }

/-- Places a new sprite, under the next id. It is not placed off the board, on an occupied tile or
    if its kind is unknown. -/
def spawn (w : World) (t : Tile) (kind : Nat) (motion : Option Heading) : Checked (Option SpriteId × World) :=
  if w.inBounds t ∧ kind < w.kinds.sprites ∧ (w.occupant t).isNone then do
    let id : SpriteId := ⟨w.nextId⟩
    let next ← unsigned .half (w.nextId + 1)
    return (some id, { w with
      sprites := w.sprites.insert id.raw ⟨id, kind, t, motion⟩
      occupancy := w.occupancy.occupy t id
      nextId := next })
  else return (none, w)

/-- Takes a sprite off the board. -/
def destroy (w : World) (id : SpriteId) : World :=
  match w.sprite? id with
  | some s => { w with sprites := w.sprites.erase id.raw, occupancy := w.occupancy.vacate s.tile }
  | none => w

/-- Moves a sprite to a tile. -/
def relocate (w : World) (id : SpriteId) (t : Tile) : World :=
  match w.sprite? id with
  | some s =>
    { w.modifySprite id (fun s => { s with tile := t }) with
      occupancy := (w.occupancy.vacate s.tile).occupy t id }
  | none => w

end World
end Playfield
