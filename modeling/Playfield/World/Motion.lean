import Playfield.World

/-!
# The motion of a world

At the end of a tick all sprites in motion take their step at once. A mover is brought to rest
instead if its step leads off the board, to a tile whose sprite does not move away, to a tile for
which a mover of lower id heads, or to the tile of a mover that heads for its own. A mover that
comes to rest may be in the way of others, so this is repeated until no more movers are lost.
-/
namespace Playfield

/-- A sprite in motion. -/
structure Mover where
  id : SpriteId
  origin : Tile
  target : Tile
  deriving DecidableEq, Repr

/-- The step of a sprite, if it is in motion. -/
def Sprite.mover? (s : Sprite) : Option Mover :=
  s.motion.map fun h => ⟨s.id, s.tile, s.tile.shift h.offset⟩

namespace Mover

/-- Whether the tile ahead is kept by a sprite that is not among the movers. -/
def blocked (o : Occupancy) (movers : List Mover) (m : Mover) : Bool :=
  (o.at? m.target).any fun id => !movers.any fun n => n.id == id

/-- Whether the mover is the first that heads for its target. -/
def first (movers : List Mover) (m : Mover) : Bool :=
  (movers.find? fun n => n.target == m.target).any fun n => n.id == m.id

/-- Whether a mover on the tile ahead heads for the mover's own tile. -/
def swaps (movers : List Mover) (m : Mover) : Bool :=
  movers.any fun n => n.origin == m.target && n.target == m.origin

/-- Whether nothing among the movers and on the board stops the mover. -/
def stands (o : Occupancy) (movers : List Mover) (m : Mover) : Bool :=
  !m.blocked o movers && m.first movers && !m.swaps movers

/-- The movers that nothing stops. -/
def kept (o : Occupancy) (movers : List Mover) : List Mover := movers.filter fun m => m.stands o movers

/-- The movers that something stops. -/
def lost (o : Occupancy) (movers : List Mover) : List Mover := movers.filter fun m => !m.stands o movers

theorem length_kept_lt {o : Occupancy} {movers : List Mover} (some_lost : lost o movers ≠ []) :
    (kept o movers).length < movers.length := by
  obtain ⟨m, rest, same⟩ := List.exists_cons_of_ne_nil some_lost
  have member : m ∈ lost o movers := same ▸ List.mem_cons_self
  obtain ⟨inside, stopped⟩ := List.mem_filter.mp member
  exact List.length_filter_lt_length_iff_exists.mpr ⟨m, inside, by simpa using stopped⟩

/-- The movers that are left once none is stopped any more, and those that were stopped, in the
    order in which they were. -/
def settle (o : Occupancy) (movers : List Mover) : List Mover × List Mover :=
  if lost o movers = [] then (movers, [])
  else
    let rest := settle o (kept o movers)
    (rest.1, lost o movers ++ rest.2)
termination_by movers.length
decreasing_by exact length_kept_lt ‹_›

end Mover

namespace World

/-- The sprites in motion, by ascending id. -/
def movers (w : World) : List Mover := w.spriteList.filterMap Sprite.mover?

/-- The movers that take their step, and the sprites that come to rest. -/
def resolve (w : World) : List Mover × List SpriteId :=
  let (inside, outside) := w.movers.partition fun m => w.inBounds m.target
  let (moved, stopped) := Mover.settle w.occupancy inside
  (moved, (outside ++ stopped).map (·.id))

/-- All sprites in motion take their step, or come to rest. Every origin is vacated before a target
    is taken, so that movers can follow each other. -/
def commit (w : World) (moved : List Mover) (rejected : List SpriteId) : World :=
  let w := rejected.foldl (fun w id => w.setMotion id none) w
  let w := moved.foldl (fun w m => { w with occupancy := w.occupancy.vacate m.origin }) w
  moved.foldl (fun w m =>
    { w.modifySprite m.id (fun s => { s with tile := m.target }) with
      occupancy := w.occupancy.occupy m.target m.id }) w

/-- Ends the tick. -/
def advance (w : World) : Checked World := do
  let (moved, rejected) := w.resolve
  let tick ← unsigned .full (w.tick + 1)
  return { w.commit moved rejected with
    blocked := w.pendingBlocks
    pendingBlocks := []
    tick := tick
    rejected := rejected }

end World
end Playfield
