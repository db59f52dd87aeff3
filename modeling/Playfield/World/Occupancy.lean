import Playfield.Kinds
import Playfield.Tile

/-!
# Occupancy

An occupancy says which sprite stands on which tile. At most one sprite stands on a tile.
-/
namespace Playfield

/-- The sprites that stand on tiles. -/
structure Occupancy where
  entries : List (Tile × SpriteId)
  deriving DecidableEq, Repr

namespace Occupancy

/-- No tile is occupied. -/
def empty : Occupancy := ⟨[]⟩

/-- The sprite of the first entry of a tile. -/
def find (t : Tile) : List (Tile × SpriteId) → Option SpriteId
  | [] => none
  | (u, id) :: rest => if u = t then some id else find t rest

/-- The sprite on a tile. -/
def at? (o : Occupancy) (t : Tile) : Option SpriteId := find t o.entries

/-- Nobody stands on the tile any more. -/
def vacate (o : Occupancy) (t : Tile) : Occupancy := ⟨o.entries.filter fun e => e.1 != t⟩

/-- A sprite takes the tile. -/
def occupy (o : Occupancy) (t : Tile) (id : SpriteId) : Occupancy := ⟨(t, id) :: (o.vacate t).entries⟩

theorem find_filter (t u : Tile) (l : List (Tile × SpriteId)) :
    find u (l.filter fun e => e.1 != t) = if t = u then none else find u l := by
  induction l with
  | nil => simp [find]
  | cons head rest ih =>
    obtain ⟨s, id⟩ := head
    by_cases gone : s = t
    · subst gone
      by_cases here : s = u <;> simp_all [find]
    · by_cases here : s = u
      · subst here
        simp [find, gone, Ne.symm gone]
      · simp [find, gone, here, ih]

@[simp] theorem at?_empty (t : Tile) : empty.at? t = none := rfl

@[simp] theorem at?_vacate (o : Occupancy) (t u : Tile) :
    (o.vacate t).at? u = if t = u then none else o.at? u := find_filter t u o.entries

@[simp] theorem at?_occupy (o : Occupancy) (t u : Tile) (id : SpriteId) :
    (o.occupy t id).at? u = if t = u then some id else o.at? u := by
  by_cases here : t = u
  · simp [occupy, at?, find, here]
  · have := at?_vacate o t u
    simp only [at?, here, ↓reduceIte] at this
    simp [occupy, at?, find, here, this]

end Occupancy
end Playfield
