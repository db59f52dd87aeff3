import Playfield.Proofs.Board
import Playfield.Transform

/-!
# Turned worlds

A transform flips or turns a whole board as it does the window: tiles and headings are mapped, and a quarter turn exchanges
columns and rows. A world is another one turned if it has the backgrounds and the sprites of the other where the transform
takes them, and all else as it is. Every world can be turned, and stays consistent.
-/
namespace Playfield

/-! ### Tiles -/

namespace Transform

/-- The width and the height of a board once it is mapped. -/
def onSize (t : Transform) (size : Nat × Nat) : Nat × Nat :=
  match t with
  | quarterLeft | quarterRight => size.swap
  | _ => size

/-- Where the upper left tile of a board goes. -/
def corner (t : Transform) (size : Nat × Nat) : Tile :=
  match t with
  | flipColumns => ⟨size.1 - 1, 0⟩
  | flipRows => ⟨0, size.2 - 1⟩
  | quarterLeft => ⟨0, size.1 - 1⟩
  | halfTurn => ⟨size.1 - 1, size.2 - 1⟩
  | quarterRight => ⟨size.2 - 1, 0⟩

/-- Where a tile of a board goes. -/
def onTile (t : Transform) (size : Nat × Nat) (tile : Tile) : Tile :=
  (t.corner size).shift (t.onOffset ⟨tile.col, tile.row⟩)

variable {size : Nat × Nat}

theorem onSize_inverse (t : Transform) : t.inverse.onSize (t.onSize size) = size := by
  cases t <;> rfl

theorem onTile_inverse (t : Transform) (tile : Tile) : t.inverse.onTile (t.onSize size) (t.onTile size tile) = tile := by
  obtain ⟨col, row⟩ := tile
  cases t <;> simp [onTile, onSize, corner, inverse, onOffset, Tile.shift] <;> omega

theorem onTile_undone (t : Transform) (tile : Tile) : t.onTile size (t.inverse.onTile (t.onSize size) tile) = tile := by
  have back : t.inverse.inverse.onTile (t.inverse.onSize (t.onSize size)) (t.inverse.onTile (t.onSize size) tile) = tile :=
    t.inverse.onTile_inverse tile
  rwa [inverse_inverse, onSize_inverse] at back

theorem onTile_injective (t : Transform) : Function.Injective (t.onTile size) :=
  Function.LeftInverse.injective t.onTile_inverse

/-- A step from a tile is mapped to the mapped step from where the tile goes. -/
theorem onTile_shift (t : Transform) (tile : Tile) (o : Offset) :
    t.onTile size (tile.shift o) = (t.onTile size tile).shift (t.onOffset o) := by
  obtain ⟨col, row⟩ := tile
  cases t <;> simp [onTile, corner, onOffset, Tile.shift] <;> omega

end Transform

/-! ### Backdrops by place -/

namespace Backdrop

/-- The row whose places have given kinds. -/
def tabulate (count : Nat) (kind : Nat → Nat) : Backdrop :=
  ⟨count, (List.range count).foldl (fun p i => p.put i (kind i)) (.plain 0)⟩

theorem get?_tabulate {count i : Nat} (few : count ≤ Word.half.reach) (inside : i < count) (kind : Nat → Nat) :
    (tabulate count kind).get? i = some (kind i) := by
  have shown (n : Nat) (le : n ≤ count) (i_lt : i < n) :
      ((List.range n).foldl (fun p i => Patches.put p i (kind i)) (.plain 0)).get i = kind i := by
    induction n with
    | zero => omega
    | succ n ih =>
      rw [List.range_succ, List.foldl_append, List.foldl_cons, List.foldl_nil, Patches.get_put _ (by omega) (by omega)]
      split
      · rename_i last
        rw [last]
      · exact ih (by omega) (by omega)
  rw [get?, tabulate, if_pos inside, shown count (Nat.le_refl _) inside]

end Backdrop

/-! ### Worlds -/

/-- The sprite on a board that is mapped. -/
def Sprite.turned (t : Transform) (size : Nat × Nat) (s : Sprite) : Sprite :=
  { s with tile := t.onTile size s.tile, motion := s.motion.map t.onHeading }

/-- The tile at a place of a board, row by row. -/
def Tile.ofPlace (width i : Nat) : Tile := ⟨(i % width : Nat), (i / width : Nat)⟩

namespace World

/-- The world without all that is on its board. Of the backgrounds only their number is left. -/
def offBoard (w : World) : World :=
  { w with width := 0, height := 0, backgrounds := .plain w.backgrounds.length 0, sprites := .empty, occupancy := .empty }

/-- One world is another one turned: what is on a tile of the one is on the tile of the other to which the transform takes
    it, sprites move as they are turned, and nothing else differs. -/
structure IsTurned (t : Transform) (w v : World) : Prop where
  size : v.size = t.onSize w.size
  background : ∀ tile, v.backgroundAt (t.onTile w.size tile) = w.backgroundAt tile
  occupant : ∀ tile, v.occupant (t.onTile w.size tile) = w.occupant tile
  sprite : ∀ id, v.sprite? id = (w.sprite? id).map (Sprite.turned t w.size)
  others : v.offBoard = w.offBoard

/-- The world with all that is on its board mapped by a transform. -/
def turned (t : Transform) (w : World) : World :=
  let size := t.onSize w.size
  { w with
    width := size.1
    height := size.2
    backgrounds := .tabulate w.backgrounds.length fun i =>
      (w.backgroundAt (t.inverse.onTile size (.ofPlace size.1 i))).getD 0
    sprites := w.sprites.mapValues (Sprite.turned t w.size)
    occupancy := ⟨w.occupancy.entries.map fun e => (t.onTile w.size e.1, e.2)⟩ }

variable {t : Transform} {w v : World}

/-! ### Tiles of a turned board -/

theorem inBounds_onTile (size : v.size = t.onSize w.size) (tile : Tile) :
    v.inBounds (t.onTile w.size tile) = w.inBounds tile := by
  obtain ⟨col, row⟩ := tile
  rw [Bool.eq_iff_iff, inBounds_iff, inBounds_iff]
  cases t <;>
    simp [World.size, Transform.onSize, Transform.onTile, Transform.corner, Transform.onOffset, Tile.shift] at size ⊢ <;>
    omega

theorem area_of_size (size : v.size = t.onSize w.size) : v.width * v.height = w.width * w.height := by
  cases t with
  | flipColumns | flipRows | halfTurn =>
    obtain ⟨width, height⟩ := Prod.mk.inj size
    rw [width, height]
  | quarterLeft | quarterRight =>
    obtain ⟨width, height⟩ := Prod.mk.inj size
    rw [width, height]
    exact Nat.mul_comm _ _

/-- Every place is that of a tile. -/
theorem exists_index? {i : Nat} (i_lt : i < v.width * v.height) : ∃ tile, v.index? tile = some i := by
  have listed : some i ∈ v.tiles.map v.index? := by
    rw [map_index?_tiles]
    exact List.mem_map_of_mem (List.mem_range.mpr i_lt)
  obtain ⟨tile, _, placed⟩ := List.mem_map.mp listed
  exact ⟨tile, placed⟩

theorem ofPlace_of_index? {tile : Tile} {i : Nat} (found : w.index? tile = some i) : Tile.ofPlace w.width i = tile := by
  obtain ⟨col, row⟩ := tile
  rw [index?] at found
  split at found
  · rename_i inside
    obtain ⟨⟨col_low, col_lt⟩, row_low, _⟩ := inBounds_iff.mp inside
    dsimp only at col_low col_lt row_low
    have wide : 0 < w.width := by omega
    have here : i = row.toNat * w.width + col.toNat := (Option.some.inj found).symm
    have col_small : col.toNat < w.width := by omega
    rw [Tile.ofPlace, here, Nat.mul_comm, Nat.mul_add_mod, Nat.mul_add_div wide, Nat.mod_eq_of_lt col_small,
      Nat.div_eq_of_lt col_small]
    simp only [Tile.mk.injEq]
    omega
  · cases found

/-- The backgrounds of the board are found again where their tiles go. -/
theorem backgroundAt_turned (c : Consistent w) (tile : Tile) :
    (w.turned t).backgroundAt (t.onTile w.size tile) = w.backgroundAt tile := by
  have inside := inBounds_onTile (v := w.turned t) (w := w) (t := t) rfl tile
  cases within : w.inBounds tile with
  | false => simp [backgroundAt, index?, inside, within]
  | true =>
    rw [within] at inside
    obtain ⟨i, placed⟩ : ∃ i, (w.turned t).index? (t.onTile w.size tile) = some i := ⟨_, if_pos inside⟩
    have i_lt := (index?_eq_some placed).2
    have kind : (w.turned t).backgrounds.get? i = some ((w.backgroundAt tile).getD 0) := by
      rw [area_of_size (w := w) (t := t) rfl, ← c.filled] at i_lt
      refine (Backdrop.get?_tabulate c.short i_lt _).trans ?_
      have back : Tile.ofPlace (t.onSize w.size).1 i = t.onTile w.size tile := ofPlace_of_index? placed
      rw [back, t.onTile_inverse]
    obtain ⟨k, found⟩ := c.exists_backgroundAt within
    rw [backgroundAt, placed, Option.bind_some, kind, found]
    rfl

namespace IsTurned

/-- Every tile is where a tile of the other board goes. -/
theorem exists_tile (t : Transform) (w : World) (tile : Tile) : ∃ origin, t.onTile w.size origin = tile :=
  ⟨_, t.onTile_undone tile⟩

theorem position (turned : w.IsTurned t v) (id : SpriteId) : v.position id = (w.position id).map (t.onTile w.size) := by
  rw [World.position, World.position, turned.sprite, Option.map_map, Option.map_map]
  rfl

theorem kinds (turned : w.IsTurned t v) : v.kinds = w.kinds := (congrArg World.kinds turned.others :)

/-- A world that is turned is as consistent as before. -/
theorem consistent (turned : w.IsTurned t v) (c : Consistent w) : Consistent v := by
  have nextId : v.nextId = w.nextId := (congrArg World.nextId turned.others :)
  have filled : v.backgrounds.length = w.backgrounds.length :=
    (congrArg (fun u : World => u.backgrounds.length) turned.others :)
  have before {id : SpriteId} {r : Sprite} (found : v.sprite? id = some r) :
      ∃ s, w.sprite? id = some s ∧ s.turned t w.size = r := by
    rw [turned.sprite] at found
    exact Option.map_eq_some_iff.mp found
  refine ⟨?_, ?_, ?_, ?_, ?_, ?_, ?_, ?_⟩
  · intro tile id
    obtain ⟨origin, rfl⟩ := exists_tile t w tile
    rw [turned.occupant, turned.position, c.occupied, Option.map_eq_some_iff]
    simp [t.onTile_injective.eq_iff]
  · intro id r found
    obtain ⟨s, here, rfl⟩ := before found
    exact c.own_id id s here
  · intro id r found
    obtain ⟨s, here, rfl⟩ := before found
    exact (inBounds_onTile turned.size s.tile).trans (c.inside id s here)
  · intro id r found
    obtain ⟨s, here, rfl⟩ := before found
    rw [turned.kinds]
    exact c.kind_lt id s here
  · intro id r found
    obtain ⟨s, here, rfl⟩ := before found
    rw [nextId]
    exact c.id_lt id s here
  · rw [area_of_size turned.size]
    exact c.area_lt
  · rw [filled, c.filled, area_of_size turned.size]
  · intro i kind shown
    have i_lt : i < v.width * v.height := by
      rw [area_of_size turned.size, ← c.filled, ← filled]
      exact (Option.ite_none_right_eq_some.mp shown).1
    obtain ⟨tile, placed⟩ := exists_index? i_lt
    obtain ⟨origin, rfl⟩ := exists_tile t w tile
    have before := turned.background origin
    rw [backgroundAt, placed, Option.bind_some, shown] at before
    obtain ⟨j, _, there⟩ := Option.bind_eq_some_iff.mp before.symm
    rw [turned.kinds]
    exact c.background_lt j kind there

end IsTurned

/-- Every consistent world can be turned. -/
theorem isTurned_turned (c : Consistent w) (t : Transform) : w.IsTurned t (w.turned t) where
  size := rfl
  background := backgroundAt_turned c
  occupant tile := by
    show Occupancy.find _ (w.occupancy.entries.map fun e => (t.onTile w.size e.1, e.2)) = Occupancy.find _ w.occupancy.entries
    induction w.occupancy.entries with
    | nil => rfl
    | cons entry rest ih => simp [Occupancy.find, t.onTile_injective.eq_iff, ih]
  sprite id := IdMap.get?_mapValues _ _ _
  others := rfl

end World
end Playfield
