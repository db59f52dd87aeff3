import Playfield.Proofs.Checked
import Playfield.Proofs.Tables
import Playfield.World.Engine

/-!
# Consistent worlds

The occupancy of a world and its sprites say the same twice. A world is consistent if they agree,
every sprite is where and what it may be, and every tile has a background of a known kind. Here is
what a write to one tile or one sprite keeps of that.
-/
namespace Playfield

namespace World

/-- Sprites and occupancy agree, sprites and backgrounds are of known kinds, and the tiles of the
    board can be counted in a signed word and have a background each. -/
structure Consistent (w : World) : Prop where
  occupied : ∀ t id, w.occupant t = some id ↔ w.position id = some t
  own_id : ∀ id s, w.sprite? id = some s → s.id = id
  inside : ∀ id s, w.sprite? id = some s → w.inBounds s.tile
  kind_lt : ∀ id s, w.sprite? id = some s → s.kind < w.kinds.sprites
  id_lt : ∀ id s, w.sprite? id = some s → id.raw < w.nextId
  area_lt : w.width * w.height < Word.half.reach
  filled : w.backgrounds.length = w.width * w.height
  background_lt : ∀ i kind, w.backgrounds.get? i = some kind → kind < w.kinds.backgrounds

/-- The columns and rows of a board. -/
def size (w : World) : Nat × Nat := (w.width, w.height)

/-- What consistency is about. -/
def board (w : World) : Nat × Nat × Kinds × Backdrop × IdMap Sprite × Occupancy × Nat :=
  (w.width, w.height, w.kinds, w.backgrounds, w.sprites, w.occupancy, w.nextId)

/-! ### Tiles -/

theorem inBounds_iff {w : World} {t : Tile} :
    w.inBounds t ↔ (0 ≤ t.col ∧ t.col < w.width) ∧ 0 ≤ t.row ∧ t.row < w.height := by
  simp [inBounds, and_assoc]

theorem index?_eq_some {w : World} {t : Tile} {i : Nat} (found : w.index? t = some i) :
    w.inBounds t ∧ i < w.width * w.height := by
  rw [index?] at found
  split at found
  · rename_i inside
    refine ⟨inside, ?_⟩
    obtain ⟨⟨_, col_lt⟩, _, row_lt⟩ := inBounds_iff.mp inside
    have row_le : t.row.toNat + 1 ≤ w.height := by omega
    have rows := Nat.mul_le_mul_right w.width row_le
    rw [Nat.succ_mul, Nat.mul_comm w.height] at rows
    cases found
    omega
  · cases found

/-- The places of the tiles of a row of the board follow those of the rows above it. -/
theorem map_index?_tiles (w : World) : w.tiles.map w.index? = (List.range (w.width * w.height)).map some := by
  have rows (n : Nat) (few : n ≤ w.height) :
      ((List.range n).flatMap fun row : Nat => (List.range w.width).map fun col : Nat => w.index? ⟨col, row⟩) =
        (List.range (w.width * n)).map some := by
    induction n with
    | zero => simp
    | succ n ih =>
      have last : ((List.range w.width).map fun col : Nat => w.index? ⟨col, n⟩) =
          (List.range w.width).map fun col => some (w.width * n + col) := by
        apply List.map_congr_left
        intro col member
        have col_lt := List.mem_range.mp member
        have inside : w.inBounds ⟨col, n⟩ := inBounds_iff.mpr (by constructor <;> constructor <;> simp <;> omega)
        simp [index?, inside, Nat.mul_comm]
      rw [List.range_succ, List.flatMap_append, ih (by omega), List.flatMap_singleton, last, Nat.mul_succ,
        List.range_add, List.map_append, List.map_map]
      rfl
  rw [← rows w.height (Nat.le_refl _), tiles, List.map_flatMap]
  simp only [List.map_map, Function.comp_def]

/-- The background kinds of the board, row by row. -/
def backgroundList (w : World) : List Nat := w.backgrounds.toList

theorem map_backgroundAt_tiles {w : World} (filled : w.backgrounds.length = w.width * w.height) :
    w.tiles.map w.backgroundAt = w.backgroundList.map some := by
  have composed : w.backgroundAt = (fun i : Option Nat => i.bind w.backgrounds.get?) ∘ w.index? := rfl
  rw [composed, ← List.map_map, map_index?_tiles, ← filled, backgroundList, Backdrop.toList, List.map_map, List.map_map]
  refine List.map_congr_left fun i member => ?_
  exact if_pos (List.mem_range.mp member)

/-! ### Sprites after a write -/

@[simp] theorem sprite?_modifySprite (w : World) (id other : SpriteId) (f : Sprite → Sprite) :
    (w.modifySprite id f).sprite? other =
      if id = other then (w.sprite? other).map f else w.sprite? other := by
  obtain ⟨k⟩ := id
  obtain ⟨j⟩ := other
  simp [sprite?, modifySprite]

@[simp] theorem sprite?_setMotion (w : World) (id other : SpriteId) (motion : Option Heading) :
    (w.setMotion id motion).sprite? other =
      if id = other then (w.sprite? other).map fun s => { s with motion := motion } else w.sprite? other :=
  sprite?_modifySprite w id other _

theorem position_eq_some {w : World} {id : SpriteId} {t : Tile} :
    w.position id = some t ↔ ∃ s, w.sprite? id = some s ∧ s.tile = t := Option.map_eq_some_iff

theorem mem_spriteList {w : World} {s : Sprite} : s ∈ w.spriteList ↔ ∃ id, w.sprite? id = some s := by
  constructor
  · intro member
    obtain ⟨k, found⟩ := IdMap.mem_values.mp member
    exact ⟨⟨k⟩, found⟩
  · rintro ⟨id, found⟩
    exact IdMap.mem_values.mpr ⟨id.raw, found⟩

namespace Consistent

variable {w : World}

/-- The places of the board can be counted in a signed word. -/
theorem short (c : Consistent w) : w.backgrounds.length ≤ Word.half.reach := by
  rw [c.filled]
  exact Nat.le_of_lt c.area_lt

/-- Every tile of the board has a background. -/
theorem exists_backgroundAt (c : Consistent w) {t : Tile} (inside : w.inBounds t) :
    ∃ kind, w.backgroundAt t = some kind := by
  have placed : w.index? t = some (t.row.toNat * w.width + t.col.toNat) := if_pos inside
  have i_lt := (index?_eq_some placed).2
  rw [← c.filled] at i_lt
  exact ⟨_, by rw [backgroundAt, placed, Option.bind_some, Backdrop.get?, if_pos i_lt]⟩

theorem occupant_of_sprite (c : Consistent w) {id : SpriteId} {s : Sprite} (found : w.sprite? id = some s) :
    w.occupant s.tile = some id :=
  (c.occupied _ _).mpr (position_eq_some.mpr ⟨s, found, rfl⟩)

theorem sprite_of_occupant (c : Consistent w) {id : SpriteId} {t : Tile} (here : w.occupant t = some id) :
    ∃ s, w.sprite? id = some s ∧ s.tile = t :=
  position_eq_some.mp ((c.occupied _ _).mp here)

/-- A tile shows a sprite of a kind if the one sprite on it is of that kind. -/
theorem spriteAt_eq_some_iff (c : Consistent w) {t : Tile} {kind : Nat} {id : SpriteId} :
    w.spriteAt t kind = some id ↔ w.occupant t = some id ∧ ∃ s, w.sprite? id = some s ∧ s.kind = kind := by
  rw [spriteAt]
  cases here : w.occupant t with
  | none => simp
  | some other =>
    obtain ⟨s, found, _⟩ := c.sprite_of_occupant here
    have own := c.own_id other s found
    simp only [Option.bind_some, found, Option.map_eq_some_iff, Option.filter_eq_some_iff, Option.some.injEq, beq_iff_eq]
    constructor
    · rintro ⟨_, ⟨rfl, same⟩, rfl⟩
      exact ⟨own.symm, s, own ▸ found, same⟩
    · rintro ⟨rfl, r, stored, same⟩
      cases found.symm.trans stored
      exact ⟨s, ⟨rfl, same⟩, own⟩

/-- No two sprites share a tile. -/
theorem id_eq_of_tile_eq (c : Consistent w) {id other : SpriteId} {s r : Sprite} (found : w.sprite? id = some s)
    (also : w.sprite? other = some r) (same : s.tile = r.tile) : id = other := by
  have here := c.occupant_of_sprite found
  rw [same, c.occupant_of_sprite also] at here
  exact (Option.some.inj here).symm

theorem sprites_ascending (c : Consistent w) : w.spriteList.Pairwise fun s r => s.id.raw < r.id.raw := by
  refine IdMap.values_ascending (fun s : Sprite => s.id.raw) ?_
  intro k s found
  rw [c.own_id ⟨k⟩ s found]

/-! ### What keeps a world consistent -/

/-- Counters, blocks, draws and the status have no part in consistency. -/
theorem of_board_eq (c : Consistent w) {v : World} (same : v.board = w.board) : Consistent v := by
  cases v
  cases w
  simp only [board, Prod.mk.injEq] at same
  obtain ⟨rfl, rfl, rfl, rfl, rfl, rfl, rfl⟩ := same
  exact ⟨c.occupied, c.own_id, c.inside, c.kind_lt, c.id_lt, c.area_lt, c.filled, c.background_lt⟩

/-- One sprite may be placed, changed, moved or taken away, as long as what becomes of it is legal and its
    tile changes hands with it. -/
theorem of_write (c : Consistent w) {v : World} (id : SpriteId) (after : Option Sprite)
    (size : v.width = w.width ∧ v.height = w.height) (kinds : v.kinds = w.kinds)
    (backgrounds : v.backgrounds = w.backgrounds) (nextId : w.nextId ≤ v.nextId)
    (sprites : ∀ other, v.sprite? other = if id = other then after else w.sprite? other)
    (occupancy : ∀ t, v.occupant t = if after.map Sprite.tile = some t then some id
      else if w.position id = some t then none else w.occupant t)
    (legal : ∀ s, after = some s → s.id = id ∧ w.inBounds s.tile ∧ s.kind < w.kinds.sprites ∧ id.raw < v.nextId ∧
      ∀ other, w.occupant s.tile = some other → other = id) : Consistent v := by
  have origin : ∀ other s, v.sprite? other = some s →
      (id = other ∧ after = some s) ∨ (id ≠ other ∧ w.sprite? other = some s) := by
    intro other s found
    rw [sprites] at found
    by_cases same : id = other
    · exact .inl ⟨same, by rwa [if_pos same] at found⟩
    · exact .inr ⟨same, by rwa [if_neg same] at found⟩
  have bounds : ∀ t, v.inBounds t = w.inBounds t := by
    intro t
    rw [inBounds, size.1, size.2, inBounds]
  refine ⟨?_, ?_, ?_, ?_, ?_, ?_, ?_, ?_⟩
  · intro t other
    have before := c.occupied t other
    have place : v.position other = (if id = other then after else w.sprite? other).map Sprite.tile := by
      rw [position, sprites]
    rw [occupancy, place]
    by_cases same : id = other
    · subst same
      by_cases entered : after.map Sprite.tile = some t
      · simp [entered]
      · by_cases left : w.position id = some t
        · simp [entered, left]
        · simp [entered, left, before]
    · rw [if_neg same, ← position, ← before]
      by_cases entered : after.map Sprite.tile = some t
      · -- Nobody else stood on the tile that the sprite takes.
        obtain ⟨s, becomes, rfl⟩ := Option.map_eq_some_iff.mp entered
        have alone : w.occupant s.tile ≠ some other := fun here => same ((legal s becomes).2.2.2.2 other here).symm
        simp [entered, same, alone]
      · by_cases left : w.position id = some t
        · have here := (c.occupied t id).mpr left
          simp [entered, left, here, same]
        · simp [entered, left]
  · intro other s found
    rcases origin other s found with ⟨rfl, becomes⟩ | ⟨_, before⟩
    · exact (legal s becomes).1
    · exact c.own_id other s before
  · intro other s found
    rw [bounds]
    rcases origin other s found with ⟨rfl, becomes⟩ | ⟨_, before⟩
    · exact (legal s becomes).2.1
    · exact c.inside other s before
  · intro other s found
    rw [kinds]
    rcases origin other s found with ⟨rfl, becomes⟩ | ⟨_, before⟩
    · exact (legal s becomes).2.2.1
    · exact c.kind_lt other s before
  · intro other s found
    rcases origin other s found with ⟨rfl, becomes⟩ | ⟨_, before⟩
    · exact (legal s becomes).2.2.2.1
    · exact Nat.lt_of_lt_of_le (c.id_lt other s before) nextId
  · rw [size.1, size.2]
    exact c.area_lt
  · rw [size.1, size.2, backgrounds]
    exact c.filled
  · rw [kinds, backgrounds]
    exact c.background_lt

theorem setMotion (c : Consistent w) (id : SpriteId) (motion : Option Heading) :
    Consistent (w.setMotion id motion) := by
  refine c.of_write id ((w.sprite? id).map fun s => { s with motion := motion }) ⟨rfl, rfl⟩ rfl rfl
    (Nat.le_refl _) ?_ ?_ ?_
  · intro other
    rw [sprite?_setMotion]
    split
    · rename_i same
      rw [same]
    · rfl
  · intro t
    rw [Option.map_map]
    show w.occupant t = if w.position id = some t then some id else if w.position id = some t then none else w.occupant t
    split
    · rename_i here
      exact (c.occupied t id).mpr here
    · rfl
  · intro s becomes
    obtain ⟨r, found, rfl⟩ := Option.map_eq_some_iff.mp becomes
    refine ⟨c.own_id id r found, c.inside id r found, c.kind_lt id r found, c.id_lt id r found, ?_⟩
    intro other here
    rw [c.occupant_of_sprite found] at here
    exact (Option.some.inj here).symm

theorem setBackground (c : Consistent w) (t : Tile) (kind : Nat) : Consistent (w.setBackground t kind).2 := by
  rw [World.setBackground]
  split
  · rename_i i found
    obtain ⟨_, i_lt⟩ := index?_eq_some found
    split
    · rename_i known
      refine ⟨c.occupied, c.own_id, c.inside, c.kind_lt, c.id_lt, c.area_lt, c.filled, ?_⟩
      intro j other there
      have shown : (w.backgrounds.put i kind).get? j = some other := there
      rw [Backdrop.get?_put w.backgrounds c.short (c.filled ▸ i_lt)] at shown
      split at shown
      · cases shown
        exact known
      · exact c.background_lt j other shown
    · exact c
  · exact c

theorem spawn (c : Consistent w) {t : Tile} {kind : Nat} {motion : Option Heading} {answer : Option SpriteId}
    {v : World} (spawned : w.spawn t kind motion = .ok (answer, v)) : Consistent v := by
  rw [World.spawn] at spawned
  split at spawned
  · rename_i allowed
    obtain ⟨inside, known, free⟩ := allowed
    obtain ⟨next, room, done⟩ := bind_eq_ok.mp spawned
    obtain ⟨_, rfl⟩ := unsigned_eq_ok_iff.mp room
    cases pure_eq_ok.mp done
    have fresh : w.position ⟨w.nextId⟩ = none := by
      cases here : w.position ⟨w.nextId⟩ with
      | none => rfl
      | some u =>
        obtain ⟨s, found, _⟩ := position_eq_some.mp here
        exact absurd (c.id_lt _ s found) (Nat.lt_irrefl _)
    refine c.of_write ⟨w.nextId⟩ (some ⟨⟨w.nextId⟩, kind, t, motion⟩) ⟨rfl, rfl⟩ rfl rfl
      (Nat.le_succ _) ?_ ?_ ?_
    · rintro ⟨k⟩
      simp [sprite?]
    · intro u
      simp [occupant, fresh]
    · rintro _ ⟨⟩
      refine ⟨rfl, inside, known, Nat.lt_succ_self _, ?_⟩
      intro other here
      rw [Option.isNone_iff_eq_none.mp free] at here
      cases here
  · cases pure_eq_ok.mp spawned
    exact c

/-- A sprite that is gone has left its tile. -/
theorem destroy (c : Consistent w) (id : SpriteId) : Consistent (w.destroy id) := by
  rw [World.destroy]
  split
  · rename_i s found
    refine c.of_write id none ⟨rfl, rfl⟩ rfl rfl (Nat.le_refl _) ?_ ?_ ?_
    · rintro ⟨j⟩
      obtain ⟨k⟩ := id
      simp [sprite?]
    · intro t
      simp [occupant, position, found]
    · rintro _ ⟨⟩
  · exact c

/-- A sprite may be moved to any free tile of the board. -/
theorem relocate (c : Consistent w) (id : SpriteId) {t : Tile} (inside : w.inBounds t) (free : w.occupant t = none) :
    Consistent (w.relocate id t) := by
  rw [World.relocate]
  split
  · rename_i s found
    refine c.of_write id (some { s with tile := t }) ⟨rfl, rfl⟩ rfl rfl (Nat.le_refl _) ?_ ?_ ?_
    · intro other
      refine (sprite?_modifySprite w id other _).trans ?_
      split
      · rename_i same
        rw [← same, found]
        rfl
      · rfl
    · intro u
      simp [occupant, position, found]
    · rintro _ ⟨⟩
      refine ⟨c.own_id id s found, inside, c.kind_lt id s found, c.id_lt id s found, ?_⟩
      intro other here
      rw [free] at here
      cases here
  · exact c

theorem portalBy (c : Consistent w) (chooser : Random.Chooser Tile) (id : SpriteId) (background : Nat) :
    Consistent (w.portalBy chooser id background) := by
  rw [World.portalBy]
  split
  · exact c
  · rename_i home _
    have later (draws : Random.Draws) : Consistent { w with draws := draws } := c.of_board_eq rfl
    rcases drawn : chooser.choose (w.destinations home background) w.draws with ⟨_ | t, draws⟩
    · exact later draws
    · have member : t ∈ w.destinations home background := chooser.mem_of_choose (by rw [drawn])
      obtain ⟨_, allowed⟩ := List.mem_filter.mp member
      simp only [Bool.and_eq_true, beq_iff_eq, Option.isNone_iff_eq_none] at allowed
      obtain ⟨⟨_, painted⟩, free⟩ := allowed
      obtain ⟨i, indexed, _⟩ := Option.bind_eq_some_iff.mp painted
      exact ((later draws).relocate id (index?_eq_some indexed).1 free).setMotion id none

end Consistent
end World
end Playfield
