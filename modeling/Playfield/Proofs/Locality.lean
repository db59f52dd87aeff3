import Playfield.Proofs.Sweeps

/-!
# What can make a difference to a match

A match is told by the sprite's tile and motion, by what is on the twelve tiles one or two steps from it, and by the motions
of the sprites there. Whatever is on its own tile or further away cannot make a difference, through no transform.
-/
namespace Playfield

variable {ι : Type}

theorem Cell.offset_ofOffset {o : Offset} (dx : o.dx.natAbs ≤ 2) (dy : o.dy.natAbs ≤ 2) : (ofOffset o).offset = o := by
  obtain ⟨x, y⟩ := o
  dsimp only at dx dy
  simp only [offset, ofOffset, UInt8.toNat_ofNat', Offset.mk.injEq]
  omega

namespace Tile

/-- The Manhattan distance between two tiles. -/
def distance (home tile : Tile) : Nat := (tile.col - home.col).natAbs + (tile.row - home.row).natAbs

/-- A tile that can be named, one or two steps from another. -/
structure Beside (home tile : Tile) : Prop where
  near : home.distance tile = 1 ∨ home.distance tile = 2
  col : -(Word.half.reach : Int) ≤ tile.col ∧ tile.col < Word.half.reach
  row : -(Word.half.reach : Int) ≤ tile.row ∧ tile.row < Word.half.reach

theorem shift_offsetTo (home tile : Tile) : home.shift (home.offsetTo tile) = tile := by
  obtain ⟨col, row⟩ := tile
  simp only [shift, offsetTo, Tile.mk.injEq]
  omega

theorem distance_shift (home : Tile) (c : Cell) : home.distance (home.shift c.offset) = c.distance := by
  rw [distance, Cell.distance, shift]
  dsimp only
  omega

theorem shifted_eq_ok_iff {home tile : Tile} {o : Offset} : home.shifted o = .ok tile ↔
    tile = home.shift o ∧ (-(Word.half.reach : Int) ≤ tile.col ∧ tile.col < Word.half.reach) ∧
      -(Word.half.reach : Int) ≤ tile.row ∧ tile.row < Word.half.reach := by
  rw [shifted]
  constructor
  · intro named
    obtain ⟨col, wide, named⟩ := bind_eq_ok.mp named
    obtain ⟨row, high, named⟩ := bind_eq_ok.mp named
    obtain ⟨col_word, rfl⟩ := signed_eq_ok_iff.mp wide
    obtain ⟨row_word, rfl⟩ := signed_eq_ok_iff.mp high
    cases pure_eq_ok.mp named
    exact ⟨rfl, col_word, row_word⟩
  · rintro ⟨rfl, ⟨left, right⟩, up, down⟩
    exact bind_eq_ok.mpr ⟨_, signed_eq_ok left right, bind_eq_ok.mpr ⟨_, signed_eq_ok up down, rfl⟩⟩

/-- The tiles that are looked at are those beside the sprite. -/
theorem beside_iff {home tile : Tile} :
    home.Beside tile ↔ ∃ c ∈ Cell.neighbourhood, home.shifted c.offset = .ok tile := by
  constructor
  · rintro ⟨near, col, row⟩
    have step : (home.offsetTo tile).dx.natAbs + (home.offsetTo tile).dy.natAbs = home.distance tile := rfl
    have offset := Cell.offset_ofOffset (o := home.offsetTo tile) (by omega) (by omega)
    refine ⟨.ofOffset (home.offsetTo tile), ?_, ?_⟩
    · rw [Cell.mem_neighbourhood_iff, Cell.distance, offset, step]
      exact near
    · rw [offset, shifted_eq_ok_iff]
      exact ⟨(home.shift_offsetTo tile).symm, col, row⟩
  · rintro ⟨c, near, named⟩
    obtain ⟨rfl, col, row⟩ := shifted_eq_ok_iff.mp named
    rw [Cell.mem_neighbourhood_iff] at near
    exact ⟨by rwa [distance_shift], col, row⟩

end Tile

/-- Two grids agree on a sprite, on what is beside it, and on how that moves. -/
structure Grid.AgreeAround (s : ι) (g g' : Grid ι) : Prop where
  position : g'.position s = g.position s
  motion : g'.motion s = g.motion s
  backgroundAt : ∀ home tile, g.position s = some home → home.Beside tile → g'.backgroundAt tile = g.backgroundAt tile
  spriteAt : ∀ home tile, g.position s = some home → home.Beside tile →
    ∀ kind, g'.spriteAt tile kind = g.spriteAt tile kind
  motions : ∀ home tile, g.position s = some home → home.Beside tile →
    ∀ kind x, g.spriteAt tile kind = some x → g'.motion x = g.motion x

/-- A grid of which nothing is known but its sprites' tiles and motions, and what is one or two steps from a tile. -/
def Grid.veiled (g : Grid ι) (home : Tile) : Grid ι where
  backgroundAt tile := if home.distance tile = 1 ∨ home.distance tile = 2 then g.backgroundAt tile else none
  spriteAt tile kind := if home.distance tile = 1 ∨ home.distance tile = 2 then g.spriteAt tile kind else none
  position := g.position
  motion := g.motion

theorem Grid.AgreeAround.veiled {g : Grid ι} {s : ι} {home : Tile} (placed : g.position s = some home) :
    g.AgreeAround s (g.veiled home) where
  position := rfl
  motion := rfl
  backgroundAt here tile also beside := by
    cases placed.symm.trans also
    exact if_pos beside.near
  spriteAt here tile also beside kind := by
    cases placed.symm.trans also
    exact if_pos beside.near
  motions _ _ _ _ _ _ _ := rfl

namespace Matcher

/-- A match is the same on two grids that agree around the sprite. -/
theorem evaluate_local (m : Matcher) (v : View) {s : ι} {g g' : Grid ι} (agree : g.AgreeAround s g') :
    m.evaluate g' s v = m.evaluate g s v := by
  have same : Unless (∃ home, g.position s = some home ∧ False) (m.evaluate g s v) (m.evaluate g' s v) := by
    refine evaluate_unless rfl rfl rfl agree.position agree.motion ?_
    intro home placed c near
    have shares : m.share g' v home c = m.share g v home c := by
      refine share_congr rfl rfl fun tile named => ?_
      have beside := Tile.beside_iff.mpr ⟨c, near, named⟩
      refine ⟨agree.backgroundAt home tile placed beside, fun kind => ?_⟩
      exact ⟨agree.spriteAt home tile placed beside kind, agree.motions home tile placed beside kind⟩
    exact .inl shares.symm
  exact (same.imp fun ⟨_, _, never⟩ => never).eq.symm

/-- Of the flight, nothing need be known but what is beside the sprite that flees. -/
theorem evaluate_flight_veiled : ∃ f, f.commands.length = 3 ∧
    evaluate ⟨⟨5, 5⟩, .second⟩ (pair ⟨5, 5⟩ ⟨6, 5⟩ .right) false flight = .ok (some f) ∧
    evaluate ⟨⟨5, 5⟩, .second⟩ ((pair ⟨5, 5⟩ ⟨6, 5⟩ .right).veiled ⟨5, 5⟩) false flight = .ok (some f) ∧
    ((pair ⟨5, 5⟩ ⟨6, 5⟩ .right).veiled ⟨5, 5⟩).backgroundAt ⟨5, 5⟩ ≠ (pair ⟨5, 5⟩ ⟨6, 5⟩ .right).backgroundAt ⟨5, 5⟩ := by
  have agree : (pair ⟨5, 5⟩ ⟨6, 5⟩ .right).AgreeAround false ((pair ⟨5, 5⟩ ⟨6, 5⟩ .right).veiled ⟨5, 5⟩) := .veiled rfl
  obtain ⟨f, fired, three⟩ : ∃ f,
      evaluate ⟨⟨5, 5⟩, .second⟩ (pair ⟨5, 5⟩ ⟨6, 5⟩ .right) false flight = .ok (some f) ∧ f.commands.length = 3 :=
    ⟨_, rfl, rfl⟩
  exact ⟨f, three, fired, (evaluate_local ⟨⟨5, 5⟩, .second⟩ flight agree).trans fired, by decide⟩

end Matcher
end Playfield
