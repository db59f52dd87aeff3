import Playfield.Proofs.Frames

/-!
# Portals

A portal sends a sprite to some free tile of the background kind that is asked for. Which one it is hangs on the draw; that it
is one of them does not, and nor does what becomes of the rest of the world. Where there is none, the sprite stays as it is.
-/
namespace Playfield.World

/-- A portal of a background kind may send a sprite from its home to a tile: one of the board that has this background and
    is free. -/
structure Invites (w : World) (home : Tile) (background : Nat) (t : Tile) : Prop where
  inside : w.inBounds t
  away : t ≠ home
  painted : w.backgroundAt t = some background
  free : w.occupant t = none

/-- One world comes from another in that a sprite has been sent to a tile, where it rests. All else but the draws is as
    before. -/
structure Sends (w v : World) (id : SpriteId) (s : Sprite) (t : Tile) : Prop where
  sprite : v.sprite? id = some { s with tile := t, motion := none }
  others : ∀ other, other ≠ id → v.sprite? other = w.sprite? other
  entered : v.occupant t = some id
  left : v.occupant s.tile = none
  elsewhere : ∀ u, u ≠ t → u ≠ s.tile → v.occupant u = w.occupant u
  rest : v = { w with sprites := v.sprites, occupancy := v.occupancy, draws := v.draws }

variable {w : World} {id : SpriteId} {s : Sprite} {background : Nat} {home t : Tile}

/-! ### Where a portal may lead -/

theorem mem_tiles : t ∈ w.tiles ↔ w.inBounds t := by
  rw [inBounds_iff, tiles, List.mem_flatMap]
  constructor
  · rintro ⟨row, above, member⟩
    obtain ⟨col, before, rfl⟩ := List.mem_map.mp member
    have col_lt := List.mem_range.mp before
    have row_lt := List.mem_range.mp above
    exact ⟨⟨Int.natCast_nonneg _, Int.ofNat_lt.mpr col_lt⟩, Int.natCast_nonneg _, Int.ofNat_lt.mpr row_lt⟩
  · rintro ⟨⟨col_nonneg, col_lt⟩, row_nonneg, row_lt⟩
    refine ⟨t.row.toNat, List.mem_range.mpr (by omega), List.mem_map.mpr ⟨t.col.toNat, List.mem_range.mpr (by omega), ?_⟩⟩
    rw [Int.toNat_of_nonneg col_nonneg, Int.toNat_of_nonneg row_nonneg]

theorem mem_destinations : t ∈ w.destinations home background ↔ w.Invites home background t := by
  rw [destinations, List.mem_filter, mem_tiles]
  simp only [Bool.and_eq_true, bne_iff_ne, beq_iff_eq, Option.isNone_iff_eq_none]
  constructor
  · rintro ⟨inside, ⟨away, painted⟩, free⟩
    exact ⟨inside, away, painted, free⟩
  · rintro ⟨inside, away, painted, free⟩
    exact ⟨inside, ⟨away, painted⟩, free⟩

/-- No tile has a background of an unknown kind. -/
theorem Consistent.not_invites (c : Consistent w) (unknown : w.kinds.backgrounds ≤ background) (home t : Tile) :
    ¬w.Invites home background t := by
  intro invited
  obtain ⟨i, _, shown⟩ := Option.bind_eq_some_iff.mp invited.painted
  exact absurd (c.background_lt i background shown) (Nat.not_lt.mpr unknown)

/-! ### Where it leads -/

variable {chooser : Random.Chooser Tile}

theorem portalBy_of_absent (absent : w.sprite? id = none) : w.portalBy chooser id background = w := by
  rw [portalBy, position, absent]
  rfl

theorem portalBy_of_drawn (found : w.sprite? id = some s) {draws : Random.Draws}
    (drawn : chooser.choose (w.destinations s.tile background) w.draws = (some t, draws)) :
    w.portalBy chooser id background =
      { w with
        sprites := (w.sprites.modify id.raw fun s => { s with tile := t }).modify id.raw fun s => { s with motion := none }
        occupancy := (w.occupancy.vacate s.tile).occupy t id
        draws := draws } := by
  have there : World.sprite? { w with draws := draws } id = some s := found
  simp only [portalBy, position, found, Option.map_some, drawn, relocate, there]
  rfl

theorem portalBy_of_not_drawn (found : w.sprite? id = some s) {draws : Random.Draws}
    (drawn : chooser.choose (w.destinations s.tile background) w.draws = (none, draws)) :
    w.portalBy chooser id background = { w with draws := draws } := by
  simp only [portalBy, position, found, Option.map_some, drawn]

/-- The tile that is drawn is one to which the portal may lead, and there the sprite goes. -/
theorem sends_of_drawn (found : w.sprite? id = some s) {draws : Random.Draws}
    (drawn : chooser.choose (w.destinations s.tile background) w.draws = (some t, draws)) :
    w.Invites s.tile background t ∧ w.Sends (w.portalBy chooser id background) id s t := by
  have invited : w.Invites s.tile background t := mem_destinations.mp (chooser.mem_of_choose (by rw [drawn]))
  have sprites (other : SpriteId) : (w.portalBy chooser id background).sprite? other =
      if id = other then some { s with tile := t, motion := none } else w.sprite? other := by
    rw [portalBy_of_drawn found drawn, sprite?, IdMap.get?_modify, IdMap.get?_modify]
    by_cases same : id = other
    · subst same
      rw [sprite?] at found
      simp [found]
    · obtain ⟨k⟩ := id
      obtain ⟨j⟩ := other
      have apart : k ≠ j := fun eq => same (congrArg SpriteId.mk eq)
      rw [if_neg apart, if_neg apart, if_neg same]
      rfl
  have occupancy (u : Tile) : (w.portalBy chooser id background).occupant u =
      if t = u then some id else if s.tile = u then none else w.occupant u := by
    rw [portalBy_of_drawn found drawn, occupant, Occupancy.at?_occupy, Occupancy.at?_vacate]
    rfl
  refine ⟨invited, ?_, fun other apart => ?_, ?_, ?_, fun u entered left => ?_, ?_⟩
  · rw [sprites, if_pos rfl]
  · rw [sprites, if_neg (Ne.symm apart)]
  · rw [occupancy, if_pos rfl]
  · rw [occupancy, if_neg invited.away, if_pos rfl]
  · rw [occupancy, if_neg (Ne.symm entered), if_neg (Ne.symm left)]
  · rw [portalBy_of_drawn found drawn]

/-- Whatever tile is drawn, a portal sends a sprite to a tile to which it may lead, if there is one, and brings it to rest
    there. If there is none, also for want of such a background, or if the sprite is gone, only the draws can change. -/
theorem portalBy_sends_or_leaves (reached : Reachable w) (chooser : Random.Chooser Tile) (id : SpriteId) (background : Nat) :
    (∀ s, w.sprite? id = some s → (∃ t, w.Invites s.tile background t) →
      ∃ t, w.Invites s.tile background t ∧ w.Sends (w.portalBy chooser id background) id s t) ∧
      ((∀ s, w.sprite? id = some s → ∀ t, ¬w.Invites s.tile background t) →
        ∃ draws, w.portalBy chooser id background = { w with draws := draws }) ∧
      (w.kinds.backgrounds ≤ background → ∀ home t, ¬w.Invites home background t) := by
  refine ⟨fun s found some_tile => ?_, fun nowhere => ?_, reached.consistent.not_invites⟩
  · rcases drawn : chooser.choose (w.destinations s.tile background) w.draws with ⟨_ | t, draws⟩
    · obtain ⟨t, invited⟩ := some_tile
      have picked := chooser.isSome_of_ne_nil w.draws (List.ne_nil_of_mem (mem_destinations.mpr invited))
      rw [drawn] at picked
      cases picked
    · exact ⟨t, sends_of_drawn found drawn⟩
  · cases found : w.sprite? id with
    | none => exact ⟨w.draws, portalBy_of_absent found⟩
    | some s =>
      rcases drawn : chooser.choose (w.destinations s.tile background) w.draws with ⟨_ | t, draws⟩
      · exact ⟨draws, portalBy_of_not_drawn found drawn⟩
      · exact absurd (sends_of_drawn found drawn).1 (nowhere s found t)

/-- A board with two tiles of the second background, on one of which a sprite stands, and a sprite on its way elsewhere. -/
def gallery : Checked World := do
  let w ← new 5 5 0 ⟨2, 3⟩ .standard
  Operation.runAll w [.setBackground ⟨4, 4⟩ 1, .setBackground ⟨0, 4⟩ 1, .spawn ⟨0, 4⟩ 2 none, .spawn ⟨2, 2⟩ 0 (some .up)]

/-- The portal leads to the one of the two tiles that is free. For the other sprite there is no tile of a third background. -/
theorem portal_of_gallery : ∃ w s, gallery = .ok w ∧ w.sprite? ⟨1⟩ = some s ∧ s.motion = some .up ∧
    w.Sends (w.portal ⟨1⟩ 1) ⟨1⟩ s ⟨4, 4⟩ ∧ ∃ draws, w.portal ⟨0⟩ 2 = { w with draws := draws } := by
  obtain ⟨w, s, built, found, moving, kinds, free⟩ : ∃ w s, gallery = .ok w ∧ w.sprite? ⟨1⟩ = some s ∧
      s.motion = some .up ∧ w.kinds.backgrounds = 2 ∧ w.destinations s.tile 1 = [⟨4, 4⟩] :=
    ⟨_, _, rfl, rfl, rfl, rfl, by decide +kernel⟩
  have reached : Reachable w := .of_built built
  have only (t : Tile) : w.Invites s.tile 1 t ↔ t = ⟨4, 4⟩ := by rw [← mem_destinations, free, List.mem_singleton]
  obtain ⟨sends, _, _⟩ := portalBy_sends_or_leaves reached .stream ⟨1⟩ 1
  obtain ⟨t, invited, sent⟩ := sends s found ⟨_, (only _).mpr rfl⟩
  cases (only t).mp invited
  obtain ⟨_, leaves, nowhere⟩ := portalBy_sends_or_leaves reached .stream ⟨0⟩ 2
  exact ⟨w, s, built, found, moving, sent, leaves fun r _ => nowhere (Nat.le_of_eq kinds) r.tile⟩

end Playfield.World
