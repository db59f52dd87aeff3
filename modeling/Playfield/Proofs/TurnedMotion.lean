import Playfield.Proofs.Alike
import Playfield.Proofs.Arrivals
import Playfield.Proofs.Turning

/-!
# The motion of turned worlds

No side of the board is preferred when the sprites in motion take their steps. Movers whose tiles are mapped without two tiles
becoming one are stopped in the same rounds, so a world that is turned first and then advances is the advanced world turned.
-/
namespace Playfield

/-! ### Movers on mapped tiles -/

namespace Mover

/-- The mover with its tiles mapped. -/
def mapped (f : Tile → Tile) (m : Mover) : Mover := ⟨m.id, f m.origin, f m.target⟩

variable {f : Tile → Tile} {o p : Occupancy}

theorem stands_mapped (injective : Function.Injective f) (same : ∀ tile, p.at? (f tile) = o.at? tile)
    (movers : List Mover) (m : Mover) : (m.mapped f).stands p (movers.map (mapped f)) = m.stands o movers := by
  have alike (a b : Tile) : (f a == f b) = (a == b) := by
    rw [Bool.eq_iff_iff, beq_iff_eq, beq_iff_eq, injective.eq_iff]
  have blocked : (m.mapped f).blocked p (movers.map (mapped f)) = m.blocked o movers := by
    simp only [Mover.blocked, mapped, same, List.any_map, Function.comp_def]
  have first : (m.mapped f).first (movers.map (mapped f)) = m.first movers := by
    simp only [Mover.first, mapped, List.find?_map, Function.comp_def, alike, Option.any_map]
  have swaps : (m.mapped f).swaps (movers.map (mapped f)) = m.swaps movers := by
    simp only [Mover.swaps, mapped, List.any_map, Function.comp_def, alike]
  rw [stands, stands, blocked, first, swaps]

theorem kept_mapped (injective : Function.Injective f) (same : ∀ tile, p.at? (f tile) = o.at? tile)
    (movers : List Mover) : kept p (movers.map (mapped f)) = (kept o movers).map (mapped f) := by
  simp only [kept, List.filter_map, Function.comp_def, stands_mapped injective same]

theorem lost_mapped (injective : Function.Injective f) (same : ∀ tile, p.at? (f tile) = o.at? tile)
    (movers : List Mover) : lost p (movers.map (mapped f)) = (lost o movers).map (mapped f) := by
  simp only [lost, List.filter_map, Function.comp_def, stands_mapped injective same]

/-- Round by round, the same movers are lost. -/
theorem settle_mapped (injective : Function.Injective f) (same : ∀ tile, p.at? (f tile) = o.at? tile)
    (movers : List Mover) :
    settle p (movers.map (mapped f)) = ((settle o movers).1.map (mapped f), (settle o movers).2.map (mapped f)) := by
  have lost_same := lost_mapped injective same
  induction movers using settle.induct (o := o) with
  | case1 movers stable =>
    have also : lost p (movers.map (mapped f)) = [] := by rw [lost_same, stable, List.map_nil]
    rw [settle_of_lost_nil stable, settle_of_lost_nil also, List.map_nil]
  | case2 movers some_lost ih =>
    have also : lost p (movers.map (mapped f)) ≠ [] := by
      rw [lost_same]
      exact mt List.map_eq_nil_iff.mp some_lost
    rw [settle_of_lost_ne_nil some_lost, settle_of_lost_ne_nil also, lost_same, kept_mapped injective same, ih,
      List.map_append]

end Mover

/-! ### Changes of mapped tables -/

namespace IdMap

variable {α β γ : Type} {f : α → β}

theorem modify_mapValues {g : α → α} {h : β → β} (commutes : ∀ a, h (f a) = f (g a)) (m : IdMap α) (k : Nat) :
    (m.mapValues f).modify k h = (m.modify k g).mapValues f := by
  refine ext_get? fun j => ?_
  rw [get?_modify, get?_mapValues, get?_mapValues, get?_modify]
  split
  · rw [Option.map_map, Option.map_map]
    exact Option.map_congr fun a _ => commutes a
  · rfl

theorem foldl_modify_mapValues {key : γ → Nat} {g : γ → α → α} {h : γ → β → β}
    (commutes : ∀ c a, h c (f a) = f (g c a)) (l : List γ) (m : IdMap α) :
    l.foldl (fun m c => m.modify (key c) (h c)) (m.mapValues f) =
      (l.foldl (fun m c => m.modify (key c) (g c)) m).mapValues f := by
  induction l generalizing m with
  | nil => rfl
  | cons c rest ih => rw [List.foldl_cons, List.foldl_cons, modify_mapValues (commutes c), ih]

end IdMap

/-! ### Advancing -/

theorem Sprite.mover?_turned (t : Transform) (size : Nat × Nat) (s : Sprite) :
    (s.turned t size).mover? = s.mover?.map (Mover.mapped (t.onTile size)) := by
  have step (h : Heading) : (t.onTile size s.tile).shift (t.onHeading h).offset = t.onTile size (s.tile.shift h.offset) := by
    rw [t.offset_onHeading, t.onTile_shift]
  simp only [mover?, turned, Option.map_map, Function.comp_def, step]
  rfl

namespace World

variable {t : Transform} {w v : World}

namespace IsTurned

theorem sprites (turned : w.IsTurned t v) : v.sprites = w.sprites.mapValues (Sprite.turned t w.size) := by
  refine IdMap.ext_get? fun k => ?_
  rw [IdMap.get?_mapValues]
  exact turned.sprite ⟨k⟩

/-- Two consistent worlds need no comparison of who stands where beside that of the sprites. -/
theorem of_sprites (c : Consistent w) (d : Consistent v) (size : v.size = t.onSize w.size)
    (background : ∀ tile, v.backgroundAt (t.onTile w.size tile) = w.backgroundAt tile)
    (sprites : v.sprites = w.sprites.mapValues (Sprite.turned t w.size))
    (others : v.offBoard = w.offBoard) : w.IsTurned t v := by
  have sprite (id : SpriteId) : v.sprite? id = (w.sprite? id).map (Sprite.turned t w.size) := by
    rw [sprite?, sprites, IdMap.get?_mapValues, sprite?]
  refine ⟨size, background, ?_, sprite, others⟩
  intro tile
  refine Option.ext fun id => ?_
  rw [d.occupied, c.occupied, World.position, World.position, sprite, Option.map_map, Option.map_eq_some_iff,
    Option.map_eq_some_iff]
  simp [Sprite.turned, t.onTile_injective.eq_iff]

theorem movers (turned : w.IsTurned t v) : v.movers = w.movers.map (Mover.mapped (t.onTile w.size)) := by
  rw [World.movers, World.movers, spriteList, spriteList, turned.sprites, IdMap.values_mapValues, List.filterMap_map,
    List.map_filterMap]
  exact List.filterMap_congr fun s _ => s.mover?_turned t w.size

theorem inBounds_target (turned : w.IsTurned t v) (m : Mover) :
    v.inBounds (m.mapped (t.onTile w.size)).target = w.inBounds m.target := inBounds_onTile turned.size m.target

/-- The same sprites take their step, and the same come to rest, in the same order. -/
theorem resolve (turned : w.IsTurned t v) :
    v.resolve = (w.resolve.1.map (Mover.mapped (t.onTile w.size)), w.resolve.2) := by
  have headed : v.headed = w.headed.map (Mover.mapped (t.onTile w.size)) := by
    simp only [World.headed, turned.movers, List.filter_map, Function.comp_def, turned.inBounds_target]
  have settled := Mover.settle_mapped t.onTile_injective turned.occupant w.headed
  rw [← headed] at settled
  refine Prod.ext ?_ ?_
  · rw [resolve_fst, resolve_fst]
    exact congrArg Prod.fst settled
  · have outside : (v.movers.filter fun m => !v.inBounds m.target) =
        (w.movers.filter fun m => !w.inBounds m.target).map (Mover.mapped (t.onTile w.size)) := by
      simp only [turned.movers, List.filter_map, Function.comp_def, turned.inBounds_target]
    rw [resolve_snd, outside, congrArg Prod.snd settled, ← List.map_append, List.map_map, resolve_snd]
    rfl

theorem commit (turned : w.IsTurned t v) (c : Consistent w) :
    (w.commit w.resolve.1 w.resolve.2).IsTurned t (v.commit v.resolve.1 v.resolve.2) := by
  have d := turned.consistent c
  refine of_sprites c.commit d.commit ?_ ?_ ?_ ?_
  · rw [commit_eq, commit_eq]
    exact turned.size
  · rw [commit_eq, commit_eq]
    exact turned.background
  · rw [turned.resolve, commit_eq, commit_eq]
    dsimp only
    rw [List.foldl_map, turned.sprites,
      IdMap.foldl_modify_mapValues (g := fun _ s => { s with motion := none }) (fun _ _ => rfl),
      IdMap.foldl_modify_mapValues (g := fun m s => { s with tile := m.target }) (fun _ _ => rfl)]
    rfl
  · rw [commit_eq, commit_eq]
    exact turned.others

/-- Both worlds advance, or the count of the ticks stops both. -/
theorem advance (turned : w.IsTurned t v) (c : Consistent w) :
    Alike (fun a b => a.IsTurned t b ∧ b.rejected = a.rejected) w.advance v.advance := by
  have moved := turned.commit c
  have tick : v.tick = w.tick := (congrArg World.tick turned.others :)
  have pending : v.pendingBlocks = w.pendingBlocks := (congrArg World.pendingBlocks turned.others :)
  have rejected : v.resolve.2 = w.resolve.2 := by rw [turned.resolve]
  rw [World.advance, World.advance, tick]
  refine (Alike.refl (r := Eq) (fun _ => rfl) _).bind ?_
  rintro count _ rfl
  refine .ok ⟨⟨moved.size, moved.background, moved.occupant, moved.sprite, ?_⟩, rejected⟩
  show { (v.commit v.resolve.1 v.resolve.2).offBoard with
      blocked := v.pendingBlocks, pendingBlocks := [], tick := count, rejected := v.resolve.2 } =
    { (w.commit w.resolve.1 w.resolve.2).offBoard with
      blocked := w.pendingBlocks, pendingBlocks := [], tick := count, rejected := w.resolve.2 }
  rw [moved.others, pending, rejected]

end IsTurned

/-- To advance commutes with every transform of the board: of a reachable world that is turned, whatever keeps its tables, the
    next world is the next one turned, and the same sprites come to rest in the same order. -/
theorem advance_turned (reached : Reachable w) (t : Transform) :
    w.IsTurned t (w.turned t) ∧ ∀ u, w.IsTurned t u →
      Consistent u ∧ Alike (fun a b => a.IsTurned t b ∧ b.rejected = a.rejected) w.advance u.advance := by
  have c := reached.consistent
  refine ⟨isTurned_turned c t, ?_⟩
  intro u turned
  exact ⟨turned.consistent c, turned.advance c⟩

/-- The junction turned to the left runs up and down; the sprites that come to rest are those of the junction. -/
theorem junction_turned : ∃ w v u, junction = .ok w ∧ w.advance = .ok v ∧ (w.turned .quarterLeft).advance = .ok u ∧
    v.IsTurned .quarterLeft u ∧ v.rejected = [⟨1⟩, ⟨3⟩] ∧ u.rejected = [⟨1⟩, ⟨3⟩] := by
  have computed : (junction >>= advance).toOption.map World.rejected = some [⟨1⟩, ⟨3⟩] := by decide +kernel
  obtain ⟨w, built⟩ : ∃ w, junction = .ok w := ⟨_, rfl⟩
  have reached : Reachable w := by
    obtain ⟨empty, started, ran⟩ := bind_eq_ok.mp built
    exact (Reachable.new started).runAll ran
  obtain ⟨turned, every⟩ := advance_turned reached .quarterLeft
  obtain ⟨_, alike⟩ := every _ turned
  rw [built, ok_bind] at computed
  generalize ended : w.advance = first at alike computed
  generalize also : (w.turned .quarterLeft).advance = second at alike
  cases alike with
  | error cause => cases computed
  | ok related =>
    have stopped := Option.some.inj computed
    exact ⟨w, _, _, built, ended, also, related.1, stopped, related.2.trans stopped⟩

end World
end Playfield
