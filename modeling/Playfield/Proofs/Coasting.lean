import Playfield.Proofs.Arrivals
import Playfield.Proofs.Frames

/-!
# Coasting to rest

Without commands all motion dies out. An advance carries a mover one tile nearer to the edge that it heads for or brings it to
rest for good, and sets nobody in motion. So after as many advances as the longer side of the board has tiles all sprites
rest, and from then on an advance changes nothing but the count of the ticks.
-/
namespace Playfield

namespace World

/-- The world after a number of advances with nothing done in between. -/
def coast (w : World) (n : Nat) : Checked World := Operation.runAll w (List.replicate n .advance)

/-- The number of tiles between a tile and the edge that a heading leads to. -/
def tilesAhead (w : World) (t : Tile) : Heading → Int
  | .left => t.col
  | .up => t.row
  | .right => w.width - 1 - t.col
  | .down => w.height - 1 - t.row

/-- Every sprite in motion has fewer than a number of tiles ahead of it. -/
def Nearing (w : World) (n : Nat) : Prop :=
  ∀ id s h, w.sprite? id = some s → s.motion = some h → w.tilesAhead s.tile h < n

/-- No sprite is in motion. -/
def AtRest (w : World) : Prop := ∀ id, w.motion id = none

variable {w v : World}

/-! ### Tiles ahead -/

theorem tilesAhead_shift (w : World) (t : Tile) (h : Heading) :
    w.tilesAhead (t.shift h.offset) h = w.tilesAhead t h - 1 := by
  cases h <;> simp only [tilesAhead, Tile.shift, Heading.offset] <;> omega

theorem tilesAhead_nonneg {t : Tile} (inside : w.inBounds t) (h : Heading) : 0 ≤ w.tilesAhead t h := by
  obtain ⟨⟨_, _⟩, _, _⟩ := inBounds_iff.mp inside
  cases h <;> simp only [tilesAhead] <;> omega

theorem tilesAhead_lt {t : Tile} (inside : w.inBounds t) (h : Heading) :
    w.tilesAhead t h < max w.width w.height := by
  obtain ⟨⟨_, _⟩, _, _⟩ := inBounds_iff.mp inside
  cases h <;> simp only [tilesAhead] <;> omega

theorem Consistent.nearing (c : Consistent w) {n : Nat} (long : max w.width w.height ≤ n) : w.Nearing n := by
  intro id s h found _
  have ahead := tilesAhead_lt (c.inside id s found) h
  omega

/-- Nobody in motion can have no tile left to be on. -/
theorem Consistent.atRest (c : Consistent w) (nearing : w.Nearing 0) : w.AtRest := by
  intro id
  by_contra moves
  obtain ⟨h, motion⟩ := Option.ne_none_iff_exists'.mp moves
  obtain ⟨s, found, moving⟩ := Option.bind_eq_some_iff.mp motion
  have none_left := nearing id s h found moving
  have some_left := tilesAhead_nonneg (c.inside id s found) h
  omega

/-! ### One advance -/

/-- Who is in motion afterwards was so before, in the same heading, and has taken its step. -/
theorem Steps.mover_before {M : Set SpriteId} (steps : w.Steps v M) {id : SpriteId} {r : Sprite} {h : Heading}
    (found : v.sprite? id = some r) (moving : r.motion = some h) :
    ∃ s, w.sprite? id = some s ∧ s.motion = some h ∧ r.tile = s.tile.shift h.offset := by
  cases before : w.sprite? id with
  | none =>
    rw [steps.absent id before] at found
    cases found
  | some s =>
    cases motion : s.motion with
    | none =>
      rw [steps.rested id s before motion] at found
      cases found
      rw [motion] at moving
      cases moving
    | some k =>
      by_cases chosen : id ∈ M
      · obtain ⟨q, j, same, moves, after⟩ := steps.stepped id chosen
        cases before.symm.trans same
        cases found.symm.trans after
        cases moves.symm.trans moving
        exact ⟨s, rfl, moves, rfl⟩
      · rw [steps.stopped id chosen s k before motion] at found
        cases found
        cases moving

theorem size_of_advance (advanced : w.advance = .ok v) : v.size = w.size :=
  (keeps_size .stream w.size).advance rfl advanced

/-- An advance brings everyone who stays in motion one tile nearer to the edge. -/
theorem Nearing.advance (c : Consistent w) {n : Nat} (nearing : w.Nearing (n + 1)) (advanced : w.advance = .ok v) :
    v.Nearing n := by
  intro id r h found moving
  obtain ⟨s, before, moved, tile⟩ := (steps_of_advance c advanced).mover_before found moving
  obtain ⟨width, height⟩ := Prod.mk.inj (size_of_advance advanced)
  have same : v.tilesAhead r.tile h = w.tilesAhead r.tile h := by
    cases h <;> simp [tilesAhead, width, height]
  have less := nearing id s h before moved
  rw [same, tile, tilesAhead_shift]
  omega

theorem AtRest.resolve (rests : w.AtRest) : w.resolve = ([], []) := by
  have nobody : w.movers = [] := by
    refine List.filterMap_eq_nil_iff.mpr fun s listed => ?_
    obtain ⟨id, found⟩ := mem_spriteList.mp listed
    have motion : s.motion = none := by simpa [World.motion, found] using rests id
    rw [Sprite.mover?, motion]
    rfl
  have settled : Mover.settle w.occupancy [] = ([], []) := Mover.settle_of_lost_nil rfl
  simp [World.resolve, nobody, settled]

/-- Where all sprites rest, an advance leaves the board as it is and brings nobody to rest. -/
theorem AtRest.advance (rests : w.AtRest) (advanced : w.advance = .ok v) :
    v.AtRest ∧ v.board = w.board ∧ v.rejected = [] := by
  obtain ⟨_, rfl⟩ := advance_eq_ok_iff.mp advanced
  rw [rests.resolve]
  exact ⟨rests, rfl, rfl⟩

/-! ### Advances one after the other -/

theorem coast_zero (w : World) : w.coast 0 = .ok w := rfl

theorem coast_succ_eq_ok {n : Nat} : w.coast (n + 1) = .ok v ↔ ∃ u, w.advance = .ok u ∧ u.coast n = .ok v := by
  rw [coast, List.replicate_succ, Operation.runAll, List.foldlM_cons, bind_eq_ok]
  rfl

/-- Only the count of the ticks can stop a world from advancing. -/
theorem exists_coast {n : Nat} (room : w.tick + n < Word.full.size) :
    ∃ v, w.coast n = .ok v ∧ v.tick = w.tick + n := by
  induction n generalizing w with
  | zero => exact ⟨w, coast_zero w, rfl⟩
  | succ n ih =>
    obtain ⟨u, advanced, counted⟩ : ∃ u, w.advance = .ok u ∧ u.tick = w.tick + 1 :=
      ⟨_, advance_eq_ok_iff.mpr ⟨by omega, rfl⟩, rfl⟩
    obtain ⟨v, later, total⟩ := ih (w := u) (by omega)
    exact ⟨v, coast_succ_eq_ok.mpr ⟨u, advanced, later⟩, by omega⟩

/-- The number of tiles ahead of the sprites in motion falls with every advance, until all rest. -/
theorem Nearing.coast (c : Consistent w) {n : Nat} (nearing : w.Nearing n) (ran : w.coast n = .ok v) : v.AtRest := by
  induction n generalizing w with
  | zero =>
    cases (coast_zero w).symm.trans ran
    exact c.atRest nearing
  | succ n ih =>
    obtain ⟨u, advanced, later⟩ := coast_succ_eq_ok.mp ran
    exact ih (c.advance advanced) (nearing.advance c advanced) later

theorem AtRest.coast (rests : w.AtRest) {m : Nat} (ran : w.coast m = .ok v) :
    v.AtRest ∧ v.board = w.board ∧ (0 < m → v.rejected = []) := by
  induction m generalizing w with
  | zero =>
    cases (coast_zero w).symm.trans ran
    exact ⟨rests, rfl, nofun⟩
  | succ m ih =>
    obtain ⟨u, advanced, later⟩ := coast_succ_eq_ok.mp ran
    obtain ⟨still, board, nobody⟩ := rests.advance advanced
    obtain ⟨last, same, none_stopped⟩ := ih still later
    refine ⟨last, same.trans board, fun _ => ?_⟩
    cases m with
    | zero =>
      cases (coast_zero u).symm.trans later
      exact nobody
    | succ m => exact none_stopped (Nat.succ_pos m)

/-- After as many advances as the longer side of the board has tiles no sprite is in motion. Every further advance leaves all
    sprites and backgrounds as they are and brings nobody to rest. -/
theorem coast_comes_to_rest {n : Nat} (reached : Reachable w) (long : max w.width w.height ≤ n) :
    (w.tick + n < Word.full.size → ∃ v, w.coast n = .ok v) ∧
      ∀ v, w.coast n = .ok v → (∀ id, v.motion id = none) ∧
        ∀ m, (v.tick + m < Word.full.size → ∃ u, v.coast m = .ok u) ∧
          ∀ u, v.coast m = .ok u → u.board = v.board ∧ (∀ id, u.motion id = none) ∧ (0 < m → u.rejected = []) := by
  have c := reached.consistent
  refine ⟨fun room => (exists_coast room).imp fun _ => And.left, fun v ran => ?_⟩
  have rests := (c.nearing long).coast c ran
  refine ⟨rests, fun m => ⟨fun room => (exists_coast room).imp fun _ => And.left, fun u later => ?_⟩⟩
  obtain ⟨still, board, nobody⟩ := rests.coast later
  exact ⟨board, still, nobody⟩

/-- A sprite that crosses the whole board, and one that meets it on the way. -/
def crossing : Checked World := do
  let w ← new 3 2 0 ⟨1, 1⟩ .standard
  Operation.runAll w [.spawn ⟨0, 0⟩ 0 (some .right), .spawn ⟨1, 1⟩ 0 (some .up)]

/-- One advance less would not do: after two the sprite has come to the edge and still heads for it. -/
theorem crossing_comes_to_rest : ∃ w u v x, crossing = .ok w ∧ w.coast 2 = .ok u ∧ u.motion ⟨0⟩ = some .right ∧
    w.coast 3 = .ok v ∧ (∀ id, v.motion id = none) ∧ v.coast 1 = .ok x ∧ x.board = v.board ∧ x.rejected = [] := by
  obtain ⟨w, built, long, ticks⟩ : ∃ w, crossing = .ok w ∧ max w.width w.height ≤ 3 ∧ w.tick = 0 :=
    ⟨_, rfl, by decide, rfl⟩
  have reached : Reachable w := .of_built built
  have room : w.tick + 4 < Word.full.size := by rw [ticks]; decide
  have heads : ((crossing >>= fun w => w.coast 2).toOption.bind fun u => u.motion ⟨0⟩) = some .right := by
    decide +kernel
  obtain ⟨u, before, _⟩ := exists_coast (w := w) (n := 2) (by omega)
  rw [built, ok_bind, before] at heads
  obtain ⟨v, ran, total⟩ := exists_coast (w := w) (n := 3) (by omega)
  obtain ⟨rests, further⟩ := (coast_comes_to_rest reached long).2 v ran
  obtain ⟨x, later⟩ := (further 1).1 (by omega)
  obtain ⟨board, _, nobody⟩ := (further 1).2 x later
  exact ⟨w, u, v, x, built, before, heads, ran, rests, later, board, nobody (by decide)⟩

end World
end Playfield
