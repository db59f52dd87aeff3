import Mathlib.Order.WellFounded
import Playfield.Proofs.GreatestMove

/-!
# Where sprites arrive

No sprite stops in front of a tile that is free in the end. The first of those that head for a tile either arrives or is stopped
by whoever holds the tile, and that one stays; what becomes of the others makes no difference.
-/
namespace Playfield

namespace World

/-- A sprite heads for a tile, and none of lower id does. -/
def HeadsFirst (w : World) (id : SpriteId) (t : Tile) : Prop :=
  w.Heads id t ∧ ∀ other, w.Heads other t → id.raw ≤ other.raw

variable {w v : World}

theorem exists_headsFirst {t : Tile} (wanted : ∃ id, w.Heads id t) : ∃ id, w.HeadsFirst id t := by
  obtain ⟨id, heads, least⟩ := (measure SpriteId.raw).wf.has_min { id | w.Heads id t } wanted
  exact ⟨id, heads, fun other also => Nat.le_of_not_lt (least other also)⟩

theorem Heads.target_unique {id : SpriteId} {t u : Tile} (heads : w.Heads id t) (also : w.Heads id u) : t = u := by
  obtain ⟨s, h, found, moving, rfl, _⟩ := heads
  obtain ⟨r, k, same, moving', rfl, _⟩ := also
  cases found.symm.trans same
  cases moving.symm.trans moving'
  rfl

/-! ### Who steps -/

/-- A feasible set stays feasible with an eligible sprite whose target is free or left by a member. -/
theorem Feasible.insert {M : Set SpriteId} (feasible : w.Feasible M) {id : SpriteId} {t : Tile} (eligible : w.Eligible id t)
    (ahead : w.occupant t = none ∨ ∃ other ∈ M, other ≠ id ∧ w.occupant t = some other) :
    w.Feasible (insert id M) := by
  have more {u : Tile} {other : SpriteId}
      (free : w.occupant u = none ∨ ∃ next ∈ M, next ≠ other ∧ w.occupant u = some next) :
      w.occupant u = none ∨ ∃ next ∈ Insert.insert id M, next ≠ other ∧ w.occupant u = some next :=
    free.imp_right fun ⟨next, member, differs, here⟩ => ⟨next, Set.mem_insert_of_mem id member, differs, here⟩
  rintro other (rfl | member)
  · exact ⟨t, eligible, more ahead⟩
  · obtain ⟨u, also, free⟩ := feasible other member
    exact ⟨u, also, more free⟩

/-- An eligible sprite steps if whoever is at its target does. -/
theorem steps_of_eligible (c : Consistent w) {id : SpriteId} {t : Tile} (eligible : w.Eligible id t)
    (leaves : ∀ other, w.occupant t = some other → other ∈ w.stepping) : id ∈ w.stepping := by
  have greatest := isGreatest_stepping c
  refine greatest.2 (greatest.1.insert eligible ?_) (Set.mem_insert id w.stepping)
  cases ahead : w.occupant t with
  | none => exact .inl rfl
  | some other =>
    refine .inr ⟨other, leaves other ahead, ?_, rfl⟩
    rintro rfl
    exact occupant_target_ne c eligible.1 ahead

/-- Whoever steps changes places with nobody. -/
theorem not_heads_back (c : Consistent w) {id other : SpriteId} {t home : Tile} (heads : w.Heads id t)
    (here : w.occupant t = some other) (own : w.position id = some home) (leaves : other ∈ w.stepping) :
    ¬w.Heads other home := by
  intro back
  obtain ⟨u, ⟨also, _, apart⟩, _⟩ := feasible_stepping c other leaves
  obtain rfl := also.target_unique back
  -- The other is eligible for this home, so whoever is there cannot head for where the other is.
  exact apart id t ((c.occupied _ _).mpr own) ((c.occupied _ _).mp here) heads

/-- The first of those that head for a tile steps if whoever is there does. -/
theorem HeadsFirst.steps (c : Consistent w) {id : SpriteId} {t : Tile} (first : w.HeadsFirst id t)
    (leaves : ∀ other, w.occupant t = some other → other ∈ w.stepping) : id ∈ w.stepping := by
  refine steps_of_eligible c ⟨first.1, first.2, ?_⟩ leaves
  intro other home here own
  exact not_heads_back c first.1 here own (leaves other here)

/-! ### Who is there in the end -/

theorem occupant_of_steps (c : Consistent w) (advanced : w.advance = .ok v) {id : SpriteId} {t : Tile}
    (heads : w.Heads id t) (steps : id ∈ w.stepping) : v.occupant t = some id := by
  obtain ⟨_, rfl⟩ := advance_eq_ok_iff.mp advanced
  obtain ⟨m, moved, rfl⟩ := steps
  obtain rfl := target_of_heads c ((resolve_sublist w).subset moved) heads
  exact occupant_commit_target (resolve_targets_nodup c) moved

theorem occupant_of_stays (c : Consistent w) (advanced : w.advance = .ok v) {id : SpriteId} {t : Tile}
    (here : w.occupant t = some id) (stays : id ∉ w.stepping) : v.occupant t = some id := by
  rw [mem_stepping] at stays
  refine ((c.advance advanced).occupied t id).mpr ?_
  obtain ⟨_, rfl⟩ := advance_eq_ok_iff.mp advanced
  exact (position_committed_other c stays).trans ((c.occupied t id).mp here)

/-- Once the world has advanced, every tile of the board that a sprite headed for is occupied: by the first of those that
    headed for it, or else by the sprite that was there before. -/
theorem advance_fills (reached : Reachable w) (room : w.tick + 1 < Word.full.size) :
    ∃ v, w.advance = .ok v ∧ ∀ t, (∃ id, w.Heads id t) →
      ∃ id, v.occupant t = some id ∧ (w.occupant t ≠ some id → w.HeadsFirst id t) := by
  have c := reached.consistent
  have advanced := advance_eq_ok_iff.mpr ⟨room, rfl⟩
  refine ⟨_, advanced, fun t wanted => ?_⟩
  obtain ⟨id, first⟩ := exists_headsFirst wanted
  by_cases leaves : ∀ other, w.occupant t = some other → other ∈ w.stepping
  · exact ⟨id, occupant_of_steps c advanced first.1 (first.steps c leaves), fun _ => first⟩
  · -- Whoever does not leave the tile keeps it, and nobody else can be there.
    obtain ⟨other, here, stays⟩ : ∃ other, w.occupant t = some other ∧ other ∉ w.stepping := by
      simpa using leaves
    exact ⟨other, occupant_of_stays c advanced here stays, fun new => absurd here new⟩

/-- Two sprites meet at a free tile, and one comes after each of them. -/
def junction : Checked World := do
  let w ← new 4 2 0 ⟨1, 1⟩ .standard
  Operation.runAll w [.spawn ⟨1, 0⟩ 0 (some .right), .spawn ⟨2, 1⟩ 0 (some .up), .spawn ⟨0, 0⟩ 0 (some .right),
    .spawn ⟨3, 1⟩ 0 (some .left)]

theorem junction_fills : ∃ w v, junction = .ok w ∧ w.advance = .ok v ∧ w.occupant ⟨2, 0⟩ = none ∧
    (∃ id, v.occupant ⟨2, 0⟩ = some id ∧ w.Heads id ⟨2, 0⟩) ∧ ∃ id, v.occupant ⟨2, 1⟩ = some id := by
  obtain ⟨w, built, room, free, meets, follows⟩ : ∃ w, junction = .ok w ∧ w.tick + 1 < Word.full.size ∧
      w.occupant ⟨2, 0⟩ = none ∧ w.Heads ⟨1⟩ ⟨2, 0⟩ ∧ w.Heads ⟨3⟩ ⟨2, 1⟩ :=
    ⟨_, rfl, by decide, rfl, ⟨_, _, rfl, rfl, rfl, rfl⟩, ⟨_, _, rfl, rfl, rfl, rfl⟩⟩
  have reached : Reachable w := by
    obtain ⟨empty, started, ran⟩ := bind_eq_ok.mp built
    exact (Reachable.new started).runAll ran
  obtain ⟨v, advanced, filled⟩ := advance_fills reached room
  obtain ⟨id, here, new⟩ := filled ⟨2, 0⟩ ⟨_, meets⟩
  obtain ⟨last, there, _⟩ := filled ⟨2, 1⟩ ⟨_, follows⟩
  exact ⟨w, v, built, advanced, free, ⟨id, here, (new (by simp [free])).1⟩, last, there⟩

end World
end Playfield
