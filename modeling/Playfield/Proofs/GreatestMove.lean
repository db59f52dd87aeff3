import Mathlib.Order.Bounds.Basic
import Playfield.Proofs.Reachability

/-!
# The greatest move

What an advance does is said here without rounds. A sprite may step if no sprite of lower id heads
for its target and no sprite there heads back. Of all sets of such sprites whose targets are free
or left by another member, one is the greatest: it steps, and every other mover comes to rest.
-/
namespace Playfield

namespace World

/-- A sprite heads for a tile of the board. -/
def Heads (w : World) (id : SpriteId) (t : Tile) : Prop :=
  ∃ s h, w.sprite? id = some s ∧ s.motion = some h ∧ s.tile.shift h.offset = t ∧ w.inBounds t

/-- A sprite heads for a tile as the first of all, and changes places with nobody. -/
def Eligible (w : World) (id : SpriteId) (t : Tile) : Prop :=
  w.Heads id t ∧ (∀ other, w.Heads other t → id.raw ≤ other.raw) ∧
    ∀ other home, w.occupant t = some other → w.position id = some home → ¬w.Heads other home

/-- Every member of a set is eligible for a tile that is free or held by another member. -/
def Feasible (w : World) (M : Set SpriteId) : Prop :=
  ∀ id ∈ M, ∃ t, w.Eligible id t ∧
    (w.occupant t = none ∨ ∃ other ∈ M, other ≠ id ∧ w.occupant t = some other)

/-- A sprite heads for the tile of another. -/
def Behind (w : World) (id other : SpriteId) : Prop := ∃ t, w.Heads id t ∧ w.occupant t = some other

/-- One world follows another in that a set of sprites has stepped and all other movers rest. -/
structure Steps (w v : World) (M : Set SpriteId) : Prop where
  stepped : ∀ id ∈ M, ∃ s h, w.sprite? id = some s ∧ s.motion = some h ∧
    v.sprite? id = some { s with tile := s.tile.shift h.offset }
  stopped : ∀ id ∉ M, ∀ s h, w.sprite? id = some s → s.motion = some h →
    v.sprite? id = some { s with motion := none }
  rested : ∀ id s, w.sprite? id = some s → s.motion = none → v.sprite? id = some s
  absent : ∀ id, w.sprite? id = none → v.sprite? id = none
  rejected : ∀ id, id ∈ v.rejected ↔ (w.motion id).isSome ∧ id ∉ M
  rejected_once : v.rejected.Nodup
  backgrounds : v.backgrounds = w.backgrounds
  score : v.score = w.score
  level : v.level = w.level
  status : v.status = w.status
  draws : v.draws = w.draws

/-- The sprites that take their step when the world advances. -/
def stepping (w : World) : Set SpriteId := { id | ∃ m ∈ w.resolve.1, m.id = id }

variable {w : World}

/-! ### Movers and their targets -/

theorem heads_iff (c : Consistent w) {id : SpriteId} {t : Tile} :
    w.Heads id t ↔ ∃ m ∈ w.headed, m.id = id ∧ m.target = t := by
  constructor
  · rintro ⟨s, h, found, moving, target, inside⟩
    have member : (⟨id, s.tile, t⟩ : Mover) ∈ w.movers := (mem_movers c).mpr ⟨s, h, found, moving, rfl, target.symm⟩
    exact ⟨⟨id, s.tile, t⟩, mem_headed.mpr ⟨member, inside⟩, rfl, rfl⟩
  · rintro ⟨m, headed, rfl, rfl⟩
    obtain ⟨member, inside⟩ := mem_headed.mp headed
    obtain ⟨s, h, found, moving, _, target⟩ := (mem_movers c).mp member
    exact ⟨s, h, found, moving, target.symm, inside⟩

theorem target_of_heads (c : Consistent w) {m : Mover} {t : Tile} (headed : m ∈ w.headed) (heads : w.Heads m.id t) :
    m.target = t := by
  obtain ⟨n, also, same, rfl⟩ := (heads_iff c).mp heads
  rw [eq_of_mover_id c (mem_headed.mp headed).1 (mem_headed.mp also).1 same.symm]

theorem shift_offset_ne (t : Tile) (h : Heading) : t.shift h.offset ≠ t := by
  intro same
  have col := congrArg Tile.col same
  have row := congrArg Tile.row same
  cases h <;> simp only [Tile.shift, Heading.offset] at col row <;> omega

/-- Nobody is in the way of itself. -/
theorem occupant_target_ne (c : Consistent w) {id : SpriteId} {t : Tile} (heads : w.Heads id t) :
    w.occupant t ≠ some id := by
  intro here
  obtain ⟨s, h, found, _, target, _⟩ := heads
  obtain ⟨r, also, same⟩ := c.sprite_of_occupant here
  rw [found] at also
  cases also
  rw [← target] at same
  exact shift_offset_ne s.tile h same.symm

/-! ### What the rounds leave -/

/-- Who is left in the end was the first for its target, and in no swap, before any mover was lost. -/
theorem eligible_of_steps (c : Consistent w) {m : Mover} (steps : m ∈ w.resolve.1) : w.Eligible m.id m.target := by
  have headed := (resolve_sublist w).subset steps
  have stands : m.stands w.occupancy w.headed := by
    rw [resolve_fst] at steps
    exact (List.mem_filter.mp ((Mover.settle_sublist_kept _ _).subset steps)).2
  obtain ⟨_, lowest, apart⟩ := (Mover.stands_iff (headed_ascending c) headed).mp stands
  refine ⟨(heads_iff c).mpr ⟨m, headed, rfl, rfl⟩, ?_, ?_⟩
  · intro other heads
    obtain ⟨n, also, rfl, same⟩ := (heads_iff c).mp heads
    exact lowest n also same
  · intro other home here own heads
    obtain ⟨n, also, rfl, back⟩ := (heads_iff c).mp heads
    have from_target := (c.occupied _ _).mp here
    rw [position_of_mover c (mem_headed.mp also).1] at from_target
    rw [position_of_mover c (mem_headed.mp headed).1] at own
    rw [← Option.some.inj own] at back
    exact apart n also (Option.some.inj from_target) back

theorem feasible_stepping (c : Consistent w) : w.Feasible w.stepping := by
  rintro _ ⟨m, steps, rfl⟩
  have eligible := eligible_of_steps c steps
  refine ⟨m.target, eligible, ?_⟩
  cases ahead : w.occupant m.target with
  | none => exact .inl rfl
  | some other =>
    refine .inr ⟨other, (resolve_stands_iff c steps).1 other ahead, ?_, rfl⟩
    rintro rfl
    exact occupant_target_ne c eligible.1 ahead

/-- As long as all members of a feasible set are among the movers, none of them is lost. -/
theorem stands_of_feasible (c : Consistent w) {M : Set SpriteId} (feasible : w.Feasible M) {l : List Mover}
    (part : l.Sublist w.headed) (all : ∀ m, m ∈ w.headed ∧ m.id ∈ M → m ∈ l) {m : Mover} (headed : m ∈ w.headed)
    (chosen : m.id ∈ M) : m.stands w.occupancy l := by
  obtain ⟨t, ⟨heads, lowest, apart⟩, ahead⟩ := feasible m.id chosen
  obtain rfl := target_of_heads c headed heads
  refine (Mover.stands_iff ((headed_ascending c).sublist part) (all m ⟨headed, chosen⟩)).mpr ⟨?_, ?_, ?_⟩
  · intro id here
    rcases ahead with free | ⟨other, also, _, held⟩
    · rw [World.occupant, here] at free
      cases free
    · rw [World.occupant, here] at held
      obtain rfl := Option.some.inj held
      obtain ⟨_, ⟨leaves, _⟩, _⟩ := feasible id also
      obtain ⟨n, next, rfl, _⟩ := (heads_iff c).mp leaves
      exact ⟨n, all n ⟨next, also⟩, rfl⟩
  · intro n inside same
    exact lowest n.id ((heads_iff c).mpr ⟨n, part.subset inside, rfl, same⟩)
  · intro n inside from_target back
    have member := part.subset inside
    have here := occupant_origin c (mem_headed.mp member).1
    rw [from_target] at here
    have home := position_of_mover c (mem_headed.mp headed).1
    exact apart n.id m.origin here home ((heads_iff c).mpr ⟨n, member, rfl, back⟩)

/-- The sprites that step are the greatest feasible set. -/
theorem isGreatest_stepping (c : Consistent w) : IsGreatest { M | w.Feasible M } w.stepping := by
  refine ⟨feasible_stepping c, ?_⟩
  intro M feasible id chosen
  obtain ⟨t, ⟨heads, _⟩, _⟩ := feasible id chosen
  obtain ⟨m, headed, rfl, _⟩ := (heads_iff c).mp heads
  refine ⟨m, ?_, rfl⟩
  rw [resolve_fst]
  refine Mover.mem_settle (S := fun m => m ∈ w.headed ∧ m.id ∈ M) ?_ ?_ m ⟨headed, chosen⟩
  · intro n inside
    exact inside.1
  · intro l part all n inside
    exact stands_of_feasible c feasible part all inside.1 inside.2

/-! ### What becomes of the sprites -/

theorem mem_mover_ids (c : Consistent w) {id : SpriteId} : id ∈ w.movers.map (·.id) ↔ (w.motion id).isSome := by
  constructor
  · intro member
    obtain ⟨m, inside, rfl⟩ := List.mem_map.mp member
    obtain ⟨s, h, found, moving, _⟩ := (mem_movers c).mp inside
    simp [motion, found, moving]
  · intro moves
    obtain ⟨h, motion⟩ := Option.isSome_iff_exists.mp moves
    obtain ⟨s, found, moving⟩ := Option.bind_eq_some_iff.mp motion
    have member : (⟨id, s.tile, s.tile.shift h.offset⟩ : Mover) ∈ w.movers :=
      (mem_movers c).mpr ⟨s, h, found, moving, rfl, rfl⟩
    exact List.mem_map.mpr ⟨_, member, rfl⟩

theorem mem_stepping {id : SpriteId} : id ∈ w.stepping ↔ id ∈ w.resolve.1.map (·.id) := List.mem_map.symm

/-- Exactly the movers that do not step are brought to rest. -/
theorem mem_resolve_snd (c : Consistent w) {id : SpriteId} :
    id ∈ w.resolve.2 ↔ (w.motion id).isSome ∧ id ∉ w.stepping := by
  have all := (resolve_perm w).mem_iff (a := id)
  rw [List.mem_append, mem_mover_ids c, ← mem_stepping] at all
  constructor
  · intro stopped
    refine ⟨all.mp (.inr stopped), ?_⟩
    intro steps
    obtain ⟨_, _, apart⟩ := List.nodup_append.mp (resolve_nodup c)
    exact apart id (mem_stepping.mp steps) id stopped rfl
  · rintro ⟨moves, stays⟩
    exact (all.mpr moves).resolve_left stays

theorem sprite?_commit_of_motion_none (c : Consistent w) {id : SpriteId} (rests : w.motion id = none) :
    (w.commit w.resolve.1 w.resolve.2).sprite? id = w.sprite? id := by
  have unmoved : id ∉ w.movers.map (·.id) := by
    rw [mem_mover_ids c, rests]
    exact Bool.false_ne_true
  refine sprite?_commit_other ?_ ?_
  · intro steps
    exact unmoved ((resolve_perm w).subset (List.mem_append_left _ steps))
  · intro stopped
    exact unmoved ((resolve_perm w).subset (List.mem_append_right _ stopped))

theorem steps_of_advance (c : Consistent w) {v : World} (advanced : w.advance = .ok v) : w.Steps v w.stepping := by
  obtain ⟨_, rfl⟩ := advance_eq_ok_iff.mp advanced
  have frame := commit_eq w w.resolve.1 w.resolve.2
  constructor
  case stepped =>
    rintro _ ⟨m, steps, rfl⟩
    obtain ⟨s, h, found, moving, _, target⟩ := (mem_movers c).mp (resolve_subset_movers w steps).1
    refine ⟨s, h, found, moving, (sprite?_commit_moved (resolve_nodup c) steps).trans ?_⟩
    rw [found, target]
    rfl
  case stopped =>
    intro id stays s h found moving
    have moves : (w.motion id).isSome := by simp [motion, found, moving]
    have stopped := (mem_resolve_snd c).mpr ⟨moves, stays⟩
    refine (sprite?_commit_rejected (resolve_nodup c) stopped).trans ?_
    rw [found]
    rfl
  case rested =>
    intro id s found resting
    have rests : w.motion id = none := by simp [motion, found, resting]
    exact (sprite?_commit_of_motion_none c rests).trans found
  case absent =>
    intro id gone
    have rests : w.motion id = none := by simp [motion, gone]
    exact (sprite?_commit_of_motion_none c rests).trans gone
  case rejected =>
    intro id
    exact mem_resolve_snd c
  case rejected_once => exact (List.nodup_append.mp (resolve_nodup c)).2.1
  all_goals rw [frame]

/-! ### Lines of sprites -/

theorem behind_ne (c : Consistent w) {id other : SpriteId} (behind : w.Behind id other) : other ≠ id := by
  rintro rfl
  obtain ⟨t, heads, here⟩ := behind
  exact occupant_target_ne c heads here

/-- Whoever is right before a member of a feasible set is a member too. -/
theorem Feasible.ahead (c : Consistent w) {M : Set SpriteId} (feasible : w.Feasible M) {id other : SpriteId}
    (chosen : id ∈ M) (behind : w.Behind id other) : other ∈ M := by
  obtain ⟨t, heads, here⟩ := behind
  obtain ⟨u, ⟨also, _⟩, ahead⟩ := feasible id chosen
  obtain ⟨m, headed, rfl, rfl⟩ := (heads_iff c).mp also
  rw [← target_of_heads c headed heads] at here
  rcases ahead with free | ⟨next, member, _, held⟩
  · rw [free] at here
    cases here
  · rw [held] at here
    rw [← Option.some.inj here]
    exact member

/-- The sprites whose whole line is eligible make up a feasible set. -/
theorem feasible_lines (c : Consistent w) :
    w.Feasible { id | ∀ other, Relation.ReflTransGen w.Behind id other → ∃ t, w.Eligible other t } := by
  intro id line
  obtain ⟨t, eligible⟩ := line id .refl
  refine ⟨t, eligible, ?_⟩
  cases ahead : w.occupant t with
  | none => exact .inl rfl
  | some other =>
    have behind : w.Behind id other := ⟨t, eligible.1, ahead⟩
    refine .inr ⟨other, ?_, behind_ne c behind, rfl⟩
    intro last further
    exact line last (.head behind further)

/-- A sprite is in the greatest feasible set exactly if it and all before it in its line, be it a train or a
    ring, are eligible. -/
theorem mem_greatest_iff (c : Consistent w) {M : Set SpriteId} (greatest : IsGreatest { M | w.Feasible M } M)
    (id : SpriteId) :
    id ∈ M ↔ ∀ other, Relation.ReflTransGen w.Behind id other → ∃ t, w.Eligible other t := by
  constructor
  · intro chosen other line
    have member : other ∈ M := by
      induction line with
      | refl => exact chosen
      | tail _ behind ih => exact greatest.1.ahead c ih behind
    obtain ⟨t, eligible, _⟩ := greatest.1 other member
    exact ⟨t, eligible⟩
  · intro line
    exact greatest.2 (feasible_lines c) line

/-- An advance moves the greatest feasible set of sprites one step and brings all other movers to rest. Trains
    and rings step as a whole, and all behind a sprite that does not step come to rest. -/
theorem advance_moves_greatest (reached : Reachable w) (room : w.tick + 1 < Word.full.size) :
    ∃ v M, w.advance = .ok v ∧ IsGreatest { M | w.Feasible M } M ∧ w.Steps v M ∧
      (∀ id, id ∈ M ↔ ∀ other, Relation.ReflTransGen w.Behind id other → ∃ t, w.Eligible other t) ∧
      (∀ id other, Relation.TransGen w.Behind id other → other ∉ M → id ∉ M) := by
  have c := reached.consistent
  have advanced := advance_eq_ok_iff.mpr ⟨room, rfl⟩
  have greatest := isGreatest_stepping c
  refine ⟨_, w.stepping, advanced, greatest, steps_of_advance c advanced, mem_greatest_iff c greatest, ?_⟩
  intro id other line blocked chosen
  have ahead : other ∈ w.stepping := by
    clear blocked
    induction line with
    | single behind => exact greatest.1.ahead c chosen behind
    | tail _ behind ih => exact greatest.1.ahead c ih behind
  exact blocked ahead

theorem train_moves : ∃ w v M, train = .ok w ∧ w.advance = .ok v ∧ IsGreatest { M | w.Feasible M } M ∧
    w.Steps v M ∧ v.occupant ⟨2, 0⟩ = some ⟨1⟩ := by
  have computed : ∃ w, train = .ok w ∧ w.tick + 1 < Word.full.size := ⟨_, rfl, by decide⟩
  obtain ⟨w, built, room⟩ := computed
  have last : ((train >>= advance).toOption.bind fun v => v.occupant ⟨2, 0⟩) = some ⟨1⟩ := by decide +kernel
  obtain ⟨v, M, advanced, greatest, steps, _⟩ := advance_moves_greatest (reachable_of_train built) room
  rw [built, ok_bind, advanced] at last
  exact ⟨w, v, M, built, advanced, greatest, steps, last⟩

end World
end Playfield
