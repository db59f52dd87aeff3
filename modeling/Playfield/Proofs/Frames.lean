import Playfield.Proofs.Reachability

/-!
# What calls leave alone

No call changes the size of a board or the kinds that are suspended, and of the kinds that are to be suspended it changes no
more than what is asked for. A sprite keeps its kind for as long as it is there, and its id is given to no other one.
-/
namespace Playfield.World

/-! ### The frame -/

/-- The size of a board, and the kinds that are suspended or are going to be. -/
def frame (w : World) : (Nat × Nat) × List Nat × List Nat := (w.size, w.blocked, w.pendingBlocks)

/-- What a call does if it asks for a suspension. -/
def noted (w : World) : Call SpriteId → World
  | .block kind => w.block kind
  | _ => w

variable {w v : World}

theorem frame_spawn {t : Tile} {kind : Nat} {motion : Option Heading} {answer : Option SpriteId}
    (spawned : w.spawn t kind motion = .ok (answer, v)) : v.frame = w.frame := by
  rw [spawn] at spawned
  split at spawned
  · obtain ⟨next, _, done⟩ := bind_eq_ok.mp spawned
    cases pure_eq_ok.mp done
    rfl
  · cases pure_eq_ok.mp spawned
    rfl

theorem frame_event {what : GameEvent} (changed : w.event what = .ok v) : v.frame = w.frame := by
  cases what with
  | win | lose =>
    cases pure_eq_ok.mp changed
    rfl
  | score | nextLevel =>
    obtain ⟨count, _, done⟩ := bind_eq_ok.mp changed
    cases pure_eq_ok.mp done
    rfl

/-- A portal changes no more than the sprites, the occupancy and the draws. -/
theorem portalBy_eq (chooser : Random.Chooser Tile) (w : World) (id : SpriteId) (background : Nat) :
    ∃ sprites occupancy draws, w.portalBy chooser id background =
      { w with sprites := sprites, occupancy := occupancy, draws := draws } := by
  rw [portalBy]
  split
  · exact ⟨_, _, _, rfl⟩
  · dsimp only
    split
    · exact ⟨_, _, _, rfl⟩
    · rw [relocate]
      split <;> exact ⟨_, _, _, rfl⟩

/-- A call changes the frame only by what it asks to suspend. -/
theorem frame_of_call {chooser : Random.Chooser Tile} {c : Call SpriteId} {answer : Bool}
    (called : (engineBy chooser).call c w = .ok (answer, v)) : v.frame = (w.noted c).frame := by
  cases c with
  | create t kind motion =>
    obtain ⟨⟨id, after⟩, spawned, done⟩ := bind_eq_ok.mp called
    cases pure_eq_ok.mp done
    exact frame_spawn spawned
  | move id heading | reverse id heading | stop id | block kind =>
    cases called
    rfl
  | destroy id =>
    cases called
    show (w.destroy id).frame = w.frame
    rw [destroy]
    split <;> rfl
  | paint t background =>
    cases called
    show (w.setBackground t background).2.frame = w.frame
    rw [setBackground]
    split
    · split <;> rfl
    · rfl
  | portal id background =>
    cases called
    show (w.portalBy chooser id background).frame = w.frame
    obtain ⟨_, _, _, same⟩ := portalBy_eq chooser w id background
    rw [same]
    rfl
  | event what =>
    obtain ⟨after, changed, done⟩ := bind_eq_ok.mp called
    cases pure_eq_ok.mp done
    exact frame_event changed

theorem size_noted (w : World) (c : Call SpriteId) : (w.noted c).size = w.size := by
  cases c with
  | block kind =>
    rw [noted, block]
    split <;> rfl
  | _ => rfl

theorem blocked_noted (w : World) (c : Call SpriteId) : (w.noted c).blocked = w.blocked := by
  cases c with
  | block kind =>
    rw [noted, block]
    split <;> rfl
  | _ => rfl

theorem mem_pendingBlocks_noted (w : World) (c : Call SpriteId) (kind : Nat) :
    kind ∈ (w.noted c).pendingBlocks ↔ kind ∈ w.pendingBlocks ∨ c = .block kind := by
  cases c with
  | block other =>
    rw [noted, block, Call.block.injEq]
    split
    · rename_i there
      have member : other ∈ w.pendingBlocks := by simpa using there
      constructor
      · exact .inl
      · rintro (asked | rfl)
        · exact asked
        · exact member
    · simp [eq_comm]
  | _ => simp [noted]

/-- No call and no tick changes the size of a board. -/
theorem keeps_size (chooser : Random.Chooser Tile) (size : Nat × Nat) :
    (engineBy chooser).Keeps fun w => w.size = size where
  call {c w answer v} same called := by
    have kept : v.size = (w.noted c).size := congrArg Prod.fst (frame_of_call called)
    rw [kept, size_noted, same]
  advance {w v} same advanced := by
    obtain ⟨_, rfl⟩ := advance_eq_ok_iff.mp advanced
    refine Eq.trans ?_ same
    show (w.commit w.resolve.1 w.resolve.2).size = w.size
    rw [commit_eq]
    rfl

/-- Of the kinds that are to be suspended, calls add those that they ask for. Those that are suspended stay the same. -/
theorem blocks_of_callAll {chooser : Random.Chooser Tile} {calls : List (Call SpriteId)}
    (called : (engineBy chooser).callAll calls w = .ok v) : v.blocked = w.blocked ∧
      ∀ kind, kind ∈ v.pendingBlocks ↔ kind ∈ w.pendingBlocks ∨ .block kind ∈ calls := by
  induction calls generalizing w with
  | nil =>
    cases pure_eq_ok.mp called
    simp
  | cons c rest ih =>
    obtain ⟨answer, u, first, later⟩ := Engine.callAll_cons_eq_ok.mp called
    obtain ⟨_, suspended, pending⟩ := by simpa [frame] using frame_of_call first
    obtain ⟨blocked, added⟩ := ih later
    refine ⟨by rw [blocked, suspended, blocked_noted], fun kind => ?_⟩
    rw [added, pending, mem_pendingBlocks_noted, List.mem_cons, or_assoc, eq_comm (a := c)]

/-- The end of a tick suspends what was to be suspended, and nothing is left to be. -/
theorem blocks_of_advance (advanced : w.advance = .ok v) : v.blocked = w.pendingBlocks ∧ v.pendingBlocks = [] := by
  obtain ⟨_, rfl⟩ := advance_eq_ok_iff.mp advanced
  exact ⟨rfl, rfl⟩

/-! ### Sprites -/

/-- A world comes later than another: what was there before and still is has its kind, and no id of then is given
    again. -/
structure Follows (w v : World) : Prop where
  nextId : w.nextId ≤ v.nextId
  kept : ∀ id s, v.sprite? id = some s → id.raw < w.nextId → ∃ r, w.sprite? id = some r ∧ r.kind = s.kind

namespace Follows

variable {u : World}

theorem refl (w : World) : w.Follows w := ⟨Nat.le_refl _, fun _ s found _ => ⟨s, found, rfl⟩⟩

theorem trans (first : u.Follows w) (second : w.Follows v) : u.Follows v := by
  refine ⟨Nat.le_trans first.nextId second.nextId, ?_⟩
  intro id s found old
  obtain ⟨r, before, same⟩ := second.kept id s found (Nat.lt_of_lt_of_le old first.nextId)
  obtain ⟨q, earlier, also⟩ := first.kept id r before old
  exact ⟨q, earlier, also.trans same⟩

/-- Sprites may be moved, turned and taken away. -/
theorem of_sprites (nextId : v.nextId = w.nextId)
    (kept : ∀ id s, v.sprite? id = some s → ∃ r, w.sprite? id = some r ∧ r.kind = s.kind) : w.Follows v :=
  ⟨Nat.le_of_eq nextId.symm, fun id s found _ => kept id s found⟩

theorem of_same (nextId : v.nextId = w.nextId) (sprites : v.sprites = w.sprites) : w.Follows v := by
  refine of_sprites nextId fun id s found => ?_
  rw [sprite?, sprites] at found
  exact ⟨s, found, rfl⟩

theorem modifySprite (w : World) (id : SpriteId) {f : Sprite → Sprite} (kind : ∀ s, (f s).kind = s.kind) :
    w.Follows (w.modifySprite id f) := by
  refine of_sprites rfl fun other s found => ?_
  rw [sprite?_modifySprite] at found
  split at found
  · obtain ⟨r, before, rfl⟩ := Option.map_eq_some_iff.mp found
    exact ⟨r, before, (kind r).symm⟩
  · exact ⟨s, found, rfl⟩

theorem setMotion (w : World) (id : SpriteId) (motion : Option Heading) : w.Follows (w.setMotion id motion) :=
  modifySprite w id fun _ => rfl

theorem spawn {t : Tile} {kind : Nat} {motion : Option Heading} {answer : Option SpriteId}
    (spawned : w.spawn t kind motion = .ok (answer, v)) : w.Follows v := by
  rw [World.spawn] at spawned
  split at spawned
  · obtain ⟨next, room, done⟩ := bind_eq_ok.mp spawned
    obtain ⟨_, rfl⟩ := unsigned_eq_ok_iff.mp room
    cases pure_eq_ok.mp done
    refine ⟨Nat.le_succ _, ?_⟩
    intro id s found old
    refine ⟨s, ?_, rfl⟩
    rw [sprite?, IdMap.get?_insert, if_neg (Nat.ne_of_gt old)] at found
    exact found
  · cases pure_eq_ok.mp spawned
    exact refl _

theorem destroy (w : World) (id : SpriteId) : w.Follows (w.destroy id) := by
  rw [World.destroy]
  split
  · refine of_sprites rfl fun other s found => ?_
    rw [sprite?, IdMap.get?_erase] at found
    split at found
    · cases found
    · exact ⟨s, found, rfl⟩
  · exact refl _

theorem relocate (w : World) (id : SpriteId) (t : Tile) : w.Follows (w.relocate id t) := by
  rw [World.relocate]
  split
  · exact (modifySprite w id (f := fun s => { s with tile := t }) fun _ => rfl).trans (of_same rfl rfl)
  · exact refl _

theorem setBackground (w : World) (t : Tile) (kind : Nat) : w.Follows (w.setBackground t kind).2 := by
  rw [World.setBackground]
  split
  · split <;> exact of_same rfl rfl
  · exact refl _

theorem portalBy (chooser : Random.Chooser Tile) (w : World) (id : SpriteId) (background : Nat) :
    w.Follows (w.portalBy chooser id background) := by
  rw [World.portalBy]
  split
  · exact refl _
  · dsimp only
    split
    · exact of_same rfl rfl
    · refine ((of_same ?_ ?_).trans (relocate _ id _)).trans (setMotion _ id none) <;> rfl

theorem event {what : GameEvent} (changed : w.event what = .ok v) : w.Follows v := by
  cases what with
  | win | lose =>
    cases pure_eq_ok.mp changed
    exact of_same rfl rfl
  | score | nextLevel =>
    obtain ⟨count, _, done⟩ := bind_eq_ok.mp changed
    cases pure_eq_ok.mp done
    exact of_same rfl rfl

theorem call {chooser : Random.Chooser Tile} {c : Call SpriteId} {answer : Bool}
    (called : (engineBy chooser).call c w = .ok (answer, v)) : w.Follows v := by
  cases c with
  | create t kind motion =>
    obtain ⟨⟨id, after⟩, spawned, done⟩ := bind_eq_ok.mp called
    cases pure_eq_ok.mp done
    exact spawn spawned
  | move id heading | reverse id heading | stop id =>
    cases called
    exact setMotion w id _
  | destroy id =>
    cases called
    exact destroy w id
  | paint t background =>
    cases called
    exact setBackground w t background
  | portal id background =>
    cases called
    exact portalBy chooser w id background
  | block kind =>
    cases called
    show w.Follows (w.block kind)
    rw [World.block]
    split <;> exact of_same rfl rfl
  | event what =>
    obtain ⟨after, changed, done⟩ := bind_eq_ok.mp called
    cases pure_eq_ok.mp done
    exact event changed

theorem advance (c : Consistent w) (advanced : w.advance = .ok v) : w.Follows v := by
  obtain ⟨_, rfl⟩ := advance_eq_ok_iff.mp advanced
  have frame := commit_eq w w.resolve.1 w.resolve.2
  refine of_sprites (by rw [frame]) fun id s found => ?_
  obtain ⟨r, before, _, kind, _⟩ := sprite_before_commit c found
  exact ⟨r, before, kind.symm⟩

/-- A sprite that is in both worlds has the same kind in both. -/
theorem kind_eq (follows : w.Follows v) (c : Consistent w) {id : SpriteId} {r s : Sprite} (before : w.sprite? id = some r)
    (after : v.sprite? id = some s) : r.kind = s.kind := by
  obtain ⟨q, found, same⟩ := follows.kept id s after (c.id_lt id r before)
  rw [before] at found
  cases found
  exact same

end Follows

/-- Whatever is done, what is left of the sprites keeps its kinds. -/
theorem keeps_follows (chooser : Random.Chooser Tile) (w : World) :
    (engineBy chooser).Keeps fun v => Consistent v ∧ w.Follows v where
  call before called := ⟨(keeps_consistent chooser).call before.1 called, before.2.trans (.call called)⟩
  advance before advanced := ⟨before.1.advance advanced, before.2.trans (.advance before.1 advanced)⟩

end Playfield.World
