import Mathlib.Data.List.Nodup
import Playfield.Proofs.Board

/-!
# Settling movers

Round by round, movers that cannot step are lost. What is left stands: none of it is in the way of
the rest. A set of movers that stands in every round is never touched. Taking the steps of movers
that stand keeps a world consistent.
-/
namespace Playfield

namespace Mover

variable {o : Occupancy} {movers : List Mover} {m : Mover}

/-! ### What stops a mover -/

theorem blocked_eq_false_iff :
    m.blocked o movers = false ↔ ∀ id, o.at? m.target = some id → ∃ n ∈ movers, n.id = id := by
  rw [blocked]
  cases o.at? m.target with
  | none => simp
  | some id => simp

theorem swaps_eq_false_iff :
    m.swaps movers = false ↔ ∀ n ∈ movers, n.origin = m.target → n.target ≠ m.origin := by
  simp [swaps]

/-- The movers are listed by ascending id. -/
def Ascending (movers : List Mover) : Prop := movers.Pairwise fun a b => a.id.raw < b.id.raw

theorem Ascending.nodup_ids (sorted : Ascending movers) : (movers.map (·.id)).Nodup := by
  refine List.pairwise_map.mpr (sorted.imp ?_)
  intro a b less same
  rw [same] at less
  exact Nat.lt_irrefl _ less

theorem first_iff (sorted : Ascending movers) (member : m ∈ movers) :
    m.first movers ↔ ∀ n ∈ movers, n.target = m.target → m.id.raw ≤ n.id.raw := by
  have least (a : Mover) := find?_eq_some_iff_least (fun n : Mover => n.id.raw) sorted
    (p := fun n => n.target == m.target) (a := a)
  constructor
  · intro first n inside same
    obtain ⟨a, found, is_m⟩ := (Option.any_eq_true _ _).mp first
    have lowest := ((least a).mp found).2 n inside (beq_iff_eq.mpr same)
    rw [beq_iff_eq.mp is_m] at lowest
    exact lowest
  · intro lowest
    have found : (movers.find? fun n => n.target == m.target) = some m := by
      refine (least m).mpr ⟨⟨member, beq_self_eq_true _⟩, ?_⟩
      intro n inside same
      exact lowest n inside (beq_iff_eq.mp same)
    simp [first, found]

theorem stands_iff (sorted : Ascending movers) (member : m ∈ movers) :
    m.stands o movers ↔ (∀ id, o.at? m.target = some id → ∃ n ∈ movers, n.id = id) ∧
      (∀ n ∈ movers, n.target = m.target → m.id.raw ≤ n.id.raw) ∧
      ∀ n ∈ movers, n.origin = m.target → n.target ≠ m.origin := by
  rw [stands, Bool.and_eq_true, Bool.and_eq_true, Bool.not_eq_true', Bool.not_eq_true', blocked_eq_false_iff,
    first_iff sorted member, swaps_eq_false_iff, and_assoc]

/-! ### Rounds -/

theorem settle_of_lost_nil (stable : lost o movers = []) : settle o movers = (movers, []) := by
  rw [settle, if_pos stable]

theorem settle_of_lost_ne_nil (some_lost : lost o movers ≠ []) :
    settle o movers =
      ((settle o (kept o movers)).1, lost o movers ++ (settle o (kept o movers)).2) := by
  rw [settle, if_neg some_lost]

theorem kept_of_lost_nil (stable : lost o movers = []) : kept o movers = movers := by
  apply List.filter_eq_self.mpr
  intro m member
  by_contra stopped
  have gone : m ∈ lost o movers := List.mem_filter.mpr ⟨member, by simpa using stopped⟩
  rw [stable] at gone
  cases gone

theorem settle_perm (o : Occupancy) (movers : List Mover) :
    ((settle o movers).1 ++ (settle o movers).2).Perm movers := by
  induction movers using settle.induct (o := o) with
  | case1 movers stable => simp [settle_of_lost_nil stable]
  | case2 movers some_lost ih =>
    rw [settle_of_lost_ne_nil some_lost]
    have swapped := List.perm_append_comm_assoc (settle o (kept o movers)).1 (lost o movers)
      (settle o (kept o movers)).2
    refine swapped.trans ((ih.append_left _).trans ?_)
    exact List.perm_append_comm.trans (List.filter_append_perm _ movers)

/-- Who is left at the end was left after the first round. -/
theorem settle_sublist_kept (o : Occupancy) (movers : List Mover) :
    (settle o movers).1.Sublist (kept o movers) := by
  induction movers using settle.induct (o := o) with
  | case1 movers stable =>
    rw [settle_of_lost_nil stable, kept_of_lost_nil stable]
  | case2 movers some_lost ih =>
    rw [settle_of_lost_ne_nil some_lost]
    exact ih.trans List.filter_sublist

theorem settle_sublist (o : Occupancy) (movers : List Mover) : (settle o movers).1.Sublist movers :=
  (settle_sublist_kept o movers).trans List.filter_sublist

/-- Nothing stops those who are left at the end. -/
theorem settle_stands (o : Occupancy) (movers : List Mover) :
    ∀ m ∈ (settle o movers).1, m.stands o (settle o movers).1 := by
  induction movers using settle.induct (o := o) with
  | case1 movers stable =>
    rw [settle_of_lost_nil stable]
    intro m member
    rw [← kept_of_lost_nil stable] at member
    exact (List.mem_filter.mp member).2
  | case2 movers some_lost ih =>
    rw [settle_of_lost_ne_nil some_lost]
    exact ih

/-- A set of movers that nothing stops, as long as all of them are there, is left at the end. -/
theorem mem_settle {S : Mover → Prop} (inside : ∀ m, S m → m ∈ movers)
    (stays : ∀ l : List Mover, l.Sublist movers → (∀ m, S m → m ∈ l) → ∀ m, S m → m.stands o l) :
    ∀ m, S m → m ∈ (settle o movers).1 := by
  induction movers using settle.induct (o := o) with
  | case1 movers stable =>
    rw [settle_of_lost_nil stable]
    exact inside
  | case2 movers some_lost ih =>
    rw [settle_of_lost_ne_nil some_lost]
    refine ih ?_ ?_
    · intro m chosen
      exact List.mem_filter.mpr ⟨inside m chosen, stays movers (List.Sublist.refl _) inside m chosen⟩
    · intro l part
      exact stays l (part.trans List.filter_sublist)

end Mover

namespace World

variable {w : World}

/-! ### The movers of a world -/

theorem mem_movers (c : Consistent w) {m : Mover} :
    m ∈ w.movers ↔ ∃ s h, w.sprite? m.id = some s ∧ s.motion = some h ∧ m.origin = s.tile ∧
      m.target = s.tile.shift h.offset := by
  constructor
  · intro member
    obtain ⟨s, listed, moves⟩ := List.mem_filterMap.mp member
    obtain ⟨id, found⟩ := mem_spriteList.mp listed
    obtain ⟨h, motion, rfl⟩ := Option.map_eq_some_iff.mp moves
    have own := c.own_id id s found
    exact ⟨s, h, own.symm ▸ found, motion, rfl, rfl⟩
  · rintro ⟨s, h, found, motion, origin, target⟩
    refine List.mem_filterMap.mpr ⟨s, mem_spriteList.mpr ⟨m.id, found⟩, ?_⟩
    rw [Sprite.mover?, motion, c.own_id m.id s found, ← origin, Option.map_some, origin, ← target, ← origin]

theorem movers_ascending (c : Consistent w) : Mover.Ascending w.movers := by
  refine c.sprites_ascending.filterMap Sprite.mover? ?_
  intro s r less m first n second
  obtain ⟨h, _, rfl⟩ := Option.map_eq_some_iff.mp first
  obtain ⟨h', _, rfl⟩ := Option.map_eq_some_iff.mp second
  exact less

/-- Movers are told apart by their ids. -/
theorem eq_of_mover_id (c : Consistent w) {m n : Mover} (member : m ∈ w.movers) (also : n ∈ w.movers)
    (same : m.id = n.id) : m = n :=
  List.inj_on_of_nodup_map (movers_ascending c).nodup_ids member also same

theorem position_of_mover (c : Consistent w) {m : Mover} (member : m ∈ w.movers) :
    w.position m.id = some m.origin := by
  obtain ⟨s, _, found, _, origin, _⟩ := (mem_movers c).mp member
  exact position_eq_some.mpr ⟨s, found, origin.symm⟩

theorem occupant_origin (c : Consistent w) {m : Mover} (member : m ∈ w.movers) :
    w.occupant m.origin = some m.id := (c.occupied _ _).mpr (position_of_mover c member)

/-- The movers whose step stays on the board, by ascending id. -/
def headed (w : World) : List Mover := w.movers.filter fun m => w.inBounds m.target

theorem mem_headed {m : Mover} : m ∈ w.headed ↔ m ∈ w.movers ∧ w.inBounds m.target := List.mem_filter

theorem headed_ascending (c : Consistent w) : Mover.Ascending w.headed := (movers_ascending c).filter _

theorem resolve_fst (w : World) : w.resolve.1 = (Mover.settle w.occupancy w.headed).1 := by
  rw [resolve, List.partition_eq_filter_filter]
  rfl

theorem resolve_snd (w : World) :
    w.resolve.2 = ((w.movers.filter fun m => !w.inBounds m.target) ++
      (Mover.settle w.occupancy w.headed).2).map (·.id) := by
  rw [resolve, List.partition_eq_filter_filter]
  rfl

theorem resolve_sublist (w : World) : w.resolve.1.Sublist w.headed := by
  rw [resolve_fst]
  exact Mover.settle_sublist _ _

theorem resolve_stands (w : World) : ∀ m ∈ w.resolve.1, m.stands w.occupancy w.resolve.1 := by
  rw [resolve_fst]
  exact Mover.settle_stands _ _

/-- Every mover either takes its step or is brought to rest. -/
theorem resolve_perm (w : World) : (w.resolve.1.map (·.id) ++ w.resolve.2).Perm (w.movers.map (·.id)) := by
  rw [resolve_fst, resolve_snd, ← List.map_append]
  refine List.Perm.map _ ?_
  have settled := Mover.settle_perm w.occupancy w.headed
  refine (List.perm_append_comm_assoc _ _ _).trans ((settled.append_left _).trans ?_)
  exact List.perm_append_comm.trans (List.filter_append_perm _ _)

theorem resolve_nodup (c : Consistent w) : (w.resolve.1.map (·.id) ++ w.resolve.2).Nodup :=
  (resolve_perm w).nodup_iff.mpr (movers_ascending c).nodup_ids

/-! ### Taking the steps -/

theorem foldl_setMotion (ids : List SpriteId) (w : World) :
    ids.foldl (fun w id => w.setMotion id none) w = { w with
      sprites := ids.foldl (fun m id => m.modify id.raw fun s => { s with motion := none }) w.sprites } := by
  induction ids generalizing w with
  | nil => rfl
  | cons id rest ih => exact ih (w.setMotion id none)

theorem foldl_vacate (moved : List Mover) (w : World) :
    moved.foldl (fun w m => { w with occupancy := w.occupancy.vacate m.origin }) w =
      { w with occupancy := moved.foldl (fun o m => o.vacate m.origin) w.occupancy } := by
  induction moved generalizing w with
  | nil => rfl
  | cons m rest ih => exact ih { w with occupancy := w.occupancy.vacate m.origin }

theorem foldl_enter (moved : List Mover) (w : World) :
    moved.foldl (fun w m =>
      { w.modifySprite m.id (fun s => { s with tile := m.target }) with
        occupancy := w.occupancy.occupy m.target m.id }) w = { w with
      sprites := moved.foldl (fun t m => t.modify m.id.raw fun s => { s with tile := m.target }) w.sprites
      occupancy := moved.foldl (fun o m => o.occupy m.target m.id) w.occupancy } := by
  induction moved generalizing w with
  | nil => rfl
  | cons m rest ih =>
    exact ih { w.modifySprite m.id (fun s => { s with tile := m.target }) with
      occupancy := w.occupancy.occupy m.target m.id }

/-- A commit changes nothing but sprites and occupancy. -/
theorem commit_eq (w : World) (moved : List Mover) (rejected : List SpriteId) :
    w.commit moved rejected = { w with
      sprites := moved.foldl (fun t m => t.modify m.id.raw fun s => { s with tile := m.target })
        (rejected.foldl (fun t id => t.modify id.raw fun s => { s with motion := none }) w.sprites)
      occupancy := moved.foldl (fun o m => o.occupy m.target m.id)
        (moved.foldl (fun o m => o.vacate m.origin) w.occupancy) } := by
  rw [commit, foldl_setMotion, foldl_vacate, foldl_enter]

theorem raw_injective : Function.Injective SpriteId.raw := by
  rintro ⟨k⟩ ⟨j⟩ same
  exact congrArg SpriteId.mk same

section Commit

variable {moved : List Mover} {rejected : List SpriteId}

theorem sprite?_commit_moved (distinct : (moved.map (·.id) ++ rejected).Nodup) {m : Mover} (steps : m ∈ moved) :
    (w.commit moved rejected).sprite? m.id = (w.sprite? m.id).map fun s => { s with tile := m.target } := by
  obtain ⟨ids, _, apart⟩ := List.nodup_append.mp distinct
  have raws := ids.map raw_injective
  have unstopped : m.id.raw ∉ rejected.map SpriteId.raw := by
    intro stopped
    obtain ⟨id, inside, same⟩ := List.mem_map.mp stopped
    exact apart m.id (List.mem_map_of_mem steps) id inside (raw_injective same).symm
  rw [List.map_map] at raws
  have before := IdMap.get?_foldl_modify_of_not_mem (f := fun _ (s : Sprite) => { s with motion := none }) unstopped
    w.sprites
  have entered := IdMap.get?_foldl_modify_of_mem (f := fun m (s : Sprite) => { s with tile := m.target }) raws steps
  rw [commit_eq]
  exact (entered _).trans (congrArg _ before)

theorem sprite?_commit_rejected (distinct : (moved.map (·.id) ++ rejected).Nodup) {id : SpriteId}
    (stopped : id ∈ rejected) :
    (w.commit moved rejected).sprite? id = (w.sprite? id).map fun s => { s with motion := none } := by
  obtain ⟨_, ids, apart⟩ := List.nodup_append.mp distinct
  have stays : id.raw ∉ moved.map fun m => m.id.raw := by
    intro steps
    obtain ⟨m, inside, same⟩ := List.mem_map.mp steps
    exact apart m.id (List.mem_map_of_mem inside) id stopped (raw_injective same)
  have halted := IdMap.get?_foldl_modify_of_mem (f := fun _ (s : Sprite) => { s with motion := none })
    (ids.map raw_injective) stopped w.sprites
  rw [commit_eq]
  exact (IdMap.get?_foldl_modify_of_not_mem stays _).trans halted

theorem sprite?_commit_other {id : SpriteId} (stays : id ∉ moved.map (·.id)) (unstopped : id ∉ rejected) :
    (w.commit moved rejected).sprite? id = w.sprite? id := by
  have stays' : id.raw ∉ moved.map fun m => m.id.raw := by
    intro steps
    obtain ⟨m, inside, same⟩ := List.mem_map.mp steps
    exact stays (List.mem_map.mpr ⟨m, inside, raw_injective same⟩)
  have unstopped' : id.raw ∉ rejected.map SpriteId.raw := by
    intro stopped
    obtain ⟨other, inside, same⟩ := List.mem_map.mp stopped
    exact unstopped (raw_injective same ▸ inside)
  rw [commit_eq, sprite?, sprite?, IdMap.get?_foldl_modify_of_not_mem stays',
    IdMap.get?_foldl_modify_of_not_mem unstopped']

theorem occupant_commit_target (distinct : (moved.map (·.target)).Nodup) {m : Mover} (steps : m ∈ moved) :
    (w.commit moved rejected).occupant m.target = some m.id := by
  rw [commit_eq, occupant]
  exact Occupancy.at?_foldl_occupy_of_mem distinct steps _

theorem occupant_commit_other {t : Tile} (away : t ∉ moved.map (·.target)) :
    (w.commit moved rejected).occupant t = if t ∈ moved.map (·.origin) then none else w.occupant t := by
  rw [commit_eq, occupant, occupant, ← Occupancy.at?_foldl_vacate]
  exact Occupancy.at?_foldl_occupy_of_not_mem away _

end Commit

/-! ### The end of a tick -/

theorem resolve_subset_movers (w : World) {m : Mover} (steps : m ∈ w.resolve.1) :
    m ∈ w.movers ∧ w.inBounds m.target := mem_headed.mp ((resolve_sublist w).subset steps)

theorem resolve_stands_iff (c : Consistent w) {m : Mover} (steps : m ∈ w.resolve.1) :
    (∀ id, w.occupant m.target = some id → ∃ n ∈ w.resolve.1, n.id = id) ∧
      (∀ n ∈ w.resolve.1, n.target = m.target → m.id.raw ≤ n.id.raw) ∧
      ∀ n ∈ w.resolve.1, n.origin = m.target → n.target ≠ m.origin :=
  (Mover.stands_iff ((headed_ascending c).sublist (resolve_sublist w)) steps).mp (resolve_stands w m steps)

theorem resolve_targets_nodup (c : Consistent w) : (w.resolve.1.map (·.target)).Nodup := by
  have sorted := (headed_ascending c).sublist (resolve_sublist w)
  refine List.pairwise_map.mpr (sorted.imp_of_mem ?_)
  intro m n steps also less same
  exact absurd ((resolve_stands_iff c also).2.1 m steps same) (Nat.not_le.mpr less)

theorem position_committed_moved (c : Consistent w) {m : Mover} (steps : m ∈ w.resolve.1) :
    (w.commit w.resolve.1 w.resolve.2).position m.id = some m.target := by
  obtain ⟨s, _, found, _⟩ := (mem_movers c).mp (resolve_subset_movers w steps).1
  rw [position, sprite?_commit_moved (resolve_nodup c) steps, found]
  rfl

theorem position_committed_other (c : Consistent w) {id : SpriteId} (stays : id ∉ w.resolve.1.map (·.id)) :
    (w.commit w.resolve.1 w.resolve.2).position id = w.position id := by
  by_cases stopped : id ∈ w.resolve.2
  · rw [position, sprite?_commit_rejected (resolve_nodup c) stopped, Option.map_map]
    rfl
  · rw [position, sprite?_commit_other stays stopped, position]

/-- Whatever a commit does to a sprite, it keeps its id and kind, and its tile unless it took its step. -/
theorem sprite_before_commit (c : Consistent w) {id : SpriteId} {r : Sprite}
    (found : (w.commit w.resolve.1 w.resolve.2).sprite? id = some r) :
    ∃ s, w.sprite? id = some s ∧ r.id = s.id ∧ r.kind = s.kind ∧ (r.tile = s.tile ∨ w.inBounds r.tile) := by
  by_cases steps : id ∈ w.resolve.1.map (·.id)
  · obtain ⟨m, member, rfl⟩ := List.mem_map.mp steps
    rw [sprite?_commit_moved (resolve_nodup c) member] at found
    obtain ⟨s, before, rfl⟩ := Option.map_eq_some_iff.mp found
    exact ⟨s, before, rfl, rfl, .inr (resolve_subset_movers w member).2⟩
  · by_cases stopped : id ∈ w.resolve.2
    · rw [sprite?_commit_rejected (resolve_nodup c) stopped] at found
      obtain ⟨s, before, rfl⟩ := Option.map_eq_some_iff.mp found
      exact ⟨s, before, rfl, rfl, .inl rfl⟩
    · rw [sprite?_commit_other steps stopped] at found
      exact ⟨r, found, rfl, rfl, .inl rfl⟩

theorem commit_occupied (c : Consistent w) (t : Tile) (id : SpriteId) :
    (w.commit w.resolve.1 w.resolve.2).occupant t = some id ↔
      (w.commit w.resolve.1 w.resolve.2).position id = some t := by
  by_cases entered : t ∈ w.resolve.1.map (·.target)
  · obtain ⟨m, steps, rfl⟩ := List.mem_map.mp entered
    rw [occupant_commit_target (resolve_targets_nodup c) steps]
    constructor
    · intro same
      rw [← Option.some.inj same]
      exact position_committed_moved c steps
    · intro here
      by_cases moved : id ∈ w.resolve.1.map (·.id)
      · obtain ⟨n, also, rfl⟩ := List.mem_map.mp moved
        rw [position_committed_moved c also] at here
        have same := List.inj_on_of_nodup_map (resolve_targets_nodup c) also steps (Option.some.inj here)
        rw [same]
      · -- A sprite that stays on the target would have blocked the mover.
        rw [position_committed_other c moved] at here
        obtain ⟨n, also, same⟩ := (resolve_stands_iff c steps).1 id ((c.occupied _ _).mpr here)
        exact absurd (List.mem_map.mpr ⟨n, also, same⟩) moved
  · rw [occupant_commit_other entered]
    by_cases moved : id ∈ w.resolve.1.map (·.id)
    · obtain ⟨m, steps, rfl⟩ := List.mem_map.mp moved
      have elsewhere : m.target ≠ t := fun same => entered (List.mem_map.mpr ⟨m, steps, same⟩)
      rw [position_committed_moved c steps]
      constructor
      · split
        · simp
        · rename_i kept
          intro here
          have origin := (c.occupied t m.id).mp here
          rw [position_of_mover c (resolve_subset_movers w steps).1] at origin
          exact absurd (List.mem_map.mpr ⟨m, steps, Option.some.inj origin⟩) kept
      · intro here
        exact absurd (Option.some.inj here) elsewhere
    · rw [position_committed_other c moved, ← c.occupied]
      split
      · rename_i left
        obtain ⟨m, steps, rfl⟩ := List.mem_map.mp left
        rw [occupant_origin c (resolve_subset_movers w steps).1]
        simp only [reduceCtorEq, Option.some.injEq, false_iff]
        intro same
        exact moved (List.mem_map.mpr ⟨m, steps, same⟩)
      · rfl

theorem Consistent.commit (c : Consistent w) : Consistent (w.commit w.resolve.1 w.resolve.2) := by
  have frame := commit_eq w w.resolve.1 w.resolve.2
  refine ⟨commit_occupied c, ?_, ?_, ?_, ?_, ?_, ?_, ?_⟩
  · intro id r found
    obtain ⟨s, before, same, _, _⟩ := sprite_before_commit c found
    rw [same, c.own_id id s before]
  · intro id r found
    obtain ⟨s, before, _, _, tile⟩ := sprite_before_commit c found
    have bounds : (w.commit w.resolve.1 w.resolve.2).inBounds r.tile = w.inBounds r.tile := by rw [frame]; rfl
    rw [bounds]
    rcases tile with same | inside
    · rw [same]
      exact c.inside id s before
    · exact inside
  · intro id r found
    obtain ⟨s, before, _, same, _⟩ := sprite_before_commit c found
    have kinds : (w.commit w.resolve.1 w.resolve.2).kinds = w.kinds := by rw [frame]
    rw [kinds, same]
    exact c.kind_lt id s before
  · intro id r found
    obtain ⟨s, before, _⟩ := sprite_before_commit c found
    have nextId : (w.commit w.resolve.1 w.resolve.2).nextId = w.nextId := by rw [frame]
    rw [nextId]
    exact c.id_lt id s before
  · rw [frame]
    exact c.area_lt
  · rw [frame]
    exact c.filled
  · rw [frame]
    exact c.background_lt

theorem advance_eq_ok_iff {v : World} : w.advance = .ok v ↔ w.tick + 1 < Word.full.size ∧
    v = { w.commit w.resolve.1 w.resolve.2 with
      blocked := w.pendingBlocks
      pendingBlocks := []
      tick := w.tick + 1
      rejected := w.resolve.2 } := by
  rw [advance, bind_eq_ok]
  constructor
  · rintro ⟨tick, room, done⟩
    obtain ⟨fits, rfl⟩ := unsigned_eq_ok_iff.mp room
    exact ⟨fits, (pure_eq_ok.mp done).symm⟩
  · rintro ⟨fits, rfl⟩
    exact ⟨w.tick + 1, unsigned_eq_ok fits, rfl⟩

theorem Consistent.advance (c : Consistent w) {v : World} (advanced : w.advance = .ok v) : Consistent v := by
  obtain ⟨_, rfl⟩ := advance_eq_ok_iff.mp advanced
  exact c.commit.of_board_eq rfl

end World
end Playfield
