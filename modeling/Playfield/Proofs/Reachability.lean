import Playfield.Proofs.Motion
import Playfield.Proofs.Runs

/-!
# Reachable worlds

A world is reached from a new one by any operations in any order, with any arguments, whatever
tiles are drawn for portals. Every world that is reached is consistent.
-/
namespace Playfield

/-- What can be done to a world from outside. -/
inductive Operation
  | setBackground (tile : Tile) (kind : Nat)
  | spawn (tile : Tile) (kind : Nat) (motion : Option Heading)
  /-- What a command can ask for: to create, move, turn, stop or destroy a sprite, to paint a tile, to send
      a sprite through a portal, to suspend rules or to change the game. -/
  | call (c : Call SpriteId)
  | advance
  /-- A tick of any project, under any settings. -/
  | step (session : Session) (button : Option Button)

namespace Operation

/-- The world after an operation, with portals that draw in a given way. -/
def run (chooser : Random.Chooser Tile) (w : World) : Operation → Checked World
  | setBackground t kind => return (w.setBackground t kind).2
  | spawn t kind motion => return (← w.spawn t kind motion).2
  | call c => return (← (World.engineBy chooser).call c w).2
  | advance => w.advance
  | step session button => return (← session.stepOn (World.engineBy chooser) w button).2

/-- The world after operations one after the other, with portals that draw from the stream. -/
def runAll (w : World) (ops : List Operation) : Checked World := ops.foldlM (run .stream) w

end Operation

namespace World

/-- The worlds that operations lead to. -/
inductive Reachable : World → Prop
  | new {width height : Int} {fill : Nat} {kinds : Kinds} {settings : Settings} {w : World} :
      World.new width height fill kinds settings = .ok w → Reachable w
  | next {w v : World} (chooser : Random.Chooser Tile) (op : Operation) :
      Reachable w → op.run chooser w = .ok v → Reachable v

theorem consistent_new {width height : Int} {fill : Nat} {kinds : Kinds} {settings : Settings} {w : World}
    (built : World.new width height fill kinds settings = .ok w) : Consistent w := by
  rw [World.new] at built
  split at built
  · cases built
  · split at built
    · cases built
    · rename_i sized known
      obtain ⟨area, counted, done⟩ := bind_eq_ok.mp built
      obtain ⟨⟨_, area_lt⟩, rfl⟩ := signed_eq_ok_iff.mp counted
      cases pure_eq_ok.mp done
      have tiles : ((width.toNat * height.toNat : Nat) : Int) = width * height := by
        rw [Int.natCast_mul, Int.toNat_of_nonneg (by omega), Int.toNat_of_nonneg (by omega)]
      refine ⟨?_, ?_, ?_, ?_, ?_, ?_, ?_, ?_⟩
      · intro t id
        simp [occupant, position, sprite?]
      · intro id s found
        cases found
      · intro id s found
        cases found
      · intro id s found
        cases found
      · intro id s found
        cases found
      · show width.toNat * height.toNat < Word.half.reach
        omega
      · show (width * height).toNat = width.toNat * height.toNat
        omega
      · intro i kind shown
        obtain ⟨_, same⟩ := Option.ite_none_right_eq_some.mp shown
        cases same
        exact Decidable.not_not.mp known

theorem Consistent.event {w v : World} (c : Consistent w) {what : GameEvent} (changed : w.event what = .ok v) :
    Consistent v := by
  cases what with
  | win =>
    cases pure_eq_ok.mp changed
    exact c.of_board_eq rfl
  | lose =>
    cases pure_eq_ok.mp changed
    exact c.of_board_eq rfl
  | score =>
    obtain ⟨score, _, done⟩ := bind_eq_ok.mp changed
    cases pure_eq_ok.mp done
    exact c.of_board_eq rfl
  | nextLevel =>
    obtain ⟨level, _, done⟩ := bind_eq_ok.mp changed
    cases pure_eq_ok.mp done
    exact c.of_board_eq rfl

theorem Consistent.block {w : World} (c : Consistent w) (kind : Nat) : Consistent (w.block kind) := by
  rw [World.block]
  split
  · exact c
  · exact c.of_board_eq rfl

theorem Consistent.call {w v : World} (c : Consistent w) {chooser : Random.Chooser Tile} {k : Call SpriteId}
    {answer : Bool} (called : (engineBy chooser).call k w = .ok (answer, v)) : Consistent v := by
  cases k with
  | create t kind motion =>
    obtain ⟨⟨id, after⟩, spawned, done⟩ := bind_eq_ok.mp called
    cases pure_eq_ok.mp done
    exact c.spawn spawned
  | move id heading =>
    cases called
    exact c.setMotion id (some heading)
  | reverse id heading =>
    cases called
    exact c.setMotion id (some heading)
  | stop id =>
    cases called
    exact c.setMotion id none
  | destroy id =>
    cases called
    exact c.destroy id
  | paint t background =>
    cases called
    exact c.setBackground t background
  | portal id background =>
    cases called
    exact c.portalBy chooser id background
  | block kind =>
    cases called
    exact c.block kind
  | event what =>
    obtain ⟨after, changed, done⟩ := bind_eq_ok.mp called
    cases pure_eq_ok.mp done
    exact c.event changed

theorem keeps_consistent (chooser : Random.Chooser Tile) : (engineBy chooser).Keeps Consistent where
  call c called := c.call called
  advance c advanced := c.advance advanced

/-- One operation keeps a world consistent. -/
theorem Consistent.run {w v : World} (c : Consistent w) {chooser : Random.Chooser Tile} {op : Operation}
    (ran : op.run chooser w = .ok v) : Consistent v := by
  cases op with
  | setBackground t kind =>
    cases ran
    exact c.setBackground t kind
  | spawn t kind motion =>
    obtain ⟨⟨id, after⟩, spawned, done⟩ := bind_eq_ok.mp ran
    cases pure_eq_ok.mp done
    exact c.spawn spawned
  | call k =>
    obtain ⟨⟨answer, after⟩, called, done⟩ := bind_eq_ok.mp ran
    cases pure_eq_ok.mp done
    exact c.call called
  | advance => exact c.advance ran
  | step session button =>
    obtain ⟨⟨report, after⟩, stepped, done⟩ := bind_eq_ok.mp ran
    cases pure_eq_ok.mp done
    exact (keeps_consistent chooser).stepOn c stepped

theorem Reachable.consistent {w : World} (reached : Reachable w) : Consistent w := by
  induction reached with
  | new built => exact consistent_new built
  | next chooser op _ ran before => exact before.run ran

theorem Reachable.runAll {ops : List Operation} {w v : World} (reached : Reachable w)
    (ran : Operation.runAll w ops = .ok v) : Reachable v := by
  induction ops generalizing w with
  | nil =>
    cases pure_eq_ok.mp ran
    exact reached
  | cons op rest ih =>
    rw [Operation.runAll, List.foldlM_cons] at ran
    obtain ⟨middle, first, later⟩ := bind_eq_ok.mp ran
    exact ih (.next .stream op reached first) later

/-- A new world to which something has been done is reached. -/
theorem Reachable.of_built {width height : Int} {fill : Nat} {kinds : Kinds} {settings : Settings} {ops : List Operation}
    {w : World} (built : (do
      let w ← World.new width height fill kinds settings
      Operation.runAll w ops) = .ok w) : Reachable w := by
  obtain ⟨empty, started, ran⟩ := bind_eq_ok.mp built
  exact (Reachable.new started).runAll ran

/-- Two sprites on a row of three tiles, one behind the other and both on their way to the right. -/
def train : Checked World := do
  let w ← new 3 1 0 ⟨1, 1⟩ .standard
  Operation.runAll w [.spawn ⟨0, 0⟩ 0 (some .right), .spawn ⟨1, 0⟩ 0 (some .right)]

theorem reachable_of_train {w : World} (built : train = .ok w) : Reachable w := .of_built built

/-- In a world that is reached, occupancy and sprites are inverse to each other, so that no two sprites
    share a tile; every sprite is on the board, of a known kind, kept under its own id and older than
    the next id; and the board has one background of a known kind for each tile. -/
theorem board_of_reachable {w : World} (reached : Reachable w) :
    (∀ t id, w.occupant t = some id ↔ ∃ s, w.sprite? id = some s ∧ s.tile = t) ∧
      (∀ id other s r, w.sprite? id = some s → w.sprite? other = some r → s.tile = r.tile → id = other) ∧
      (∀ id s, w.sprite? id = some s →
        w.inBounds s.tile ∧ s.kind < w.kinds.sprites ∧ s.id = id ∧ id.raw < w.nextId) ∧
      w.tiles.map w.backgroundAt = w.backgroundList.map some ∧
      w.backgroundList.length = w.width * w.height ∧ ∀ kind ∈ w.backgroundList, kind < w.kinds.backgrounds := by
  have c := reached.consistent
  refine ⟨?_, ?_, ?_, map_backgroundAt_tiles c.filled, ?_, ?_⟩
  · intro t id
    rw [c.occupied, position_eq_some]
  · intro id other s r found also same
    exact c.id_eq_of_tile_eq found also same
  · intro id s found
    exact ⟨c.inside id s found, c.kind_lt id s found, c.own_id id s found, c.id_lt id s found⟩
  · rw [backgroundList, Backdrop.length_toList, c.filled]
  · intro kind member
    obtain ⟨i, shown⟩ := List.mem_iff_getElem?.mp member
    rw [backgroundList, Backdrop.getElem?_toList] at shown
    exact c.background_lt i kind shown

theorem board_of_train : ∃ w, train = .ok w ∧ w.occupant ⟨1, 0⟩ = some ⟨1⟩ ∧
    ∃ s, w.sprite? ⟨1⟩ = some s ∧ s.tile = ⟨1, 0⟩ := by
  have computed : ∃ w, train = .ok w ∧ w.occupant ⟨1, 0⟩ = some ⟨1⟩ := ⟨_, rfl, rfl⟩
  obtain ⟨w, built, here⟩ := computed
  exact ⟨w, built, here, ((board_of_reachable (reachable_of_train built)).1 _ _).mp here⟩

end World
end Playfield
