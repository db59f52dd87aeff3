import Playfield.Proofs.Neighbours
import Playfield.Proofs.Portals
import Playfield.Proofs.Suspension

/-!
# The life of sprite ids

Ids are given out one after the other, and none is given out again. A sprite that is gone stays gone, and what is asked of it
later hits nobody. That holds also within a phase, the commands of which are all chosen before any of them runs: they are aimed
at sprites that were there then, so a sprite that is placed meanwhile is none of their targets, wherever it stands.
-/
namespace Playfield

variable {ι : Type}

/-! ### What commands are aimed at -/

/-- The sprite that a call is aimed at. -/
def Call.target? : Call ι → Option ι
  | move target _ | reverse target _ | stop target | destroy target | portal target _ => some target
  | create .. | paint .. | block _ | event _ => none

theorem Errand.target_of_call? {t : Errand ι} {c : Call ι} (asked : t.call? = some c) {id : ι}
    (aimed : c.target? = some id) : t.target = some id := by
  unfold Errand.call? at asked
  dsimp only at asked
  cases inst : t.command.inst with
  | paint | spawn | block =>
    simp only [inst, Option.some.injEq] at asked
    subst asked
    cases aimed
  | game =>
    simp only [inst] at asked
    obtain ⟨_, _, rfl⟩ := Option.map_eq_some_iff.mp asked
    cases aimed
  | portal =>
    simp only [inst] at asked
    obtain ⟨target, known, rfl⟩ := Option.map_eq_some_iff.mp asked
    exact known.trans aimed
  | sprite =>
    simp only [inst] at asked
    obtain ⟨target, known, asked⟩ := Option.bind_eq_some_iff.mp asked
    obtain ⟨op, _, rfl⟩ := Option.map_eq_some_iff.mp asked
    exact known.trans aimed
  | move =>
    simp only [inst] at asked
    obtain ⟨target, known, asked⟩ := Option.bind_eq_some_iff.mp asked
    obtain ⟨order, _, asked⟩ := Option.bind_eq_some_iff.mp asked
    refine known.trans ?_
    cases order with
    | go heading | stop =>
      cases asked
      exact aimed
    | uTurn =>
      obtain ⟨heading, _, rfl⟩ := Option.map_eq_some_iff.mp asked
      exact aimed

/-- A sprite can be seen on a grid: it has a tile, or some tile shows it. -/
def Grid.Shows (g : Grid ι) (id : ι) : Prop := (∃ t, g.position id = some t) ∨ ∃ t kind, g.spriteAt t kind = some id

namespace Matcher

variable {m : Matcher} {g : Grid ι} {v : View}

theorem shows_of_scan {home : Tile} {cells : List Cell} {around : List (Neighbour ι)}
    (scanned : m.scan g v home cells = .ok (some around)) {n : Neighbour ι} (member : n ∈ around) {id : ι}
    (witness : n.witness = some id) : g.Shows id := by
  induction cells generalizing around with
  | nil =>
    cases pure_eq_ok.mp scanned
    cases member
  | cons cell rest ih =>
    rw [scan] at scanned
    obtain ⟨place, _, scanned⟩ := bind_eq_ok.mp scanned
    cases place with
    | none => exact ih scanned member
    | some i =>
      obtain ⟨tile, _, scanned⟩ := bind_eq_ok.mp scanned
      cases passed : m.guardAt g v i tile with
      | fail =>
        rw [passed] at scanned
        cases pure_eq_ok.mp scanned
      | pass found =>
        rw [passed] at scanned
        obtain ⟨others, later, done⟩ := bind_eq_ok.mp scanned
        obtain ⟨others, rfl, rfl⟩ := Option.map_eq_some_iff.mp (pure_eq_ok.mp done)
        rcases List.mem_cons.mp member with rfl | member
        · cases witness
          exact .inr ⟨tile, guardAt_witness passed⟩
        · exact ih later member

/-- The commands of a firing are aimed at sprites that can be seen. -/
theorem shows_of_evaluate {sprite : ι} {f : Firing ι} (matched : m.evaluate g sprite v = .ok (some f)) {t : Errand ι}
    (member : t ∈ f.commands) {id : ι} (aimed : t.target = some id) : g.Shows id := by
  rw [evaluate] at matched
  split at matched
  · cases pure_eq_ok.mp matched
  · rename_i home placed
    obtain ⟨centre, _, matched⟩ := bind_eq_ok.mp matched
    obtain ⟨scanned, around, matched⟩ := bind_eq_ok.mp matched
    obtain ⟨neighbours, rfl, rfl⟩ := Option.map_eq_some_iff.mp (pure_eq_ok.mp matched)
    rcases List.mem_append.mp member with own | other
    · cases centre with
      | none => cases own
      | some i =>
        obtain ⟨_, _, rfl⟩ := List.mem_map.mp own
        cases aimed
        exact .inl ⟨home, placed⟩
    · obtain ⟨n, listed, other⟩ := List.mem_flatMap.mp other
      obtain ⟨_, _, rfl⟩ := List.mem_map.mp other
      exact shows_of_scan around listed aimed

end Matcher

theorem World.Consistent.sprite_of_shows {w : World} (c : w.Consistent) {id : SpriteId} (shown : w.grid.Shows id) :
    ∃ s, w.sprite? id = some s := by
  rcases shown with ⟨t, placed⟩ | ⟨t, kind, shown⟩
  · obtain ⟨s, found, _⟩ := World.position_eq_some.mp placed
    exact ⟨s, found⟩
  · obtain ⟨_, s, found, _⟩ := c.spriteAt_eq_some_iff.mp shown
    exact ⟨s, found⟩

/-- What a phase asks for is aimed at sprites of the board against which it is matched. -/
theorem Session.sprite_of_matchPhase {s : Session} {w : World} (c : w.Consistent) {phase : Phase}
    {sprites : List SpriteId} {button : Option Button} {fs : List (Firing SpriteId)}
    (matched : s.matchPhase w phase sprites button = .ok fs) {k : Call SpriteId} (member : k ∈ fs.flatMap Firing.calls)
    {id : SpriteId} (aimed : k.target? = some id) : ∃ r, w.sprite? id = some r := by
  obtain ⟨f, found, member⟩ := List.mem_flatMap.mp member
  rw [Firing.calls, if_pos (named_of_matchPhase matched f found)] at member
  obtain ⟨t, listed, asked⟩ := List.mem_filterMap.mp member
  obtain ⟨_, _, _, _, v, _, tried⟩ := tried_of_matchPhase matched found
  exact c.sprite_of_shows (Matcher.shows_of_evaluate (evaluate_of_tryView tried).2 listed (Errand.target_of_call? asked aimed))

namespace World

variable {w v : World} {id : SpriteId}

/-! ### Sprites that are gone -/

/-- Nothing that can be asked of a world answers with a sprite. -/
structure Gone (w : World) (id : SpriteId) : Prop where
  sprite? : w.sprite? id = none
  position : w.position id = none
  motion : w.motion id = none
  occupant : ∀ t, w.occupant t ≠ some id
  spriteAt : ∀ t kind, w.spriteAt t kind ≠ some id

theorem Consistent.gone (c : Consistent w) (absent : w.sprite? id = none) : w.Gone id := by
  have seen : ¬w.grid.Shows id := by
    intro shown
    obtain ⟨s, found⟩ := c.sprite_of_shows shown
    rw [absent] at found
    cases found
  refine ⟨absent, by rw [World.position, absent]; rfl, by rw [World.motion, absent]; rfl, fun t here => ?_, ?_⟩
  · exact seen (.inl ⟨t, (c.occupied t id).mp here⟩)
  · exact fun t kind shown => seen (.inr ⟨t, kind, shown⟩)

theorem sprite?_destroy (w : World) (id : SpriteId) : (w.destroy id).sprite? id = none := by
  rw [destroy]
  cases found : w.sprite? id with
  | none => exact found
  | some s => simp [World.sprite?]

/-- Who has been there once and is gone does not come back. -/
theorem Follows.absent (follows : w.Follows v) (old : id.raw < w.nextId) (absent : w.sprite? id = none) :
    v.sprite? id = none := by
  cases found : v.sprite? id with
  | none => rfl
  | some s =>
    obtain ⟨r, before, _⟩ := follows.kept id s found old
    rw [absent] at before
    cases before

/-- A call that is aimed at a sprite that is not there does nothing. -/
theorem call_of_absent (chooser : Random.Chooser Tile) (absent : w.sprite? id = none) {c : Call SpriteId}
    (aimed : c.target? = some id) : (engineBy chooser).call c w = .ok (true, w) := by
  have still (motion : Option Heading) : w.setMotion id motion = w := by
    rw [setMotion, modifySprite, IdMap.modify_of_absent absent]
  cases c with
  | move target heading | reverse target heading =>
    cases aimed
    show Except.ok (true, w.setMotion id (some heading)) = _
    rw [still]
  | stop target =>
    cases aimed
    show Except.ok (true, w.setMotion id none) = _
    rw [still]
  | destroy target =>
    cases aimed
    show Except.ok (true, w.destroy id) = _
    rw [destroy, absent]
  | portal target background =>
    cases aimed
    show Except.ok (true, w.portalBy chooser id background) = _
    rw [portalBy_of_absent absent]
  | create | paint | block | event => cases aimed

/-! ### Ids that are given out -/

/-- A world comes from another by the placing of sprites and by other things done to it, and the sprites that have been
    placed got these ids, the first one first. -/
inductive Issues (start : World) : List SpriteId → World → Prop
  | refl : Issues start [] start
  | setBackground {ids : List SpriteId} {w : World} (t : Tile) (kind : Nat) :
      Issues start ids w → Issues start ids (w.setBackground t kind).2
  | spawn {ids : List SpriteId} {w v : World} {t : Tile} {kind : Nat} {motion : Option Heading} {answer : Option SpriteId} :
      Issues start ids w → w.spawn t kind motion = .ok (answer, v) → Issues start (ids ++ answer.toList) v
  /-- A call that does not place a sprite. -/
  | call {ids : List SpriteId} {w v : World} {chooser : Random.Chooser Tile} {c : Call SpriteId} {answer : Bool} :
      Issues start ids w → (∀ t kind motion, c ≠ .create t kind motion) →
        (engineBy chooser).call c w = .ok (answer, v) → Issues start ids v
  | advance {ids : List SpriteId} {w v : World} : Issues start ids w → w.advance = .ok v → Issues start ids v

theorem spawn_answers {t : Tile} {kind : Nat} {motion : Option Heading} {answer : Option SpriteId}
    (spawned : w.spawn t kind motion = .ok (answer, v)) :
    (answer = none ∧ v = w) ∨ (answer = some ⟨w.nextId⟩ ∧ v.nextId = w.nextId + 1) := by
  rw [spawn] at spawned
  split at spawned
  · obtain ⟨next, room, done⟩ := bind_eq_ok.mp spawned
    obtain ⟨_, rfl⟩ := unsigned_eq_ok_iff.mp room
    cases pure_eq_ok.mp done
    exact .inr ⟨rfl, rfl⟩
  · cases pure_eq_ok.mp spawned
    exact .inl ⟨rfl, rfl⟩

/-- As long as there are ids left, an attempt to place a sprite comes to an answer. -/
theorem exists_spawn (room : w.nextId + 1 < Word.half.size) (t : Tile) (kind : Nat) (motion : Option Heading) :
    ∃ answer v, w.spawn t kind motion = .ok (answer, v) := by
  rw [spawn, unsigned_eq_ok room]
  split
  · exact ⟨_, _, rfl⟩
  · exact ⟨_, _, rfl⟩

theorem nextId_new {width height : Int} {fill : Nat} {kinds : Kinds} {settings : Settings}
    (built : World.new width height fill kinds settings = .ok w) : w.nextId = 0 := by
  rw [World.new] at built
  split at built
  · cases built
  · split at built
    · cases built
    · obtain ⟨area, _, done⟩ := bind_eq_ok.mp built
      cases pure_eq_ok.mp done
      rfl

theorem nextId_setBackground (w : World) (t : Tile) (kind : Nat) : (w.setBackground t kind).2.nextId = w.nextId := by
  rw [setBackground]
  split
  · split <;> rfl
  · rfl

theorem nextId_of_call {chooser : Random.Chooser Tile} {c : Call SpriteId} {answer : Bool}
    (other : ∀ t kind motion, c ≠ .create t kind motion) (called : (engineBy chooser).call c w = .ok (answer, v)) :
    v.nextId = w.nextId := by
  cases c with
  | create t kind motion => exact absurd rfl (other t kind motion)
  | move id heading | reverse id heading | stop id =>
    cases called
    rfl
  | destroy id =>
    cases called
    show (w.destroy id).nextId = w.nextId
    rw [destroy]
    split <;> rfl
  | paint t background =>
    cases called
    exact nextId_setBackground w t background
  | portal id background =>
    cases called
    show (w.portalBy chooser id background).nextId = w.nextId
    obtain ⟨_, _, _, same⟩ := portalBy_eq chooser w id background
    rw [same]
  | block kind =>
    cases called
    show (w.block kind).nextId = w.nextId
    rw [block]
    split <;> rfl
  | event what =>
    obtain ⟨after, changed, done⟩ := bind_eq_ok.mp called
    cases pure_eq_ok.mp done
    cases what with
    | win | lose =>
      cases pure_eq_ok.mp changed
      rfl
    | score | nextLevel =>
      obtain ⟨count, _, done⟩ := bind_eq_ok.mp changed
      cases pure_eq_ok.mp done
      rfl

theorem nextId_of_advance (advanced : w.advance = .ok v) : v.nextId = w.nextId := by
  obtain ⟨_, rfl⟩ := advance_eq_ok_iff.mp advanced
  show (w.commit w.resolve.1 w.resolve.2).nextId = w.nextId
  rw [commit_eq]

namespace Issues

variable {ids more : List SpriteId} {u : World}

theorem consistent (history : w.Issues ids v) (c : Consistent w) : Consistent v := by
  induction history with
  | refl => exact c
  | setBackground t kind _ before => exact before.setBackground t kind
  | spawn _ spawned before => exact before.spawn spawned
  | call _ _ called before => exact before.call called
  | advance _ advanced before => exact before.advance advanced

theorem follows (history : w.Issues ids v) (c : Consistent w) : w.Follows v := by
  induction history with
  | refl => exact .refl w
  | setBackground t kind _ before => exact before.trans (.setBackground _ t kind)
  | spawn _ spawned before => exact before.trans (.spawn spawned)
  | call _ _ called before => exact before.trans (.call called)
  | advance past advanced before => exact before.trans (.advance (past.consistent c) advanced)

/-- The ids that are given out are the next ones, in order. -/
theorem ids_eq (history : w.Issues ids v) :
    ids = (List.range' w.nextId ids.length).map SpriteId.mk ∧ v.nextId = w.nextId + ids.length := by
  induction history with
  | refl => exact ⟨rfl, rfl⟩
  | setBackground t kind _ before => exact ⟨before.1, (nextId_setBackground _ t kind).trans before.2⟩
  | spawn _ spawned before =>
    obtain ⟨listed, next⟩ := before
    rcases spawn_answers spawned with ⟨rfl, rfl⟩ | ⟨rfl, later⟩
    · rw [Option.toList_none, List.append_nil]
      exact ⟨listed, next⟩
    · rw [Option.toList_some, List.length_append, List.length_singleton, List.range'_concat, List.map_append, ← listed,
        later, next, Nat.one_mul]
      exact ⟨rfl, rfl⟩
  | call _ other called before => exact ⟨before.1, (nextId_of_call other called).trans before.2⟩
  | advance _ advanced before => exact ⟨before.1, (nextId_of_advance advanced).trans before.2⟩

theorem ascending (history : w.Issues ids v) : ids.Pairwise fun a b => a.raw < b.raw := by
  rw [history.ids_eq.1, List.pairwise_map]
  exact List.pairwise_lt_range'

theorem mem_ids (history : w.Issues ids v) (id : SpriteId) : id ∈ ids ↔ w.nextId ≤ id.raw ∧ id.raw < v.nextId := by
  rw [history.ids_eq.2, history.ids_eq.1, List.mem_map, List.length_map, List.length_range']
  simp only [List.mem_range'_1]
  constructor
  · rintro ⟨raw, bounds, rfl⟩
    exact bounds
  · intro bounds
    exact ⟨id.raw, bounds, rfl⟩

theorem trans (first : u.Issues ids w) (second : w.Issues more v) : u.Issues (ids ++ more) v := by
  induction second with
  | refl =>
    rw [List.append_nil]
    exact first
  | setBackground t kind _ before => exact before.setBackground t kind
  | spawn _ spawned before =>
    rw [← List.append_assoc]
    exact before.spawn spawned
  | call _ other called before => exact before.call other called
  | advance _ advanced before => exact before.advance advanced

/-- Whatever is done through the engine goes on with the history, a create call by placing a sprite. -/
theorem keeps (chooser : Random.Chooser Tile) (w : World) : (engineBy chooser).Keeps fun v => ∃ ids, w.Issues ids v where
  call {c u answer v} before called := by
    obtain ⟨ids, history⟩ := before
    cases c with
    | create t kind motion =>
      obtain ⟨⟨id, after⟩, spawned, done⟩ := bind_eq_ok.mp called
      cases pure_eq_ok.mp done
      exact ⟨_, history.spawn spawned⟩
    | _ => exact ⟨ids, history.call (by rintro _ _ _ ⟨⟩) called⟩
  advance before advanced := before.imp fun _ history => history.advance advanced

/-- Every operation, also a tick, goes on with the history. -/
theorem exists_of_run {chooser : Random.Chooser Tile} {op : Operation} (ran : op.run chooser w = .ok v) :
    ∃ ids, w.Issues ids v := by
  have still : ∃ ids, w.Issues ids w := ⟨[], .refl⟩
  cases op with
  | setBackground t kind =>
    cases ran
    exact ⟨_, .setBackground t kind .refl⟩
  | spawn t kind motion =>
    obtain ⟨⟨answer, after⟩, spawned, done⟩ := bind_eq_ok.mp ran
    cases pure_eq_ok.mp done
    exact ⟨_, .spawn .refl spawned⟩
  | call c =>
    obtain ⟨⟨answer, after⟩, called, done⟩ := bind_eq_ok.mp ran
    cases pure_eq_ok.mp done
    exact (keeps chooser w).call still called
  | advance => exact (keeps chooser w).advance still ran
  | step session button =>
    obtain ⟨⟨report, after⟩, stepped, done⟩ := bind_eq_ok.mp ran
    cases pure_eq_ok.mp done
    exact (keeps chooser w).stepOn still stepped

/-- A sprite that has been destroyed is gone for good. -/
theorem gone (history : (w.destroy id).Issues more v) (c : Consistent w) (live : ∃ s, w.sprite? id = some s) :
    id ∉ more ∧ v.Gone id := by
  obtain ⟨s, found⟩ := live
  have old : id.raw < (w.destroy id).nextId := Nat.lt_of_lt_of_le (c.id_lt id s found) (Follows.destroy w id).nextId
  have c' := c.destroy id
  refine ⟨fun again => ?_, (history.consistent c').gone ((history.follows c').absent old (sprite?_destroy w id))⟩
  exact absurd ((history.mem_ids id).mp again).1 (Nat.not_le.mpr old)

end Issues

/-! ### Calls that come too late -/

/-- Calls that are aimed at a sprite that one before them has destroyed find it gone and do nothing. -/
def LateInVain (e : Engine World SpriteId) (calls : List (Call SpriteId)) (w v : World) : Prop :=
  ∀ before c after id, calls = before ++ c :: after → c.target? = some id → .destroy id ∈ before →
    ∃ u, e.callAll before w = .ok u ∧ u.Gone id ∧ e.call c u = .ok (true, u) ∧ e.callAll after u = .ok v

/-- The calls may place sprites as well, as long as none of them is aimed at one that was not there before all of them. -/
theorem Consistent.lateInVain (c : Consistent w) {chooser : Random.Chooser Tile} {calls : List (Call SpriteId)}
    (live : ∀ k ∈ calls, ∀ id, k.target? = some id → ∃ r, w.sprite? id = some r)
    (called : (engineBy chooser).callAll calls w = .ok v) : LateInVain (engineBy chooser) calls w v := by
  rintro before k after id rfl aimed destroyed
  obtain ⟨r, there⟩ := live k (by simp) id aimed
  obtain ⟨u, first, later⟩ := Engine.callAll_append_eq_ok.mp called
  obtain ⟨early, late, rfl⟩ := List.append_of_mem destroyed
  obtain ⟨x, begun, rest⟩ := Engine.callAll_append_eq_ok.mp first
  obtain ⟨_, _, removed, rest⟩ := Engine.callAll_cons_eq_ok.mp rest
  cases removed
  obtain ⟨c', follows⟩ := (keeps_follows chooser w).callAll ⟨c, .refl w⟩ begun
  obtain ⟨c'', since⟩ := (keeps_follows chooser (x.destroy id)).callAll ⟨c'.destroy id, .refl _⟩ rest
  have old : id.raw < (x.destroy id).nextId :=
    Nat.lt_of_lt_of_le (c.id_lt id r there) (follows.trans (.destroy x id)).nextId
  have absent := since.absent old (sprite?_destroy x id)
  have same := call_of_absent chooser absent aimed
  obtain ⟨_, _, again, later⟩ := Engine.callAll_cons_eq_ok.mp later
  cases same.symm.trans again
  exact ⟨u, first, c''.gone absent, same, later⟩

/-- Ids ascend in the order in which they are given out, and as long as there are any left, attempts to place a sprite come to
    an answer. A sprite that is destroyed is gone for good, and calls that are aimed at a sprite that is not there do nothing.
    So the commands of a phase whose target one before them has destroyed hit nobody. -/
theorem sprite_ids_never_reused {width height : Int} {fill : Nat} {kinds : Kinds} {settings : Settings} {start : World}
    {ids : List SpriteId} (built : World.new width height fill kinds settings = .ok start) (history : start.Issues ids w) :
    ids.Pairwise (fun a b => a.raw < b.raw) ∧
      (ids.length + 1 < Word.half.size → ∀ t kind motion, ∃ answer v, w.spawn t kind motion = .ok (answer, v) ∧
        ∀ id, answer = some id → ∀ old ∈ ids, old.raw < id.raw) ∧
      (∀ id s, w.sprite? id = some s → ∀ more v, (w.destroy id).Issues more v → id ∉ more ∧ v.Gone id) ∧
      (∀ chooser c id, c.target? = some id → w.sprite? id = none → (engineBy chooser).call c w = .ok (true, w)) ∧
      (∀ (s : Session) chooser phase sprites button fs fired v, s.matchPhase w phase sprites button = .ok fs →
        Session.runFirings (engineBy chooser) phase fs w = .ok (fired, v) →
          LateInVain (engineBy chooser) (fs.flatMap Firing.calls) w v) ∧
      ∀ chooser (op : Operation) v, op.run chooser w = .ok v → ∃ more, start.Issues (ids ++ more) v := by
  have c := history.consistent (consistent_new built)
  have first : start.nextId = 0 := nextId_new built
  have next := history.ids_eq.2
  refine ⟨history.ascending, fun room t kind motion => ?_, ?_, ?_, ?_, ?_⟩
  · obtain ⟨answer, v, spawned⟩ := exists_spawn (w := w) (by omega) t kind motion
    refine ⟨answer, v, spawned, ?_⟩
    rintro id rfl old member
    rcases spawn_answers spawned with ⟨⟨⟩, _⟩ | ⟨same, _⟩
    cases same
    exact ((history.mem_ids old).mp member).2
  · exact fun id s found more v later => later.gone c ⟨s, found⟩
  · exact fun chooser k id aimed absent => call_of_absent chooser absent aimed
  · intro s chooser phase sprites button fs fired v matched ran
    exact c.lateInVain (fun k member id aimed => s.sprite_of_matchPhase c matched member aimed)
      (Engine.callAll_of_runFirings ran)
  · exact fun chooser op v ran => (Issues.exists_of_run ran).imp fun more later => history.trans later

/-- A project that puts a new sprite in the place of every one, and then sends the old one to the right. -/
def succession : Project where
  config := ⟨⟨2, 2⟩, none⟩
  rules := ⟨(IdMap.empty.insert 0 (some (.blanket .change .none [⟨.sprite, code SpriteOp.remove⟩, .spawn ⟨0, none⟩]))).insert 1
    (some (.blanket .change .none [.move (.go .right)])), 2⟩

/-- The order for the old sprite is not obeyed by the new one, which stands on its tile. -/
theorem succession_spares : ∃ start w fs fired v u, World.new 3 1 0 ⟨1, 1⟩ .standard = .ok start ∧
    start.Issues [⟨0⟩, ⟨1⟩] w ∧ (Session.new succession .standard).matchPhase w .resting [⟨0⟩, ⟨1⟩] none = .ok fs ∧
    Session.runFirings engine .resting fs w = .ok (fired, v) ∧
    engine.callAll [.destroy ⟨0⟩, .create ⟨0, 0⟩ 0 none] w = .ok u ∧ u.Gone ⟨0⟩ ∧ u.occupant ⟨0, 0⟩ = some ⟨2⟩ ∧
    engine.call (.move ⟨0⟩ .right) u = .ok (true, u) ∧ v.motion ⟨2⟩ = none := by
  obtain ⟨start, x, w, fs, fired, v, y, built, one, two, matched, ran, calls, placed, here, rests⟩ :
      ∃ start x w fs fired v y, World.new 3 1 0 ⟨1, 1⟩ .standard = .ok start ∧
        start.spawn ⟨0, 0⟩ 0 none = .ok (some ⟨0⟩, x) ∧ x.spawn ⟨1, 0⟩ 0 none = .ok (some ⟨1⟩, w) ∧
        (Session.new succession .standard).matchPhase w .resting [⟨0⟩, ⟨1⟩] none = .ok fs ∧
        Session.runFirings engine .resting fs w = .ok (fired, v) ∧ fs.flatMap Firing.calls =
          [.destroy ⟨0⟩, .create ⟨0, 0⟩ 0 none] ++ .move ⟨0⟩ .right ::
            [.destroy ⟨1⟩, .create ⟨1, 0⟩ 0 none, .move ⟨1⟩ .right] ∧
        engine.callAll [.destroy ⟨0⟩, .create ⟨0, 0⟩ 0 none] w = .ok y ∧ y.occupant ⟨0, 0⟩ = some ⟨2⟩ ∧
        v.motion ⟨2⟩ = none := ⟨_, _, _, _, _, _, _, rfl, rfl, rfl, rfl, rfl, rfl, rfl, rfl, rfl⟩
  have history : start.Issues [⟨0⟩, ⟨1⟩] w := (Issues.refl.spawn one).spawn two
  obtain ⟨_, _, _, _, late, _⟩ := sprite_ids_never_reused built history
  obtain ⟨u, before, gone, vain, _⟩ := late _ .stream _ _ _ _ _ _ matched ran _ _ _ ⟨0⟩ calls rfl List.mem_cons_self
  cases placed.symm.trans before
  exact ⟨start, w, fs, fired, v, y, built, history, matched, ran, placed, gone, here, vain, rests⟩

end World
end Playfield
