import Mathlib.Data.List.Forall2
import Mathlib.Data.List.ReduceOption
import Playfield.Proofs.Expansion

/-!
# What a firing does to an engine

An engine can be watched: it goes on as before and keeps a record of all that is done to it. So the calls of a firing can be
counted, whatever the engine. Each command makes one call or none, in the order of the commands, and the end of a tick is never
asked for. The answer of a dispatch is the number of calls made, without those to place a sprite that found no room.
-/
namespace Playfield

variable {σ ι : Type}

/-- Something that was done to an engine. -/
inductive Deed (ι : Type)
  /-- A change that a command asked for, with the sprite that was placed, if one was. -/
  | call (c : Call ι) (placed : Option ι)
  /-- The end of a tick. -/
  | advance
  deriving DecidableEq, Repr

/-- Whether a sprite was to be placed and was not. -/
def Deed.inVain : Deed ι → Bool
  | call (.create ..) none => true
  | _ => false

/-- How many of the deeds were not in vain. -/
def Deed.tally (deeds : List (Deed ι)) : Nat := deeds.countP fun d => !d.inVain

/-- The engine on boards with a record of all that was done to them, the oldest first. -/
def Engine.watched (e : Engine σ ι) : Engine (σ × List (Deed ι)) ι where
  create tile kind motion
    | (s, done) => do
      let (placed, s) ← e.create tile kind motion s
      return (placed, s, done ++ [.call (.create tile kind motion) placed])
  move target heading
    | (s, done) => return (← e.move target heading s, done ++ [.call (.move target heading) none])
  reverse target heading
    | (s, done) => return (← e.reverse target heading s, done ++ [.call (.reverse target heading) none])
  stop target
    | (s, done) => return (← e.stop target s, done ++ [.call (.stop target) none])
  destroy target
    | (s, done) => return (← e.destroy target s, done ++ [.call (.destroy target) none])
  advance
    | (s, done) => return (← e.advance s, done ++ [.advance])
  paint tile background
    | (s, done) => return (← e.paint tile background s, done ++ [.call (.paint tile background) none])
  portal target background
    | (s, done) => return (← e.portal target background s, done ++ [.call (.portal target background) none])
  block kind
    | (s, done) => return (← e.block kind s, done ++ [.call (.block kind) none])
  event what
    | (s, done) => return (← e.event what s, done ++ [.call (.event what) none])

namespace Errand

/-- An errand that comes to nothing: it needs a sprite and its cell has none, its argument means nothing, or it is a U-turn
    and the sprite was at rest. -/
def Idle (t : Errand ι) : Prop :=
  t.command.inst ∈ [.move, .sprite, .portal] ∧ t.target = none ∨
    (t.command.inst = .move ∧ ∀ order : MoveOrder, t.command.arg ≠ code order) ∨
    (t.command.inst = .sprite ∧ ∀ op : SpriteOp, t.command.arg ≠ code op) ∨
    (t.command.inst = .game ∧ ∀ event : GameEvent, t.command.arg ≠ code event) ∨
    t.command = .move .uTurn ∧ t.motion = none

/-- A call that is made for an errand: it has the target or the tile of the errand and what its argument stands for. -/
def Carries (t : Errand ι) : Call ι → Prop
  | .create tile kind motion =>
    t.command.inst = .spawn ∧ tile = t.tile ∧ kind = t.command.arg.toNat % 16 ∧
      ∀ h : Heading, motion = some h ↔ t.command.arg.toNat / 16 = (code h).toNat
  | .move target heading => t.command = .move (.go heading) ∧ t.target = some target
  | .reverse target heading =>
    t.command = .move .uTurn ∧ t.target = some target ∧ ∃ before, t.motion = some before ∧ heading = before.opposite
  | .stop target => t.command = .move .stop ∧ t.target = some target
  | .destroy target => t.command = ⟨.sprite, code SpriteOp.remove⟩ ∧ t.target = some target
  | .paint tile background => t.command.inst = .paint ∧ tile = t.tile ∧ background = t.command.arg.toNat
  | .portal target background =>
    t.command.inst = .portal ∧ t.target = some target ∧ background = t.command.arg.toNat
  | .block kind => t.command.inst = .block ∧ kind = t.command.arg.toNat
  | .event what => t.command = .game what

/-- What is done for an errand: nothing exactly if it comes to nothing, and otherwise one call that is made for it. -/
def DoneBy (t : Errand ι) : Option (Deed ι) → Prop
  | none => t.Idle
  | some (.call c _) => ¬t.Idle ∧ t.Carries c
  | some .advance => False

end Errand

/-- An errand is run on a board and is done by a deed, which the watched engine records. -/
structure Errand.Makes (t : Errand ι) (e : Engine σ ι) (s : σ) (deed : Option (Deed ι)) (s' : σ) : Prop where
  done : t.DoneBy deed
  run : t.run e s = .ok (deed.any fun d => !d.inVain, s')
  watched : ∀ record, t.run e.watched (s, record) = .ok (deed.any fun d => !d.inVain, s', record ++ deed.toList)

/-- A firing is dispatched to the end: each of its errands is done by its place in the list of deeds, the watched engine
    records these in their order, and the answer is the number of those that were not in vain. -/
structure Firing.Makes (f : Firing ι) (e : Engine σ ι) (s : σ) (deeds : List (Option (Deed ι))) (s' : σ) : Prop where
  done : List.Forall₂ Errand.DoneBy f.commands deeds
  dispatch : f.dispatch e s = .ok (Deed.tally deeds.reduceOption, s')
  watched : ∀ record,
    f.dispatch e.watched (s, record) = .ok (Deed.tally deeds.reduceOption, s', record ++ deeds.reduceOption)

/-- A firing is not dispatched to the end, because the engine fails in a call that is made for one of the errands; those before
    it are done. -/
def Firing.Breaks (f : Firing ι) (e : Engine σ ι) (s : σ) : Prop :=
  ∃ before t after deeds s' c cause, f.commands = before ++ t :: after ∧ { f with commands := before }.Makes e s deeds s' ∧
    t.Carries c ∧ e.call c s' = .error cause ∧ f.dispatch e s = .error cause

/-! ### One errand -/

namespace Spawn

/-- The motion in the byte of a spawn is the heading that the upper half codes. -/
theorem motion_ofByte_eq_some_iff {b : UInt8} {h : Heading} :
    (ofByte b).motion = some h ↔ b.toNat / 16 = (code h).toNat := by
  show ofCode? (b / 16) = some h ↔ _
  rw [ofCode?_eq_some_iff, ← UInt8.toNat_inj, UInt8.toNat_div]
  rfl

theorem toNat_kind_ofByte (b : UInt8) : (ofByte b).kind.toNat = b.toNat % 16 := UInt8.toNat_mod b 16

end Spawn

namespace Errand

theorem moveCall?_eq_none_iff {target : ι} {motion : Option Heading} {order : MoveOrder} :
    moveCall? target motion order = none ↔ order = .uTurn ∧ motion = none := by
  cases order <;> simp [moveCall?]

/-- No call is asked for exactly if the errand comes to nothing. -/
theorem call?_eq_none_iff {t : Errand ι} : t.call? = none ↔ t.Idle := by
  obtain ⟨⟨inst, arg⟩, tile, target, motion⟩ := t
  cases inst with
  | move =>
    cases target with
    | none => simp [call?, Idle]
    | some target =>
      cases decoded : (ofCode? arg : Option MoveOrder) with
      | none =>
        have meaningless := ofCode?_eq_none_iff.mp decoded
        simp [call?, Idle, decoded, meaningless]
      | some order =>
        obtain rfl := ofCode?_eq_some_iff.mp decoded
        have same (other : MoveOrder) : code order = code other ↔ order = other := ⟨code_inj, congrArg code⟩
        simp [call?, Idle, Command.move, moveCall?_eq_none_iff, same]
  | sprite => cases target <;> simp [call?, Idle, Command.move, ofCode?_eq_none_iff]
  | game => simp [call?, Idle, Command.move, ofCode?_eq_none_iff]
  | portal => simp [call?, Idle, Command.move]
  | paint | spawn | block => simp [call?, Idle, Command.move]

theorem carries_of_call? {t : Errand ι} {c : Call ι} (asked : t.call? = some c) : t.Carries c := by
  obtain ⟨⟨inst, arg⟩, tile, target, motion⟩ := t
  cases inst with
  | move =>
    obtain ⟨target, rfl, asked⟩ := Option.bind_eq_some_iff.mp asked
    obtain ⟨order, decoded, asked⟩ := Option.bind_eq_some_iff.mp asked
    obtain rfl := ofCode?_eq_some_iff.mp decoded
    cases order with
    | go heading =>
      cases asked
      exact ⟨rfl, rfl⟩
    | stop =>
      cases asked
      exact ⟨rfl, rfl⟩
    | uTurn =>
      obtain ⟨before, rfl, rfl⟩ := Option.map_eq_some_iff.mp asked
      exact ⟨rfl, rfl, before, rfl, rfl⟩
  | paint =>
    cases asked
    exact ⟨rfl, rfl, rfl⟩
  | spawn =>
    cases asked
    exact ⟨rfl, rfl, Spawn.toNat_kind_ofByte arg, fun _ => Spawn.motion_ofByte_eq_some_iff⟩
  | sprite =>
    obtain ⟨target, rfl, asked⟩ := Option.bind_eq_some_iff.mp asked
    obtain ⟨op, decoded, rfl⟩ := Option.map_eq_some_iff.mp asked
    obtain rfl := ofCode?_eq_some_iff.mp decoded
    exact ⟨rfl, rfl⟩
  | game =>
    obtain ⟨what, decoded, rfl⟩ := Option.map_eq_some_iff.mp asked
    obtain rfl := ofCode?_eq_some_iff.mp decoded
    rfl
  | portal =>
    obtain ⟨target, rfl, rfl⟩ := Option.map_eq_some_iff.mp asked
    exact ⟨rfl, rfl, rfl⟩
  | block =>
    cases asked
    exact ⟨rfl, rfl⟩

end Errand

/-! ### One call -/

/-- A call of the watched engine is the call itself, with a record of it. -/
theorem Engine.call_watched {e : Engine σ ι} {c : Call ι} {s s' : σ} {counts : Bool}
    (called : e.call c s = .ok (counts, s')) :
    ∃ placed, counts = !(Deed.call c placed).inVain ∧
      ∀ record, e.watched.call c (s, record) = .ok (counts, s', record ++ [.call c placed]) := by
  cases c with
  | create tile kind motion =>
    obtain ⟨⟨placed, after⟩, created, done⟩ := bind_eq_ok.mp called
    cases pure_eq_ok.mp done
    refine ⟨placed, by cases placed <;> rfl, fun record => ?_⟩
    simp only [call, watched, created]
    rfl
  | move | reverse | stop | destroy | paint | portal | block | event =>
    obtain ⟨after, ran, done⟩ := bind_eq_ok.mp called
    cases pure_eq_ok.mp done
    refine ⟨none, rfl, fun record => ?_⟩
    simp only [call, watched, ran]
    rfl

/-- An errand is done, or the engine fails in the call that is made for it. -/
theorem Errand.makes_or_breaks (t : Errand ι) (e : Engine σ ι) (s : σ) : (∃ deed s', t.Makes e s deed s') ∨
    ∃ c cause, t.Carries c ∧ e.call c s = .error cause ∧ t.run e s = .error cause := by
  cases asked : t.call? with
  | none =>
    refine .inl ⟨none, s, call?_eq_none_iff.mp asked, ?_, fun record => ?_⟩
    · rw [run, asked]
      rfl
    · rw [run, asked, Option.toList_none, List.append_nil]
      rfl
  | some c =>
    have busy : ¬t.Idle := by
      intro idle
      cases asked.symm.trans (call?_eq_none_iff.mpr idle)
    cases called : e.call c s with
    | error cause =>
      refine .inr ⟨c, cause, carries_of_call? asked, called, ?_⟩
      rw [run, asked]
      exact called
    | ok outcome =>
      obtain ⟨counts, s'⟩ := outcome
      obtain ⟨placed, rfl, recorded⟩ := Engine.call_watched called
      refine .inl ⟨some (.call c placed), s', ⟨busy, carries_of_call? asked⟩, ?_, fun record => ?_⟩
      · rw [run, asked]
        exact called
      · rw [run, asked]
        exact recorded record

/-! ### All errands of a firing -/

theorem Deed.tally_cons (deed : Option (Deed ι)) (deeds : List (Option (Deed ι))) :
    tally (deed :: deeds).reduceOption = (deed.any fun d => !d.inVain).toNat + tally deeds.reduceOption := by
  cases deed with
  | none => simp [List.reduceOption_cons_of_none]
  | some d => cases vain : d.inVain <;> simp [List.reduceOption_cons_of_some, tally, vain, Nat.add_comm]

namespace Firing

variable {f : Firing ι} {e : Engine σ ι} {s s₁ s' : σ} {t : Errand ι} {rest : List (Errand ι)}

theorem dispatch_cons {sent : Bool} {count : Nat} (first : t.run e s = .ok (sent, s₁))
    (later : { f with commands := rest }.dispatch e s₁ = .ok (count, s')) :
    { f with commands := t :: rest }.dispatch e s = .ok (sent.toNat + count, s') :=
  bind_eq_ok.mpr ⟨_, first, bind_eq_ok.mpr ⟨_, later, rfl⟩⟩

theorem dispatch_cons_of_error {sent : Bool} {cause : Fault} (first : t.run e s = .ok (sent, s₁))
    (later : { f with commands := rest }.dispatch e s₁ = .error cause) :
    { f with commands := t :: rest }.dispatch e s = .error cause := by
  show (t.run e s >>= fun x => { f with commands := rest }.dispatch e x.2 >>= fun y => pure (x.1.toNat + y.1, y.2)) = _
  rw [first, ok_bind, later]
  rfl

theorem makes_nil (f : Firing ι) (e : Engine σ ι) (s : σ) : { f with commands := [] }.Makes e s [] s := by
  refine ⟨.nil, rfl, fun record => ?_⟩
  rw [List.reduceOption_nil, List.append_nil]
  rfl

/-- One errand is done before the others. -/
theorem Makes.cons {deed : Option (Deed ι)} {deeds : List (Option (Deed ι))} (first : t.Makes e s deed s₁)
    (later : { f with commands := rest }.Makes e s₁ deeds s') :
    { f with commands := t :: rest }.Makes e s (deed :: deeds) s' where
  done := .cons first.done later.done
  dispatch := by
    rw [Deed.tally_cons]
    exact dispatch_cons first.run later.dispatch
  watched record := by
    have recorded : record ++ (deed :: deeds).reduceOption = record ++ deed.toList ++ deeds.reduceOption := by
      cases deed <;> simp
    rw [Deed.tally_cons, recorded]
    exact dispatch_cons (first.watched record) (later.watched _)

/-- The engine fails in the call for the first errand or, once it is done, in a later one. -/
theorem breaks_cons {deed : Option (Deed ι)} (first : t.Makes e s deed s₁)
    (later : { f with commands := rest }.Breaks e s₁) : { f with commands := t :: rest }.Breaks e s := by
  obtain ⟨before, u, after, deeds, s', c, cause, split, made, carried, failed, broken⟩ := later
  have split : rest = before ++ u :: after := split
  refine ⟨t :: before, u, after, deed :: deeds, s', c, cause, ?_, Makes.cons first made, carried, failed, ?_⟩
  · rw [split]
    rfl
  · exact dispatch_cons_of_error first.run broken

theorem makes_or_breaks (f : Firing ι) (e : Engine σ ι) (s : σ) : (∃ deeds s', f.Makes e s deeds s') ∨ f.Breaks e s := by
  have all (commands : List (Errand ι)) : (∃ deeds s', { f with commands := commands }.Makes e s deeds s') ∨
      { f with commands := commands }.Breaks e s := by
    induction commands generalizing s with
    | nil => exact .inl ⟨[], s, makes_nil f e s⟩
    | cons t rest ih =>
      rcases t.makes_or_breaks e s with ⟨deed, s₁, first⟩ | ⟨c, cause, carried, failed, broken⟩
      · rcases ih s₁ with ⟨deeds, s', later⟩ | later
        · exact .inl ⟨deed :: deeds, s', Makes.cons first later⟩
        · exact .inr (breaks_cons first later)
      · refine .inr ⟨[], t, rest, [], s, c, cause, rfl, makes_nil f e s, carried, failed, ?_⟩
        show (t.run e s >>= _) = _
        rw [broken]
        rfl
  exact all f.commands

/-- The motion in an errand is the one that its target had on the grid on which the rule was matched. -/
theorem motion_of_evaluate {m : Matcher} {g : Grid ι} {v : View} {sprite : ι} (matched : m.evaluate g sprite v = .ok (some f))
    {t : Errand ι} (member : t ∈ f.commands) : t.motion = t.target.bind g.motion := by
  obtain ⟨home, centre, around, rfl⟩ := Matcher.firing_of_evaluate matched
  have bound {i : Nat} {tile : Tile} {target : Option ι} (listed : t ∈ Matcher.errands g v i tile target) :
      t.motion = t.target.bind g.motion := by
    obtain ⟨_, _, rfl⟩ := List.mem_map.mp listed
    rfl
  rcases List.mem_append.mp member with own | other
  · cases centre with
    | none => cases own
    | some i => exact bound own
  · obtain ⟨n, _, listed⟩ := List.mem_flatMap.mp other
    exact bound listed

/-- Whatever the engine and its board, to dispatch a firing makes one call for each of its errands in their order, unless the
    errand comes to nothing, and never ends the tick. The answer is the number of calls made, without those to place a sprite
    that was not placed. -/
theorem dispatch_makes_calls (f : Firing ι) (e : Engine σ ι) (s : σ) :
    ((∃ deeds s', f.Makes e s deeds s') ∨ f.Breaks e s) ∧
      ∀ m g v sprite, Matcher.evaluate m g sprite v = .ok (some f) → ∀ t ∈ f.commands, t.motion = t.target.bind g.motion :=
  ⟨f.makes_or_breaks e s, fun _ _ _ _ matched _ member => motion_of_evaluate matched member⟩

/-- A sprite at rest is not turned around, and a sprite is asked for that finds no room. -/
example :
    let full : Engine Unit Nat :=
      { create _ _ _ s := .ok (none, s), move _ _ s := .ok s, reverse _ _ s := .ok s, stop _ s := .ok s
        destroy _ s := .ok s, advance s := .ok s }
    let f : Firing Nat := ⟨none, none, 7, [],
      [⟨.move .uTurn, ⟨4, 4⟩, some 7, none⟩, ⟨.spawn ⟨1, some .right⟩, ⟨5, 4⟩, none, none⟩, ⟨.move .stop, ⟨4, 4⟩, some 7, none⟩]⟩
    f.dispatch full.watched ((), []) =
      .ok (1, (), [.call (.create ⟨5, 4⟩ 1 (some .right)) none, .call (.stop 7) none]) := rfl

end Firing
end Playfield
