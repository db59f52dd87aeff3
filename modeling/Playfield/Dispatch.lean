import Playfield.Match

/-!
# Dispatch

A firing is dispatched to an engine, which changes the board. An errand asks for at most one call; one
that lacks its target, or whose argument means nothing, asks for none. An engine must have the first
six operations; those after them do nothing unless the engine says otherwise.
-/
namespace Playfield

variable {σ ι : Type}

/-- A change to the board that a command asks for. -/
inductive Call (ι : Type)
  | create (tile : Tile) (kind : Nat) (motion : Option Heading)
  | move (target : ι) (heading : Heading)
  | reverse (target : ι) (heading : Heading)
  | stop (target : ι)
  | destroy (target : ι)
  | paint (tile : Tile) (background : Nat)
  | portal (target : ι) (background : Nat)
  | block (kind : Nat)
  | event (what : GameEvent)
  deriving DecidableEq, Repr

/-- What can be done to a board whose states are `σ` and whose sprites are named by `ι`. -/
structure Engine (σ ι : Type) where
  /-- Places a new sprite, if it can. -/
  create : Tile → Nat → Option Heading → σ → Checked (Option ι × σ)
  /-- Sets a sprite in motion. -/
  move : ι → Heading → σ → Checked σ
  /-- Turns a sprite around, to a new heading. -/
  reverse : ι → Heading → σ → Checked σ
  /-- Brings a sprite to rest. -/
  stop : ι → σ → Checked σ
  /-- Takes a sprite away. -/
  destroy : ι → σ → Checked σ
  /-- Ends the tick: all motions take place. -/
  advance : σ → Checked σ
  /-- Paints a tile with a background kind. -/
  paint : Tile → Nat → σ → Checked σ := fun _ _ s => .ok s
  /-- Sends a sprite to a tile of a background kind. -/
  portal : ι → Nat → σ → Checked σ := fun _ _ s => .ok s
  /-- Suspends the rules of a sprite kind for the next round. -/
  block : Nat → σ → Checked σ := fun _ s => .ok s
  /-- Changes the game. -/
  event : GameEvent → σ → Checked σ := fun _ s => .ok s

namespace Engine

/-- Makes a call; answers whether it counts. A sprite that could not be placed does not count. -/
def call (e : Engine σ ι) (c : Call ι) (s : σ) : Checked (Bool × σ) :=
  match c with
  | .create tile kind motion => return ((← e.create tile kind motion s).map Option.isSome id)
  | .move target heading => return (true, ← e.move target heading s)
  | .reverse target heading => return (true, ← e.reverse target heading s)
  | .stop target => return (true, ← e.stop target s)
  | .destroy target => return (true, ← e.destroy target s)
  | .paint tile background => return (true, ← e.paint tile background s)
  | .portal target background => return (true, ← e.portal target background s)
  | .block kind => return (true, ← e.block kind s)
  | .event what => return (true, ← e.event what s)

end Engine

namespace Errand

/-- The call that a `move` command asks for. A U-turn reverses the motion that the target had when
    the rule matched. -/
def moveCall? (target : ι) (motion : Option Heading) : MoveOrder → Option (Call ι)
  | .go heading => some (.move target heading)
  | .stop => some (.stop target)
  | .uTurn => motion.map fun heading => .reverse target heading.opposite

/-- The call that an errand asks for. -/
def call? (t : Errand ι) : Option (Call ι) :=
  let arg := t.command.arg
  match t.command.inst with
  | .move => t.target.bind fun target => (ofCode? arg).bind (moveCall? target t.motion)
  | .paint => some (.paint t.tile arg.toNat)
  | .spawn => some (.create t.tile (Spawn.ofByte arg).kind.toNat (Spawn.ofByte arg).motion)
  | .sprite => t.target.bind fun target => (ofCode? arg).map fun | SpriteOp.remove => .destroy target
  | .game => (ofCode? arg).map .event
  | .portal => t.target.map fun target => .portal target arg.toNat
  | .block => some (.block arg.toNat)

/-- Runs an errand; answers whether it reached the engine. -/
def run (e : Engine σ ι) (t : Errand ι) (s : σ) : Checked (Bool × σ) :=
  match t.call? with
  | some c => e.call c s
  | none => return (false, s)

/-- Runs errands in order; answers how many reached the engine. -/
def runAll (e : Engine σ ι) : List (Errand ι) → σ → Checked (Nat × σ)
  | [], s => return (0, s)
  | t :: rest, s => do
    let (sent, s) ← t.run e s
    let (count, s) ← runAll e rest s
    return (sent.toNat + count, s)

end Errand

/-- Runs the commands of a firing; answers how many reached the engine. -/
def Firing.dispatch (f : Firing ι) (e : Engine σ ι) (s : σ) : Checked (Nat × σ) := Errand.runAll e f.commands s

end Playfield
