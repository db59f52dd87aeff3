import Playfield.Heading

/-!
# Commands

A command is an instruction with a byte for its argument. What the byte means hangs on the
instruction, and not every byte means something: a rule may hold commands that do nothing.
-/
namespace Playfield

/-- What a command does. -/
inductive Instruction
  /-- Moves, stops or turns a sprite, as a `MoveOrder` says. -/
  | move
  /-- Paints the tile with a background kind. -/
  | paint
  /-- Creates a sprite at the tile, as a `Spawn` says. -/
  | spawn
  /-- Changes a sprite, as a `SpriteOp` says. -/
  | sprite
  /-- Changes the game, as a `GameEvent` says. -/
  | game
  /-- Sends a sprite to a tile of a background kind. -/
  | portal
  /-- Suspends the rules of a sprite kind for the next round. -/
  | block
  deriving DecidableEq, Repr

namespace Instruction

instance : Vocabulary Instruction where
  words := [move, paint, spawn, sprite, game, portal, block]
  code i := .ofNat i.ctorIdx
  name
    | move => "Move"
    | paint => "Paint"
    | spawn => "Spawn"
    | sprite => "SpriteOp"
    | game => "GameOp"
    | portal => "Portal"
    | block => "BlockRules"
  words_code i := by cases i <;> rfl
  codes := rfl

/-- The word for an instruction in the text of a rule. -/
def label : Instruction → String
  | move => "move"
  | paint => "paint"
  | spawn => "spawn"
  | sprite => "sprite"
  | game => "game"
  | portal => "portal"
  | block => "block"

end Instruction

/-- The word for a heading in the text of a rule. -/
def Heading.label : Heading → String
  | .left => "left"
  | .up => "up"
  | .right => "right"
  | .down => "down"

/-- A button of the controller. -/
inductive Button
  | arrow (heading : Heading)
  | a
  | b
  deriving DecidableEq, Repr

namespace Button

instance : Vocabulary Button where
  words := [arrow .left, arrow .up, arrow .right, arrow .down, a, b]
  code
    | arrow h => code h
    | a => 4
    | b => 5
  name
    | arrow h => name h
    | a => "A"
    | b => "B"
  words_code
    | arrow h => by cases h <;> rfl
    | a => rfl
    | b => rfl
  codes := rfl

/-- The word for a button in the text of a rule. -/
def label : Button → String
  | arrow h => h.label
  | a => "A"
  | b => "B"

end Button

/-- What a `move` command tells a sprite. -/
inductive MoveOrder
  | go (heading : Heading)
  | stop
  | uTurn
  deriving DecidableEq, Repr

namespace MoveOrder

instance : Vocabulary MoveOrder where
  words := [go .left, go .up, go .right, go .down, stop, uTurn]
  code
    | go h => code h
    | stop => 4
    | uTurn => 5
  name
    | go h => name h
    | stop => "Stop"
    | uTurn => "UTurn"
  words_code
    | go h => by cases h <;> rfl
    | stop => rfl
    | uTurn => rfl
  codes := rfl

/-- The word for an order in the text of a rule. -/
def label : MoveOrder → String
  | go h => h.label
  | stop => "stop"
  | uTurn => "u-turn"

end MoveOrder

/-- What a `sprite` command does to a sprite. -/
inductive SpriteOp
  | remove
  deriving DecidableEq, Repr

instance : Vocabulary SpriteOp where
  words := [.remove]
  code _ := 0
  name _ := "Remove"
  words_code _ := rfl
  codes := rfl

/-- What a `game` command does to the game. -/
inductive GameEvent
  | win | lose
  | score
  | nextLevel
  deriving DecidableEq, Repr

namespace GameEvent

instance : Vocabulary GameEvent where
  words := [win, lose, score, nextLevel]
  code e := .ofNat e.ctorIdx
  name
    | win => "Win"
    | lose => "Lose"
    | score => "ScoreUp10"
    | nextLevel => "NextLevel"
  words_code e := by cases e <;> rfl
  codes := rfl

/-- The word for an event in the text of a rule. -/
def label : GameEvent → String
  | win => "win"
  | lose => "lose"
  | score => "score10"
  | nextLevel => "next-level"

end GameEvent

/-- What a `spawn` command creates: a sprite of a kind, moving or at rest. The argument of a command
    has room for the first 16 kinds. -/
structure Spawn where
  kind : UInt8
  motion : Option Heading
  deriving DecidableEq, Repr

namespace Spawn

/-- A spawn of the kind given by the lowest four bits. -/
def ofKind (kind : UInt8) (motion : Option Heading) : Spawn := ⟨kind % 16, motion⟩

/-- The kind is in the lower half of the byte, the motion in the upper half; an upper half that is
    no heading stands for rest. -/
def ofByte (b : UInt8) : Spawn := ⟨b % 16, ofCode? (b / 16)⟩

/-- The upper half of the byte of a spawn. -/
def motionCode : Option Heading → UInt8
  | some h => code h
  | none => code Facing.resting

/-- The byte that stands for a spawn. -/
def byte (s : Spawn) : UInt8 := motionCode s.motion <<< 4 ||| s.kind

end Spawn

/-- An instruction and its argument. -/
structure Command where
  inst : Instruction
  arg : UInt8
  deriving DecidableEq, Repr

namespace Command

/-- The command that fills a new place in a list of commands. -/
def initial : Command := ⟨.move, 0⟩

/-- The command that gives a sprite an order. -/
def move (order : MoveOrder) : Command := ⟨.move, code order⟩

/-- The command that brings about a game event. -/
def game (event : GameEvent) : Command := ⟨.game, code event⟩

/-- The command that creates a sprite. -/
def spawn (s : Spawn) : Command := ⟨.spawn, s.byte⟩

/-- The word for the argument of a command in the text of a rule. -/
def argLabel (c : Command) : String :=
  match c.inst with
  | .move => ((ofCode? c.arg).map MoveOrder.label).getD (toString c.arg.toNat)
  | .game => ((ofCode? c.arg).map GameEvent.label).getD (toString c.arg.toNat)
  | .sprite => "remove"
  | .paint | .spawn | .portal | .block => toString c.arg.toNat

end Command
end Playfield
