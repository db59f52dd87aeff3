import Playfield.Tile
import Playfield.Vocabulary

/-!
# Headings and facings

A moving sprite has one of four headings. They run clockwise from the left, so a quarter turn is
one step in their order. A facing is what a rule asks of a sprite's motion: a heading, rest, any
motion or nothing at all. The motion of a sprite is an `Option Heading`, `none` at rest.
-/
namespace Playfield

/-- A direction of motion. -/
inductive Heading
  | left | up | right | down
  deriving DecidableEq, Repr

namespace Heading

instance : Vocabulary Heading where
  words := [left, up, right, down]
  code h := .ofNat h.ctorIdx
  name
    | left => "Left"
    | up => "Up"
    | right => "Right"
    | down => "Down"
  words_code h := by cases h <;> rfl
  codes := rfl

/-- One step in the heading. -/
def offset : Heading → Offset
  | left => ⟨-1, 0⟩
  | up => ⟨0, -1⟩
  | right => ⟨1, 0⟩
  | down => ⟨0, 1⟩

/-- The heading a number of quarter turns clockwise of the left. -/
def ofQuarters (n : Nat) : Heading :=
  match n % 4 with
  | 0 => left
  | 1 => up
  | 2 => right
  | _ => down

/-- The number of quarter turns clockwise of the left. -/
def quarters (h : Heading) : Nat := (code h).toNat

/-- The heading after quarter turns clockwise. -/
def turned (h : Heading) (n : Nat) : Heading := ofQuarters (h.quarters + n)

/-- The heading after quarter turns clockwise, counted in a byte. -/
def turn (h : Heading) (steps : UInt8) : Checked Heading :=
  return ofQuarters (← unsigned .byte (h.quarters + steps.toNat))

/-- The heading back. -/
def opposite (h : Heading) : Heading := h.turned 2

end Heading

/-- What is asked of a sprite's motion. -/
inductive Facing
  | left | up | right | down
  | resting
  | moving
  | any
  deriving DecidableEq, Repr

namespace Facing

instance : Vocabulary Facing where
  words := [left, up, right, down, resting, moving, any]
  code f := .ofNat f.ctorIdx
  name
    | left => "Left"
    | up => "Up"
    | right => "Right"
    | down => "Down"
    | resting => "Resting"
    | moving => "Moving"
    | any => "AnyDir"
  words_code f := by cases f <;> rfl
  codes := rfl

/-- The facing that asks for a heading. -/
def ofHeading : Heading → Facing
  | .left => left
  | .up => up
  | .right => right
  | .down => down

/-- The heading asked for, if one is. -/
def heading? : Facing → Option Heading
  | left => some .left
  | up => some .up
  | right => some .right
  | down => some .down
  | _ => none

/-- Whether a motion is as asked. -/
def accepts (f : Facing) (motion : Option Heading) : Bool :=
  match f with
  | any => true
  | moving => motion.isSome
  | resting => motion.isNone
  | f => motion == f.heading?

end Facing
end Playfield
