import Playfield.Cell
import Playfield.Command

/-!
# Transforms

A transform flips or turns the window about its centre, and with it every heading that a rule
mentions. Rows grow downward, so a quarter turn to the left takes the cell on the right to the one
above, and a heading to the right to one upward. A symmetry says which transforms of a rule hold
beside the rule itself.
-/
namespace Playfield

/-- A flip or turn of the window other than the identity. -/
inductive Transform
  /-- Left and right change places. -/
  | flipColumns
  /-- Up and down change places. -/
  | flipRows
  /-- A quarter turn to the left. -/
  | quarterLeft
  /-- A half turn. -/
  | halfTurn
  /-- A quarter turn to the right. -/
  | quarterRight
  deriving DecidableEq, Repr

namespace Transform

instance : Vocabulary Transform where
  words := [flipColumns, flipRows, quarterLeft, halfTurn, quarterRight]
  code t := .ofNat t.ctorIdx
  name
    | flipColumns => "HorzMirror"
    | flipRows => "VertMirror"
    | quarterLeft => "LeftRotate"
    | halfTurn => "DoubleRotate"
    | quarterRight => "RightRotate"
  words_code t := by cases t <;> rfl
  codes := rfl

/-- The transform that undoes a transform. -/
def inverse : Transform → Transform
  | quarterLeft => quarterRight
  | quarterRight => quarterLeft
  | t => t

/-- Where an offset goes. -/
def onOffset (t : Transform) (o : Offset) : Offset :=
  match t with
  | flipColumns => ⟨-o.dx, o.dy⟩
  | flipRows => ⟨o.dx, -o.dy⟩
  | quarterLeft => ⟨o.dy, -o.dx⟩
  | halfTurn => ⟨-o.dx, -o.dy⟩
  | quarterRight => ⟨-o.dy, o.dx⟩

/-- Where a cell of the window goes. A cell outside the window must not be asked about. -/
def onCell (t : Transform) (c : Cell) : Checked Cell :=
  if c.inWindow then .ok (.ofOffset (t.onOffset c.offset)) else .error (.outsideWindow c.col c.row)

/-- Where a heading goes. -/
def onHeading (t : Transform) (h : Heading) : Heading :=
  match t with
  | flipColumns =>
    match h with
    | .left => .right
    | .right => .left
    | h => h
  | flipRows =>
    match h with
    | .up => .down
    | .down => .up
    | h => h
  | quarterLeft => h.turned 3
  | halfTurn => h.turned 2
  | quarterRight => h.turned 1

/-- Where a facing goes; one that asks for no heading stays. -/
def onFacing (t : Transform) (f : Facing) : Facing :=
  match f.heading? with
  | some h => .ofHeading (t.onHeading h)
  | none => f

/-- Where a byte goes that codes a heading; any other byte stays. -/
def onByte (t : Transform) (b : UInt8) : UInt8 :=
  match (ofCode? b : Option Heading) with
  | some h => code (t.onHeading h)
  | none => b

/-- Where a button goes; only the arrows move. -/
def onButton (t : Transform) : Button → Button
  | .arrow h => .arrow (t.onHeading h)
  | other => other

/-- Where an order goes. -/
def onOrder (t : Transform) : MoveOrder → MoveOrder
  | .go h => .go (t.onHeading h)
  | other => other

/-- Where the argument of a command goes: the heading in it is mapped, the rest stays. -/
def onArg (t : Transform) (inst : Instruction) (arg : UInt8) : UInt8 :=
  match inst with
  | .move => t.onByte arg
  | .spawn =>
    match (Spawn.ofByte arg).motion with
    | some h => (Spawn.ofKind (Spawn.ofByte arg).kind (some (t.onHeading h))).byte
    | none => arg
  | _ => arg

/-- A cell seen through a transform, or as it is. -/
def cellThrough (t : Option Transform) (c : Cell) : Checked Cell :=
  match t with
  | some t => t.onCell c
  | none => .ok c

/-- A facing seen through a transform, or as it is. -/
def facingThrough (t : Option Transform) (f : Facing) : Facing :=
  match t with
  | some t => t.onFacing f
  | none => f

@[simp] theorem inverse_inverse (t : Transform) : t.inverse.inverse = t := by
  cases t <;> rfl

@[simp] theorem onOffset_inverse (t : Transform) (o : Offset) : t.inverse.onOffset (t.onOffset o) = o := by
  cases t <;> simp [inverse, onOffset]

@[simp] theorem onHeading_inverse (t : Transform) (h : Heading) :
    t.inverse.onHeading (t.onHeading h) = h := by
  cases t <;> cases h <;> rfl

/-- A transform turns the step in a heading as it turns the heading. -/
theorem offset_onHeading (t : Transform) (h : Heading) : (t.onHeading h).offset = t.onOffset h.offset := by
  cases t <;> cases h <;> rfl

end Transform

/-- The transforms under which a rule holds beside itself. -/
inductive Symmetry
  | none
  /-- One transform. -/
  | one (t : Transform)
  /-- All three turns. -/
  | turns
  deriving DecidableEq, Repr

namespace Symmetry

instance : Vocabulary Symmetry where
  words := [none, one .flipColumns, one .flipRows, one .quarterLeft, one .halfTurn, one .quarterRight, turns]
  code
    | none => 0
    | one t => code t + 1
    | turns => 6
  name
    | none => "None"
    | one t => name t
    | turns => "Rotate3Way"
  words_code
    | none => rfl
    | one t => by cases t <;> rfl
    | turns => rfl
  codes := rfl

/-- The transforms that a symmetry stands for, in the order in which they are tried. -/
def transforms : Symmetry → List Transform
  | none => []
  | one t => [t]
  | turns => [.quarterLeft, .halfTurn, .quarterRight]

end Symmetry
end Playfield
