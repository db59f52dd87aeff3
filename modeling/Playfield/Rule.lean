import Playfield.Kinds
import Playfield.RawDemands
import Playfield.Transform

/-!
# Rules

A rule is a trigger and a list of clauses. A clause sits at one cell of the window and pairs a
guard (demands on the backgrounds and sprites there, and a facing) with commands to run when the
whole rule matches. An authored rule has at most 15 clauses of at most four commands, no two at
one cell; a rule that breaks this is legal, but cannot be packed.
-/
namespace Playfield

/-- What makes a rule a candidate for a sprite. -/
inductive Trigger
  /-- A button was pressed. -/
  | button
  /-- The surroundings, or the sprite's own motion, match. -/
  | change
  /-- The sprite is about to enter an occupied tile. -/
  | collision
  /-- The pattern must never occur. -/
  | negation
  deriving DecidableEq, Repr

namespace Trigger

instance : Vocabulary Trigger where
  words := [button, change, collision, negation]
  code t := .ofNat t.ctorIdx
  name
    | button => "ButtonPress"
    | change => "ContextChange"
    | collision => "Collision"
    | negation => "NegationCheck"
  words_code t := by cases t <;> rfl
  codes := rfl

/-- The word for a trigger in the text of a rule. -/
def label : Trigger → String
  | button => "press"
  | change => "change"
  | collision => "collide"
  | negation => "negate"

end Trigger

/-- Guarded commands at one cell. What is authored has well-formed tables of demands. -/
structure Clause (δ : Type := Demands) where
  cell : Cell
  backgrounds : δ
  sprites : δ
  facing : Facing
  commands : List Command
  deriving DecidableEq, Repr

namespace Clause

variable {δ : Type} [Packed δ]

/-- The most commands that the editor puts into a clause. -/
def maxCommands : Nat := 4

/-- The bytes of the demands of a clause can be counted. -/
def checkKinds (kinds : Kinds) : Checked Unit := do
  let _ ← Demands.checkedLength kinds.backgrounds
  let _ ← Demands.checkedLength kinds.sprites

/-- A clause that asks for nothing and does nothing. -/
def blank (cell : Cell) (kinds : Kinds) : Checked Clause := do
  let backgrounds ← Demands.blank kinds.backgrounds
  let sprites ← Demands.blank kinds.sprites
  return ⟨cell, backgrounds, sprites, .any, []⟩

/-- Whether the guard asks for nothing. -/
def isVacuous (c : Clause δ) : Bool := Packed.isVacuous c.backgrounds && Packed.isVacuous c.sprites

/-- Whether the clause asks for nothing and does nothing. -/
def isIdle (c : Clause δ) : Bool := c.isVacuous && c.commands.isEmpty

/-- Whether the guard makes demands on exactly as many kinds as there are. -/
def fits (c : Clause δ) (kinds : Kinds) : Bool :=
  Packed.len c.backgrounds == kinds.backgrounds && Packed.len c.sprites == kinds.sprites

/-- The number of kinds of which the guard asks something. -/
def demandCount (c : Clause) : Nat := c.backgrounds.constrained + c.sprites.constrained

/-- The sprite kind that the clause announces as its witness: the first one included, unless a
    background is included too. -/
def witnessKind (c : Clause) : Option Nat :=
  if c.backgrounds.kindsWith .included = [] then (c.sprites.kindsWith .included).head? else none

end Clause

/-- A rule of a game. -/
structure Rule (δ : Type := Demands) where
  trigger : Trigger
  /-- The code of the button of a `button` rule, otherwise without meaning. -/
  arg : UInt8
  clauses : List (Clause δ)
  symmetry : Symmetry
  deriving DecidableEq, Repr

namespace Rule

variable {δ : Type}

/-- The most clauses that a rule may have. -/
def maxClauses : Nat := 15

/-- A rule without clauses. -/
def blank (trigger : Trigger) (arg : UInt8) : Rule := ⟨trigger, arg, [], .none⟩

/-- The place of the first clause at a cell. -/
def find? (r : Rule δ) (cell : Cell) : Option Nat := r.clauses.findIdx? fun c => c.cell == cell

/-- Whether the clauses of the inner 3×3 ask for nothing. -/
def isVacuous [Packed δ] (r : Rule δ) : Bool := (r.clauses.filter fun c => c.cell.isInner).all Clause.isVacuous

/-- The clauses that are not idle. -/
def busy [Packed δ] (r : Rule δ) : List (Clause δ) := r.clauses.filter fun c => !c.isIdle

end Rule
end Playfield
