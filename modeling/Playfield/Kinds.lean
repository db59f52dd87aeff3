import Playfield.Fault

/-!
# Kinds and identities

A project has kinds of backgrounds and kinds of sprites, each numbered from 0. Rules and sprites
are named by ids that are given out in ascending order and never given out twice.
-/
namespace Playfield

/-- The number of background kinds and of sprite kinds of a project. -/
structure Kinds where
  backgrounds : Nat
  sprites : Nat
  deriving DecidableEq, Repr

/-- The number of kinds in all. -/
def Kinds.total (k : Kinds) : Checked Nat := unsigned .full (k.backgrounds + k.sprites)

/-- The identity of a rule in a project. -/
structure RuleId where
  raw : Nat
  deriving DecidableEq, Repr

namespace RuleId

/-- The last id; no rule ever has it. -/
def last : RuleId := ⟨4294967295⟩

/-- The text of a rule's id. -/
def text (r : RuleId) : String := s!"Rule({r.raw})"

end RuleId

/-- The identity of a sprite on the board. -/
structure SpriteId where
  raw : Nat
  deriving DecidableEq, Repr

/-- The text of a sprite's id. -/
def SpriteId.text (s : SpriteId) : String := s!"Sprite({s.raw})"

end Playfield
