import Playfield.Document.Shape
import Playfield.Project
import Playfield.World

/-!
# Saved values

How the values of the library are saved in documents. The shape of a type holds every document that
its values are saved in; it says nothing of how the parts of a value fit together. The documents of
the shape of demands are so the raw demands, of which the well-formed ones are only some.
-/
namespace Playfield

/-- A type whose values are saved in documents. -/
class Savable (α : Type) where
  /-- The shape of the documents. -/
  shape : Shape
  /-- The document in which a value is saved. -/
  save : α → Document

export Savable (save)

namespace Savable

variable {α : Type}

/-- A word is saved by its name. -/
instance (priority := low) [Vocabulary α] : Savable α where
  shape := .word ((Vocabulary.words : List α).map name)
  save a := .text (name a)

instance [Savable α] : Savable (Option α) where
  shape := .option (shape α)
  save := .optional save

instance [Savable α] : Savable (List α) where
  shape := .list (shape α)
  save as := .list (as.map save)

instance : Savable UInt8 where
  shape := .byte
  save b := .int b.toNat

instance : Savable RuleId where
  shape := .unsigned .half
  save id := .int id.raw

instance : Savable SpriteId where
  shape := .unsigned .half
  save id := .int id.raw

instance : Savable Cell where
  shape := .record [("col", .byte), ("row", .byte)]
  save c := .record [("col", save c.col), ("row", save c.row)]

instance : Savable RawDemands where
  shape := .record [("len", .count), ("bytes", shape (List UInt8))]
  save d := .record [("len", .int d.len), ("bytes", save d.bytes)]

instance : Savable Demands where
  shape := shape RawDemands
  save d := save d.raw

instance : Savable Command where
  shape := .record [("inst", shape Instruction), ("arg", .byte)]
  save c := .record [("inst", save c.inst), ("arg", save c.arg)]

instance : Savable Spawn where
  shape := .record [("kind", .byte), ("motion", shape (Option Heading))]
  save s := .record [("kind", save s.kind), ("motion", save s.motion)]

instance {δ : Type} [Savable δ] : Savable (Clause δ) where
  shape := .record [("coord", shape Cell), ("background", shape δ), ("sprites", shape δ),
    ("direction", shape Facing), ("commands", shape (List Command))]
  save c := .record [("coord", save c.cell), ("background", save c.backgrounds), ("sprites", save c.sprites),
    ("direction", save c.facing), ("commands", save c.commands)]

instance {δ : Type} [Savable δ] : Savable (Rule δ) where
  shape := .record [("rule_type", shape Trigger), ("rule_arg", .byte), ("when_dos", shape (List (Clause δ))),
    ("symmetry", shape Symmetry)]
  save r := .record [("rule_type", save r.trigger), ("rule_arg", save r.arg), ("when_dos", save r.clauses),
    ("symmetry", save r.symmetry)]

instance : Savable Kinds where
  shape := .record [("backgrounds", .count), ("sprites", .count)]
  save k := .record [("backgrounds", .int k.backgrounds), ("sprites", .int k.sprites)]

instance : Savable ProjectConfig where
  shape := .record [("kinds", shape Kinds), ("player", .option .count)]
  save c := .record [("kinds", save c.kinds), ("player", .optional (fun kind : Nat => .int kind) c.player)]

instance : Savable Settings where
  shape := .record [("alternate_inclusion", shape Grouping), ("seed", .count), ("score_step", .signed .full)]
  save s := .record [("alternate_inclusion", save s.grouping), ("seed", .int s.seed.toNat),
    ("score_step", .int s.scoreStep)]

instance : Savable Sprite where
  shape := .record [("id", shape SpriteId), ("kind", .count), ("col", .signed .half), ("row", .signed .half),
    ("motion", shape (Option Heading))]
  save s := .record [("id", save s.id), ("kind", .int s.kind), ("col", .int s.tile.col), ("row", .int s.tile.row),
    ("motion", save s.motion)]

end Savable
end Playfield
