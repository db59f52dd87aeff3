import Playfield.Cell

/-!
# Why a record is refused

A record that does not decode is refused as a whole, for the first reason met.
-/
namespace Playfield

/-- A field of a record that holds a code. -/
inductive RecordField
  | trigger | symmetry | facing | commandCount | instruction
  deriving DecidableEq, Repr

/-- The text of a field. -/
def RecordField.text : RecordField → String
  | trigger => "rule type"
  | symmetry => "symmetry"
  | facing => "direction"
  | commandCount => "command count"
  | instruction => "instruction"

/-- Why a record is refused. -/
inductive RecordError
  /-- The bytes end before the record does. -/
  | truncated (offset : Nat)
  /-- Bytes are left after the record. -/
  | trailing (extra : Nat)
  /-- A field holds no code of its vocabulary. -/
  | invalid (field : RecordField) (value : UInt8)
  /-- A clause lies outside the window. -/
  | cellOutside (col row : UInt8)
  /-- Two clauses lie at one cell. -/
  | duplicateClause (col row : UInt8)
  deriving DecidableEq, Repr

/-- The text of a refusal. -/
def RecordError.message : RecordError → String
  | truncated offset => s!"rule record truncated at byte {offset}"
  | trailing extra => s!"rule record has {extra} trailing bytes"
  | invalid field value => s!"invalid {field.text} value {value}"
  | cellOutside col row => s!"when-do at ({col},{row}) lies outside the 5x5 window"
  | duplicateClause col row => s!"duplicate when-do at ({col},{row})"

end Playfield
