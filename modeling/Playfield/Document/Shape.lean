import Playfield.Document
import Playfield.Fault

/-!
# Shapes of documents

A shape says which documents save the values of a type. A document of a shape has a normal form:
the one document in which the same value is saved. Two documents of a shape hold the same value
exactly when their normal forms are equal, so a document can be taken up and saved again without
knowing the type behind the shape.
-/
namespace Playfield

/-- The shape of a document. -/
inductive Shape
  /-- One of some names. -/
  | word (names : List String)
  /-- A whole number of an interval. -/
  | int (low high : Int)
  /-- Null, or a document of the shape. -/
  | option (item : Shape)
  /-- A list of documents of the shape. -/
  | list (item : Shape)
  /-- A record of the named fields. -/
  | record (fields : List (String × Shape))
  deriving Inhabited

namespace Shape

/-- A number of an unsigned word. -/
def unsigned (w : Word) : Shape := int 0 (w.size - 1)

/-- A number of a signed word. -/
def signed (w : Word) : Shape := int (-w.reach) (w.reach - 1)

/-- A byte. -/
def byte : Shape := unsigned .byte

/-- A count or an index. -/
def count : Shape := unsigned .full

mutual

/-- The normal form of a document of the shape; `none` for other documents. A name may be given as a
    record of one null field. -/
def normalise? : Shape → Document → Option Document
  | word names, .text s => if s ∈ names then some (.text s) else none
  | word names, .record [(s, .null)] => if s ∈ names then some (.text s) else none
  | int low high, .int z => if low ≤ z ∧ z ≤ high then some (.int z) else none
  | option _, .null => some .null
  | option item, d => item.normalise? d
  | list item, .list ds => .list <$> ds.mapM item.normalise?
  | record fields, d => do
    .record <$> normaliseFields? fields (← d.fields? (fields.map Prod.fst))
  | _, _ => none

/-- The normal forms of the fields of a record, by their names. -/
def normaliseFields? : List (String × Shape) → List Document → Option (List (String × Document))
  | field :: fields, d :: ds => return (← normaliseField? field d) :: (← normaliseFields? fields ds)
  | _, _ => some []

/-- The normal form of one field of a record, by its name. -/
def normaliseField? : String × Shape → Document → Option (String × Document)
  | (name, shape), d => (name, ·) <$> shape.normalise? d

end

end Shape
end Playfield
