/-!
# Documents

Values are saved in documents of the common self-describing kind: nulls, truth values, numbers,
texts, lists and records.
-/
namespace Playfield

/-- A document. -/
inductive Document
  | null
  | bool (value : Bool)
  | int (value : Int)
  /-- A number that is not whole. No value is saved as one, so its digits are not kept. -/
  | fraction
  | text (value : String)
  | list (items : List Document)
  | record (fields : List (String × Document))
  deriving Inhabited

namespace Document

/-- The document of a value that may be absent: null when it is. -/
def optional {α : Type} (save : α → Document) : Option α → Document
  | some a => save a
  | none => null

/-- The field of a record; a field that is not there is null. -/
def field (name : String) : List (String × Document) → Document
  | [] => null
  | (key, value) :: rest => if key = name then value else field name rest

/-- The named fields of a record, in the order of the names. A list of as many items can stand for
    a record. -/
def fields? (names : List String) : Document → Option (List Document)
  | record fields => some (names.map fun name => field name fields)
  | list items => if items.length = names.length then some items else none
  | _ => none

end Document
end Playfield
