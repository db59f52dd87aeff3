import Playfield.Demands

/-!
# Settings

A guard has two sets of inclusions. Of one set every member must be present; of the other, one
present member is enough. The settings say which set is which, seed the random draws of a world and
fix what a scoring event is worth.
-/
namespace Playfield

/-- Which set of inclusions needs only one present member. -/
inductive Grouping
  | second
  | first
  deriving DecidableEq, Repr

namespace Grouping

instance : Vocabulary Grouping where
  words := [second, first]
  code g := .ofNat g.ctorIdx
  name
    | second => "Include2"
    | first => "Include"
  words_code g := by cases g <;> rfl
  codes := rfl

/-- The demand of the set of which one member is enough. -/
def anyOf : Grouping → Demand
  | second => .grouped
  | first => .included

/-- The demand of the set of which every member is needed. -/
def allOf : Grouping → Demand
  | second => .included
  | first => .grouped

end Grouping

/-- How a game is run. -/
structure Settings where
  grouping : Grouping
  /-- The seed of the random draws. -/
  seed : UInt64
  /-- What a scoring event adds to the score. -/
  scoreStep : Int
  deriving DecidableEq, Repr

/-- The settings of a game that names none. -/
def Settings.standard : Settings := ⟨.second, 0, 10⟩

end Playfield
