import Playfield.IdMap
import Playfield.Rule

/-!
# Rule books

A rule book keeps rules by id. New rules get the next id; a rule may also be put at any id that was
skipped or lies ahead. The id of a removed rule is never used again. Skipped ids take no room.
-/
namespace Playfield

/-- What a rule book has at an id. -/
inductive Slot (δ : Type := Demands)
  /-- Nothing yet; the id was skipped. -/
  | vacant
  /-- A rule. -/
  | live (rule : Rule δ)
  /-- A rule that was removed. -/
  | removed
  deriving DecidableEq, Repr

/-- The rule in a slot. -/
def Slot.rule? {δ : Type} : Slot δ → Option (Rule δ)
  | live rule => some rule
  | _ => none

/-- Rules by id. -/
structure RuleBook (δ : Type := Demands) where
  /-- The rules; `none` marks one that was removed. -/
  slots : IdMap (Option (Rule δ))
  /-- The id of the next new rule. -/
  next : Nat
  deriving DecidableEq, Repr

namespace RuleBook

variable {δ : Type}

/-- A book without rules. -/
def empty : RuleBook δ := ⟨.empty, 0⟩

/-- Whether every id has been given out. -/
def isFull (b : RuleBook δ) : Bool := RuleId.last.raw ≤ b.next

/-- Adds a rule under the next id, as long as ids are left. -/
def push (b : RuleBook δ) (rule : Rule δ) : Option (RuleId × RuleBook δ) :=
  if b.isFull then none else some (⟨b.next⟩, ⟨b.slots.insert b.next (some rule), b.next + 1⟩)

/-- Puts a rule at an id that has none and never had one. The last id is refused. -/
def insertAt (b : RuleBook δ) (id : RuleId) (rule : Rule δ) : Option (RuleBook δ) :=
  if id.raw < RuleId.last.raw ∧ !b.slots.contains id.raw then
    some ⟨b.slots.insert id.raw (some rule), max b.next (id.raw + 1)⟩
  else none

/-- The rule of an id. -/
def get? (b : RuleBook δ) (id : RuleId) : Option (Rule δ) := (b.slots.get? id.raw).join

/-- Replaces the rule of an id, if it has one. -/
def set (b : RuleBook δ) (id : RuleId) (rule : Rule δ) : RuleBook δ :=
  { b with slots := b.slots.modify id.raw fun slot => slot.map fun _ => rule }

/-- Removes a rule; answers with the rule. -/
def remove (b : RuleBook δ) (id : RuleId) : Option (Rule δ) × RuleBook δ :=
  match b.get? id with
  | some rule => (some rule, { b with slots := b.slots.insert id.raw none })
  | none => (none, b)

/-- What the book has at an id; `none` past its last id. -/
def slot? (b : RuleBook δ) (id : RuleId) : Option (Slot δ) :=
  match b.slots.get? id.raw with
  | some (some rule) => some (.live rule)
  | some none => some .removed
  | none => if id.raw < b.next then some .vacant else none

/-- The rules with their ids, ascending. -/
def toList (b : RuleBook δ) : List (RuleId × Rule δ) :=
  b.slots.entries.filterMap fun e => e.2.map fun rule => (⟨e.1⟩, rule)

/-- The number of rules. -/
def size (b : RuleBook δ) : Nat := b.toList.length

end RuleBook
end Playfield
