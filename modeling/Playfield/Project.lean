import Playfield.Record
import Playfield.RuleBook
import Playfield.View

/-!
# Projects

A project is the kind counts of a game and its rules. Rules are authored here, edited through views,
and exported and imported as packed records.
-/
namespace Playfield

/-- What is fixed of a project. -/
structure ProjectConfig where
  kinds : Kinds
  /-- The sprite kind that the controller drives. -/
  player : Option Nat
  deriving DecidableEq, Repr

/-- Why a project does not take a rule. -/
inductive ProjectError
  /-- The id has a rule or had one. -/
  | idInUse (id : RuleId)
  /-- The id is the last one. -/
  | idOutOfRange (id : RuleId)
  /-- Every id has been given out. -/
  | idsExhausted
  /-- The record of the rule was refused. -/
  | badRecord (id : RuleId) (source : RecordError)
  deriving DecidableEq, Repr

namespace ProjectError

/-- The text of a refusal. -/
def message : ProjectError → String
  | idInUse id => s!"{id.text} is already in use"
  | idOutOfRange id => s!"{id.text} is out of range"
  | idsExhausted => "no rule ids left"
  | badRecord id source => s!"failed to decode {id.text}: {source.message}"

/-- The refusal that led to this one. -/
def source? : ProjectError → Option RecordError
  | badRecord _ source => some source
  | _ => none

end ProjectError

/-- The kind counts and rules of a game. -/
structure Project (δ : Type := Demands) where
  config : ProjectConfig
  rules : RuleBook δ
  deriving DecidableEq, Repr

namespace Project

variable {δ : Type}

/-- A project without rules. -/
def new (config : ProjectConfig) : Project := ⟨config, .empty⟩

/-- The kind counts. -/
def kinds (p : Project δ) : Kinds := p.config.kinds

/-- The sprite kind that the controller drives. -/
def player (p : Project δ) : Option Nat := p.config.player

/-- Sets the sprite kind that the controller drives. -/
def setPlayer (p : Project δ) (kind : Option Nat) : Project δ :=
  { p with config := { p.config with player := kind } }

/-- Adds a rule under the next id. -/
def addRule (p : Project δ) (rule : Rule δ) : Except ProjectError (RuleId × Project δ) :=
  match p.rules.push rule with
  | some (id, rules) => .ok (id, { p with rules := rules })
  | none => .error .idsExhausted

/-- A rule for a sprite kind: its centre includes the kind. Of a `button` rule the byte is the
    argument, of any other the facing of the centre; a byte that codes no facing asks for any. -/
def draft (p : Project) (kind : Nat) (trigger : Trigger) (byte : UInt8) : Checked Rule := do
  let blank ← Clause.blank .centre p.kinds
  let centre := { blank with sprites := blank.sprites.put kind .included }
  match trigger with
  | .button => return ⟨trigger, byte, [centre], .none⟩
  | _ => return ⟨trigger, 0, [{ centre with facing := (ofCode? byte).getD .any }], .none⟩

/-- Adds a rule for a sprite kind. Nothing is drafted once every id has been given out. -/
def makeRule (p : Project) (kind : Nat) (trigger : Trigger) (byte : UInt8) :
    Except (Failure ProjectError) (RuleId × Project) := do
  Clause.checkKinds p.kinds
  if p.rules.isFull then throw (.refused .idsExhausted)
  else
    let rule ← p.draft kind trigger byte
    (p.addRule rule).mapError .refused

/-- The rule of an id. -/
def rule? (p : Project δ) (id : RuleId) : Option (Rule δ) := p.rules.get? id

/-- Whether an id has a rule. -/
def contains (p : Project δ) (id : RuleId) : Bool := (p.rule? id).isSome

/-- Replaces the rule of an id, if it has one. -/
def setRule (p : Project δ) (id : RuleId) (rule : Rule δ) : Project δ := { p with rules := p.rules.set id rule }

/-- The view that shows a rule as it is. -/
def view? (p : Project) (id : RuleId) : Option View := (p.rule? id).map fun rule => .base rule id p.kinds

/-- Removes a rule; answers with the rule. -/
def removeRule (p : Project δ) (id : RuleId) : Option (Rule δ) × Project δ :=
  ((p.rules.remove id).1, { p with rules := (p.rules.remove id).2 })

/-- The ids that have a rule, ascending. -/
def ruleIds (p : Project δ) : List RuleId := p.rules.toList.map (·.1)

/-- The views that show the rules as they are, by ascending id. -/
def views (p : Project δ) : List (View δ) := p.rules.toList.map fun e => .base e.2 e.1 p.kinds

/-- The rules whose centre includes a sprite kind. -/
def rulesForSpriteKind (p : Project) (kind : Nat) : Checked (List RuleId) :=
  return (← p.views.filterM fun v => v.hasSpriteKind kind).filterMap View.ruleId?

/-- The record of every rule, by ascending id. -/
def exportRules [Packed δ] (p : Project δ) : Checked (List (RuleId × List UInt8)) :=
  p.rules.toList.mapM fun e => return (e.1, ← Record.encode e.2 p.kinds)

/-- The refusals of a record for an id. -/
def refuseRecord (id : RuleId) : Failure RecordError → Failure ProjectError
  | .fault cause => .fault cause
  | .refused reason => .refused (.badRecord id reason)

/-- Puts the rule of a record at an id. -/
def importRule (p : Project) (id : RuleId) (bytes : List UInt8) : Except (Failure ProjectError) Project :=
  if RuleId.last.raw ≤ id.raw then throw (.refused (.idOutOfRange id))
  else do
    let rule ← (Record.decode bytes p.kinds).mapError (refuseRecord id)
    match p.rules.insertAt id rule with
    | some rules => return { p with rules := rules }
    | none => throw (.refused (.idInUse id))

end Project
end Playfield
