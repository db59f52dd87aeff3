import Playfield.Rule

/-!
# Views of a rule

A view shows a stored rule as it is or through a transform. Nothing is copied: the cells, facings,
buttons and headings are mapped on every look, and what is looked up in the window is looked up in
the stored rule through the inverse transform. Clauses are named by their place in the rule, which
is the same in every view.
-/
namespace Playfield

/-- A rule as seen through a transform, or as it is. -/
structure View (δ : Type := Demands) where
  rule : Rule δ
  /-- The id of the rule, if it is known. -/
  id : Option RuleId
  transform : Option Transform
  /-- The kind counts for which clauses are made. -/
  kinds : Kinds
  deriving DecidableEq, Repr

/-- Counts over the inner 3×3 of a rule. -/
structure Stats where
  clauses : Nat
  commands : Nat
  demands : Nat
  deriving DecidableEq, Repr

namespace View

variable {δ : Type}

/-- A stored rule as it is. -/
def base (rule : Rule δ) (id : RuleId) (kinds : Kinds) : View δ := ⟨rule, some id, none, kinds⟩

/-- A rule seen through a transform, without an id. -/
def through (rule : Rule δ) (t : Transform) (kinds : Kinds) : View δ := ⟨rule, none, some t, kinds⟩

/-- The id of the rule that is shown as it is. What a transform shows has no id of its own. -/
def ruleId? (v : View δ) : Option RuleId :=
  match v.transform with
  | none => v.id
  | some _ => none

/-- The views of the rule that its symmetry adds. -/
def derived (v : View δ) : List (View δ) :=
  v.rule.symmetry.transforms.map fun t => { v with transform := some t }

/-- The rule as it is, followed by the views that its symmetry adds. -/
def all (v : View δ) : List (View δ) := { v with transform := none } :: v.derived

/-- The cell at which the stored rule keeps what the view shows at a cell of the window. -/
def storedCell (v : View δ) (c : Cell) : Checked Cell :=
  Transform.cellThrough (v.transform.map Transform.inverse) c

/-- The argument of the rule; that of a `button` rule is mapped. -/
def arg (v : View δ) : UInt8 :=
  match v.transform, v.rule.trigger with
  | some t, .button => t.onByte v.rule.arg
  | _, _ => v.rule.arg

/-- The button of a `button` rule. -/
def button? (v : View δ) : Option Button :=
  match v.rule.trigger with
  | .button => ofCode? v.arg
  | _ => none

/-- The place of the clause shown at a cell; none is shown outside the window. -/
def clauseAt (v : View δ) (c : Cell) : Checked (Option Nat) :=
  if c.inWindow then return v.rule.find? (← v.storedCell c) else return none

/-- The stored clause at a place. -/
def clause? (v : View δ) (i : Nat) : Option (Clause δ) := v.rule.clauses[i]?

/-- The cell at which a clause is shown. -/
def cellOf (v : View δ) (i : Nat) : Checked (Option Cell) :=
  match v.clause? i with
  | some c => return some (← Transform.cellThrough v.transform c.cell)
  | none => return none

/-- The demand of a clause on a background kind. -/
def background? (v : View) (i kind : Nat) : Option Demand :=
  (v.clause? i).bind fun c => c.backgrounds.get? kind

/-- The demand of a clause on a sprite kind. -/
def sprite? (v : View) (i kind : Nat) : Option Demand :=
  (v.clause? i).bind fun c => c.sprites.get? kind

/-- The number of background kinds on which a clause makes demands. -/
def backgroundCount (v : View) (i : Nat) : Nat := ((v.clause? i).map fun c => c.backgrounds.len).getD 0

/-- The number of sprite kinds on which a clause makes demands. -/
def spriteCount (v : View) (i : Nat) : Nat := ((v.clause? i).map fun c => c.sprites.len).getD 0

/-- The number of kinds of which a clause asks something. -/
def demandCount (v : View) (i : Nat) : Nat := ((v.clause? i).map Clause.demandCount).getD 0

/-- The facing that a clause asks for. -/
def facingOf (v : View δ) (i : Nat) : Option Facing :=
  (v.clause? i).map fun c => Transform.facingThrough v.transform c.facing

/-- A command as it is seen. -/
def shown (v : View δ) (c : Command) : Command :=
  match v.transform with
  | some t => { c with arg := t.onArg c.inst c.arg }
  | none => c

/-- The commands of a clause; none if there is no such clause. -/
def commands (v : View δ) (i : Nat) : List Command :=
  ((v.clause? i).map fun c => c.commands.map v.shown).getD []

/-- The command of a clause at a place. -/
def command? (v : View δ) (i j : Nat) : Option Command := (v.commands i)[j]?

/-- The number of commands of a clause. -/
def commandCount (v : View δ) (i : Nat) : Nat := (v.commands i).length

/-- The clause shown at the centre. -/
def centre? (v : View δ) : Checked (Option (Clause δ)) := return (← v.clauseAt .centre).bind v.clause?

/-- The facing that the centre asks for. -/
def centreFacing (v : View δ) : Checked Facing :=
  return ((← v.clauseAt .centre).bind v.facingOf).getD .any

/-- The facing that the rule as a whole asks of a sprite: that of the centre, or that of the arrow
    that was pressed. -/
def facing (v : View δ) : Checked Facing :=
  match v.rule.trigger with
  | .collision | .change => v.centreFacing
  | .button =>
    match v.button? with
    | some (.arrow h) => return .ofHeading h
    | _ => return .any
  | .negation => return .any

/-- The sprite kind that is witnessed at a cell. The editor shows no witness for the pattern of a
    `negation` rule. -/
def witnessKind (v : View) (c : Cell) (editor : Bool) : Checked (Option Nat) :=
  if editor && v.rule.trigger == .negation then return none
  else return ((← v.clauseAt c).bind v.clause?).bind Clause.witnessKind

/-- The sprite kinds that the centre includes. -/
def spriteKinds (v : View) : Checked (List Nat) :=
  return ((← v.centre?).map fun c => c.sprites.includedKinds).getD []

/-- Whether the centre includes a sprite kind. -/
def hasSpriteKind (v : View) (kind : Nat) : Checked Bool :=
  return ((← v.clauseAt .centre).bind fun i => v.sprite? i kind).any Demand.includes

/-- Whether a clause asks for nothing. -/
def clauseVacuous (v : View) (i : Nat) : Bool := (v.clause? i).all Clause.isVacuous

/-- Whether the inner 3×3 asks for nothing. -/
def isVacuous (v : View) : Bool := v.rule.isVacuous

/-- The counts with those of the clause at a cell added. -/
def addStats (v : View) (s : Stats) (c : Cell) : Checked Stats := do
  match ← v.clauseAt c with
  | some i => return ⟨s.clauses + 1, s.commands + v.commandCount i, s.demands + v.demandCount i⟩
  | none => return s

/-- The counts of clauses, commands and demands shown in the inner 3×3. -/
def stats (v : View) : Checked Stats := Cell.inner.foldlM v.addStats ⟨0, 0, 0⟩

end View
end Playfield
