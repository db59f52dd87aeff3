import Playfield.View

/-!
# The text of a view

A view is written out in lines: the id, the trigger with its button, and for each clause its cell,
its demands and its commands.
-/
namespace Playfield.View

/-- The line of a clause for one demand: the background kinds, then the sprite kinds. -/
def demandLine (c : Clause) (d : Demand) : String :=
  let backgrounds := (c.backgrounds.kindsWith d).map fun k => s!"b{k}"
  let sprites := (c.sprites.kindsWith d).map fun k => s!"s{k}"
  s!"{d.label}:" ++ String.intercalate ":" (backgrounds ++ sprites)

/-- The line of a command. -/
def commandLine (c : Command) : String := s!"cmd:{c.inst.label}:{c.argLabel}"

/-- The lines of a clause. -/
def clauseLines (v : View) (c : Clause) : Checked (List String) := do
  let cell ← Transform.cellThrough v.transform c.cell
  let demands := [Demand.included, .grouped, .excluded].map (demandLine c)
  return s!"tile:{cell.col}:{cell.row}" :: demands ++ c.commands.map fun k => commandLine (v.shown k)

/-- The line of the id. -/
def idLine (v : View) : String :=
  match v.ruleId? with
  | some id => s!"id:{id.raw}"
  | none => "id:-"

/-- The line of the trigger. -/
def triggerLine (v : View) : String :=
  let button := (v.button?.map Button.label).getD "none"
  s!"rule:{v.rule.trigger.label}:{button}"

/-- The lines after the first. -/
def bodyLines (v : View) : Checked (List String) :=
  return v.triggerLine :: (← v.rule.clauses.mapM v.clauseLines).flatten

/-- The text of a view. Every line is ended. -/
def text (v : View) : Checked String :=
  return String.join ((v.idLine :: (← v.bodyLines)).map (· ++ "\n"))

end Playfield.View
