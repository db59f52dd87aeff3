import Playfield.View

/-!
# Edits through a view

What is written through a view is mapped back through the inverse transform, so that it is read
back as it was written and lands on the stored clause that the view shows. Each edit answers with
a value and the view of the edited rule; an edit that is refused answers `none` and changes
nothing.
-/
namespace Playfield.View

/-- The transform that takes what is seen to what is stored. -/
def back (v : View) : Option Transform := v.transform.map Transform.inverse

/-- The view with one stored clause changed. -/
def modifyClause (v : View) (i : Nat) (f : Clause → Clause) : View :=
  { v with rule := { v.rule with clauses := v.rule.clauses.modify i f } }

/-- Sets the symmetry of the rule. -/
def setSymmetry (v : View) (s : Symmetry) : View := { v with rule := { v.rule with symmetry := s } }

/-- Sets the trigger of the rule. The stored argument stays. -/
def setTrigger (v : View) (t : Trigger) : View := { v with rule := { v.rule with trigger := t } }

/-- Sets the argument of the rule. -/
def setArg (v : View) (arg : UInt8) : View :=
  let stored :=
    match v.back, v.rule.trigger with
    | some t, .button => t.onByte arg
    | _, _ => arg
  { v with rule := { v.rule with arg := stored } }

/-- The view with a stored clause added at the end. -/
def addClause (v : View) (c : Clause) : View :=
  { v with rule := { v.rule with clauses := v.rule.clauses ++ [c] } }

/-- The place of the clause at a cell, which is made if there is none. It is not made outside the
    window or when the rule is full. -/
def makeClause (v : View) (c : Cell) : Checked (Option Nat × View) :=
  if c.inWindow then do
    match ← v.clauseAt c with
    | some i => return (some i, v)
    | none =>
      if v.rule.clauses.length < Rule.maxClauses then
        let clause ← Clause.blank (← v.storedCell c) v.kinds
        return (some v.rule.clauses.length, v.addClause clause)
      else return (none, v)
  else return (none, v)

/-- Sets the demand on a background kind; answers with the former one. -/
def setBackground (v : View) (i kind : Nat) (d : Demand) : Option Demand × View :=
  (v.background? i kind, v.modifyClause i fun c => { c with backgrounds := c.backgrounds.put kind d })

/-- Sets the demand on a sprite kind; answers with the former one. -/
def setSprite (v : View) (i kind : Nat) (d : Demand) : Option Demand × View :=
  (v.sprite? i kind, v.modifyClause i fun c => { c with sprites := c.sprites.put kind d })

/-- Sets the facing of a clause. -/
def setFacing (v : View) (i : Nat) (f : Facing) : Option Facing × View :=
  ((v.clause? i).map fun _ => f,
    v.modifyClause i fun c => { c with facing := Transform.facingThrough v.back f })

/-- The commands with a place `j`: a new command is added if `j` is the next place and is one of
    the four. -/
def withPlace (commands : List Command) (j : Nat) : List Command :=
  if j = commands.length ∧ j < Clause.maxCommands then commands ++ [.initial] else commands

/-- Changes the command at a place, which may be the next one; answers whether there is one. -/
def modifyCommand (v : View) (i j : Nat) (f : Command → Command) : Bool × View :=
  match v.clause? i with
  | some c =>
    let places := withPlace c.commands j
    if j < places.length then (true, v.modifyClause i fun c => { c with commands := places.modify j f })
    else (false, v)
  | none => (false, v)

/-- Sets the instruction of a command. The stored argument stays. -/
def setInstruction (v : View) (i j : Nat) (inst : Instruction) : Option Instruction × View :=
  let (found, after) := v.modifyCommand i j fun k => { k with inst := inst }
  (if found then some inst else none, after)

/-- Sets the argument of a command, which is mapped back as its instruction asks. -/
def setCommandArg (v : View) (i j : Nat) (arg : UInt8) : Option UInt8 × View :=
  let stored (inst : Instruction) : UInt8 :=
    match v.back with
    | some t => t.onArg inst arg
    | none => arg
  let (found, after) := v.modifyCommand i j fun k => { k with arg := stored k.inst }
  (if found then some arg else none, after)

/-- Removes a command; answers with the number of commands left. -/
def removeCommand (v : View) (i j : Nat) : Nat × View :=
  let after := v.modifyClause i fun c => { c with commands := c.commands.eraseIdx j }
  (after.commandCount i, after)

end Playfield.View
