import Playfield.Tick

/-!
# Matching as it is reckoned

To match a phase, cells are subtracted and mirrored in bytes, headings are turned in bytes, offsets are added to tiles in
signed words, and the demand of a kind and the background of a tile are looked up by their places. Here every result must fit
its word and everything that is looked up must be there, and the tables of demands may be well formed or not. Where nothing is
amiss this is the matching of `Session.matchPhase`, which leaves these checks out.
-/
namespace Playfield

/-- A difference in an unsigned word. -/
def difference (a b : Nat) : Checked Nat := if b ≤ a then .ok (a - b) else .error .overflow

namespace Cell

/-- The way from the centre to the cell, in signed words. -/
def reckonOffset (c : Cell) : Checked Offset :=
  return ⟨← signed .half (c.col.toNat - 2), ← signed .half (c.row.toNat - 2)⟩

/-- The cells that a rule guards, told by their distance in bytes. -/
def reckonNeighbourhood : Checked (List Cell) :=
  window.filterM fun c => return (← c.byteDistance) ≤ 2 && c != centre

end Cell

namespace Transform

/-- Where a cell of the window goes. A flip counts the column or row from the other end, a turn takes the offset from the
    centre. -/
def reckonCell (t : Transform) (c : Cell) : Checked Cell :=
  if c.inWindow then
    match t with
    | flipColumns => return ⟨.ofNat (← difference (Cell.side - 1) c.col.toNat), c.row⟩
    | flipRows => return ⟨c.col, .ofNat (← difference (Cell.side - 1) c.row.toNat)⟩
    | t => do
      let o := t.onOffset (← c.reckonOffset)
      let dx ← signed .half o.dx
      let dy ← signed .half o.dy
      return ⟨.ofInt (← signed .half (dx + 2)), .ofInt (← signed .half (dy + 2))⟩
  else throw (.outsideWindow c.col c.row)

/-- Where a heading goes. A turn counts its quarters in a byte. -/
def reckonHeading (t : Transform) (h : Heading) : Checked Heading :=
  match t with
  | quarterLeft => h.turn 3
  | halfTurn => h.turn 2
  | quarterRight => h.turn 1
  | t => return t.onHeading h

/-- Where a facing goes; one that asks for no heading stays. -/
def reckonFacing (t : Transform) (f : Facing) : Checked Facing :=
  match f.heading? with
  | some h => return .ofHeading (← t.reckonHeading h)
  | none => return f

/-- Where a byte goes that codes a heading; any other byte stays. -/
def reckonByte (t : Transform) (b : UInt8) : Checked UInt8 :=
  match (ofCode? b : Option Heading) with
  | some h => return code (← t.reckonHeading h)
  | none => return b

/-- Where the argument of a command goes. -/
def reckonArg (t : Transform) (inst : Instruction) (arg : UInt8) : Checked UInt8 :=
  match inst with
  | .move => t.reckonByte arg
  | .spawn =>
    match (Spawn.ofByte arg).motion with
    | some h => return (Spawn.ofKind (Spawn.ofByte arg).kind (some (← t.reckonHeading h))).byte
    | none => return arg
  | _ => return arg

end Transform

namespace View

variable {δ : Type}

/-- The place of the clause shown at a cell; none is shown outside the window. -/
def reckonClauseAt (v : View δ) (c : Cell) : Checked (Option Nat) :=
  if c.inWindow then
    match v.transform with
    | some t => return v.rule.find? (← t.inverse.reckonCell c)
    | none => return v.rule.find? c
  else return none

/-- The argument of the rule; that of a `button` rule is mapped. -/
def reckonArg (v : View δ) : Checked UInt8 :=
  match v.transform, v.rule.trigger with
  | some t, .button => t.reckonByte v.rule.arg
  | _, _ => return v.rule.arg

/-- The button of a `button` rule. -/
def reckonButton (v : View δ) : Checked (Option Button) :=
  match v.rule.trigger with
  | .button => return ofCode? (← v.reckonArg)
  | _ => return none

/-- The facing that a clause asks for. -/
def reckonFacing (v : View δ) (i : Nat) : Checked (Option Facing) :=
  match v.clause? i, v.transform with
  | some c, some t => return some (← t.reckonFacing c.facing)
  | some c, none => return some c.facing
  | none, _ => return none

/-- A command as it is seen. -/
def reckonShown (v : View δ) (c : Command) : Checked Command :=
  match v.transform with
  | some t => return { c with arg := ← t.reckonArg c.inst c.arg }
  | none => return c

/-- The commands of a clause; none if there is no such clause. -/
def reckonCommands (v : View δ) (i : Nat) : Checked (List Command) :=
  match v.clause? i with
  | some c => c.commands.mapM v.reckonShown
  | none => return []

/-- The demand of a clause on a background kind. -/
def reckonBackground [Packed δ] (v : View δ) (i kind : Nat) : Checked (Option Demand) :=
  match v.clause? i with
  | some c => Packed.get c.backgrounds kind
  | none => return none

/-- The demand of a clause on a sprite kind. -/
def reckonSprite [Packed δ] (v : View δ) (i kind : Nat) : Checked (Option Demand) :=
  match v.clause? i with
  | some c => Packed.get c.sprites kind
  | none => return none

/-- Whether the trigger of the rule, and its button, belong to a phase. -/
def reckonAccepts (v : View δ) (phase : Phase) (button : Option Button) : Checked Bool :=
  match phase, v.rule.trigger with
  | .moving, .button | .resting, .button =>
    if button.isSome then return (← v.reckonButton) == button else return false
  | _, _ => return v.accepts phase button

/-- Whether the centre selects a sprite of a kind and motion. -/
def reckonSelects [Packed δ] (v : View δ) (kind : Nat) (motion : Option Heading) : Checked Bool := do
  match ← v.reckonClauseAt .centre with
  | none => return false
  | some i =>
    let facing ← v.reckonFacing i
    let demand ← v.reckonSprite i kind
    return demand.any Demand.includes && (facing.getD .any).accepts motion

end View

namespace World

/-- The place of a tile as it is reckoned in signed words, row by row. -/
def reckonIndex (w : World) (t : Tile) : Checked (Option Nat) :=
  if w.inBounds t then do
    let before ← signed .half (t.row * w.width)
    let place ← signed .half (before + t.col)
    return some place.toNat
  else return none

/-- The background kind of a tile. A tile of the board must have its place in the row. -/
def reckonBackgroundAt (w : World) (t : Tile) : Checked (Option Nat) := do
  match ← w.reckonIndex t with
  | none => return none
  | some i =>
    match w.backgrounds.get? i with
    | some kind => return some kind
    | none => throw (.outOfRange i w.backgrounds.length)

end World

namespace Matcher

/-- Looks at kinds one by one, up to the first that breaks a demand. -/
def reckonJudge {ι : Type} (g : Grouping) : Tally ι → List (Checked (Sighting ι)) → Checked (Verdict ι)
  | t, [] => return t.verdict
  | t, look :: rest => do
    let s ← look
    if s.breaks g then return .fail else reckonJudge g (t.add g s) rest

variable {δ : Type} [Packed δ]

/-- Checks the guard of a clause at a tile: the backgrounds first, then the sprites. Every kind of the game is looked at. -/
def reckonGuard (m : Matcher) (w : World) (v : View δ) (i : Nat) (tile : Tile) : Checked (Verdict SpriteId) := do
  let shown ← w.reckonBackgroundAt tile
  let background (kind : Nat) : Checked (Sighting SpriteId) :=
    return ⟨(← v.reckonBackground i kind).getD .free, shown == some kind, none⟩
  let sprite (kind : Nat) : Checked (Sighting SpriteId) :=
    return ⟨(← v.reckonSprite i kind).getD .free, (w.spriteAt tile kind).isSome, w.spriteAt tile kind⟩
  reckonJudge m.grouping .start
    ((List.range m.kinds.backgrounds).map background ++ (List.range m.kinds.sprites).map sprite)

/-- The commands of a clause for a tile and a target. -/
def reckonErrands (w : World) (v : View δ) (i : Nat) (tile : Tile) (target : Option SpriteId) :
    Checked (List (Errand SpriteId)) :=
  return (← v.reckonCommands i).map fun command => ⟨command, tile, target, target.bind w.motion⟩

/-- The commands of the centre; none if nothing is shown there. -/
def reckonCentre (w : World) (v : View δ) (home : Tile) (sprite : SpriteId) : Checked (List (Errand SpriteId)) := do
  match ← v.reckonClauseAt .centre with
  | some i => reckonErrands w v i home (some sprite)
  | none => return []

/-- Checks the guards of the clauses shown at cells around a tile, up to the first that fails; `none` if one does. -/
def reckonScan (m : Matcher) (w : World) (v : View δ) (home : Tile) :
    List Cell → Checked (Option (List (Neighbour SpriteId)))
  | [] => return some []
  | cell :: rest => do
    match ← v.reckonClauseAt cell with
    | none => m.reckonScan w v home rest
    | some i =>
      let tile ← home.shifted (← cell.reckonOffset)
      match ← m.reckonGuard w v i tile with
      | .fail => return none
      | .pass witness => return (← m.reckonScan w v home rest).map (⟨cell, i, tile, witness⟩ :: ·)

/-- Matches a view around a sprite; `none` if a guard fails or the sprite is gone. The commands of the centre are read before
    the guards are checked, those of the neighbours afterwards. -/
def reckonEvaluate (m : Matcher) (w : World) (sprite : SpriteId) (v : View δ) : Checked (Option (Firing SpriteId)) :=
  match w.position sprite with
  | none => return none
  | some home => do
    let centre ← reckonCentre w v home sprite
    match ← m.reckonScan w v home (← Cell.reckonNeighbourhood) with
    | none => return none
    | some around =>
      let near ← around.filterM fun n => return (← n.cell.byteDistance) ≤ 1
      let commands ← around.mapM fun n => reckonErrands w v n.clause n.tile n.witness
      return some ⟨v.id, v.transform, sprite, near.filterMap (·.witness), centre ++ commands.flatten⟩

end Matcher

namespace Session

variable {δ : Type} [Packed δ]

/-- Whether a view is matched around a sprite in a phase. -/
def reckonCandidate (s : Session δ) (sprite : Sprite) (phase : Phase) (button : Option Button) (v : View δ) :
    Checked Bool := do
  if (← v.reckonAccepts phase button) && v.controls s.project.player sprite.kind then
    v.reckonSelects sprite.kind sprite.motion
  else return false

/-- The firing of a view around a sprite, if it is a candidate and matches. -/
def reckonView (s : Session δ) (w : World) (sprite : Sprite) (phase : Phase) (button : Option Button) (v : View δ) :
    Checked (Option (Firing SpriteId)) := do
  if ← s.reckonCandidate sprite phase button v then s.matcher.reckonEvaluate w sprite.id v else return none

/-- The firings around a sprite. There are none if it is gone or the rules of its kind are suspended. -/
def reckonSprite (s : Session δ) (w : World) (phase : Phase) (button : Option Button) (id : SpriteId) :
    Checked (List (Firing SpriteId)) :=
  match w.sprite? id with
  | none => return []
  | some sprite =>
    if w.isBlocked sprite.kind then return []
    else return (← s.views.mapM (s.reckonView w sprite phase button)).reduceOption

/-- The firings of a phase, sprite by sprite. -/
def reckonPhase (s : Session δ) (w : World) (phase : Phase) (sprites : List SpriteId) (button : Option Button) :
    Checked (List (Firing SpriteId)) :=
  return (← sprites.mapM (s.reckonSprite w phase button)).flatten

end Session
end Playfield
