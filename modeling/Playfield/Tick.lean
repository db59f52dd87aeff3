import Playfield.Project
import Playfield.World.Engine

/-!
# Ticks

A tick runs in phases. The sprites in motion and those at rest are told apart when the tick starts
and have a phase each; then come the sprites that would move into an occupied tile; then patterns
that must never occur are looked for everywhere; then the tick is committed. Within a phase every
rule is matched against the same world before any command runs. Every rule contributes its own view
and those that its symmetry adds.
-/
namespace Playfield

/-- A part of a tick. -/
inductive Phase
  | moving | resting | collision | negation
  deriving DecidableEq, Repr

instance : Vocabulary Phase where
  words := [.moving, .resting, .collision, .negation]
  code p := .ofNat p.ctorIdx
  name
    | .moving => "Moving"
    | .resting => "Resting"
    | .collision => "Collision"
    | .negation => "Negation"
  words_code p := by cases p <;> rfl
  codes := rfl

/-- A rule that ran. -/
structure Fired where
  phase : Phase
  rule : RuleId
  transform : Option Transform
  sprite : SpriteId
  /-- The number of commands that reached the world. -/
  commands : Nat
  deriving DecidableEq, Repr

/-- The number of commands of all rules that ran. -/
def commandCount (fired : List Fired) : Nat := (fired.map (·.commands)).foldr (· + ·) 0

/-- A pattern that must never occur and did. -/
structure Violation where
  rule : RuleId
  transform : Option Transform
  sprite : SpriteId
  deriving DecidableEq, Repr

/-- What happened in a tick. -/
structure Report where
  /-- The number of ticks of the world afterwards. -/
  tick : Nat
  fired : List Fired
  /-- The number of commands that reached the world. -/
  commands : Nat
  violations : List Violation
  /-- The sprites that were brought to rest when the tick was committed. -/
  rejected : List SpriteId
  deriving DecidableEq, Repr

namespace Report

/-- The report of a tick in which nothing has happened yet. -/
def start (w : World) : Report := ⟨w.tick, [], 0, [], []⟩

/-- The report with a rule that ran entered, and its commands counted. -/
def enter (r : Report) (f : Fired) : Report :=
  { r with fired := r.fired ++ [f], commands := r.commands + f.commands }

end Report

namespace View

variable {δ : Type}

/-- Whether the trigger of the rule, and its button, belong to a phase. -/
def accepts (v : View δ) (phase : Phase) (button : Option Button) : Bool :=
  match phase, v.rule.trigger with
  | .moving, .change | .resting, .change => true
  | .moving, .button | .resting, .button => button.isSome && v.button? == button
  | .collision, .collision => true
  | .negation, .negation => true
  | _, _ => false

/-- Whether the rule may drive a sprite kind: `button` rules drive the player only, if one is set. -/
def controls (v : View δ) (player : Option Nat) (kind : Nat) : Bool :=
  v.rule.trigger != .button || player.all (· == kind)

/-- Whether the centre selects a sprite of a kind and motion. -/
def selects (v : View) (kind : Nat) (motion : Option Heading) : Checked Bool := do
  let facing ← v.centreFacing
  return (← v.hasSpriteKind kind) && facing.accepts motion

end View

/-- The rules of a project, to be run on worlds. -/
structure Session (δ : Type := Demands) where
  project : Project δ
  matcher : Matcher
  deriving DecidableEq, Repr

namespace Session

variable {δ : Type}

/-- The rules of a project under given settings. -/
def new (project : Project δ) (settings : Settings) : Session δ := ⟨project, .new project.kinds settings⟩

/-- The views of all rules. -/
def views (s : Session δ) : List (View δ) := s.project.views.flatMap View.all

/-- Whether a view is matched around a sprite in a phase. -/
def isCandidate (s : Session) (sprite : Sprite) (phase : Phase) (button : Option Button) (v : View) : Checked Bool :=
  if v.accepts phase button && v.controls s.project.player sprite.kind then v.selects sprite.kind sprite.motion
  else return false

/-- The firing of a view around a sprite, if it is a candidate and matches. -/
def tryView (s : Session) (w : World) (sprite : Sprite) (phase : Phase) (button : Option Button) (v : View) :
    Checked (Option (Firing SpriteId)) := do
  if ← s.isCandidate sprite phase button v then s.matcher.evaluate w.grid sprite.id v else return none

/-- The firings around a sprite. There are none if it is gone or the rules of its kind are
    suspended. -/
def matchSprite (s : Session) (w : World) (phase : Phase) (button : Option Button) (id : SpriteId) :
    Checked (List (Firing SpriteId)) :=
  match w.sprite? id with
  | none => return []
  | some sprite =>
    if w.isBlocked sprite.kind then return []
    else return (← s.views.mapM (s.tryView w sprite phase button)).reduceOption

/-- The firings of a phase, sprite by sprite. Nothing is run. -/
def matchPhase (s : Session) (w : World) (phase : Phase) (sprites : List SpriteId) (button : Option Button) :
    Checked (List (Firing SpriteId)) :=
  return (← sprites.mapM (s.matchSprite w phase button)).flatten

/-- Runs firings in order; answers with the rules that ran. -/
def runFirings (e : Engine World SpriteId) (phase : Phase) :
    List (Firing SpriteId) → World → Checked (List Fired × World)
  | [], w => return ([], w)
  | f :: rest, w =>
    match f.rule with
    | none => runFirings e phase rest w
    | some rule => do
      let (commands, w) ← f.dispatch e w
      let (fired, w) ← runFirings e phase rest w
      return (⟨phase, rule, f.transform, f.sprite, commands⟩ :: fired, w)

/-- Matches a phase and runs it. -/
def runPhase (s : Session) (e : Engine World SpriteId) (phase : Phase) (sprites : List SpriteId)
    (button : Option Button) (w : World) : Checked (List Fired × World) := do
  runFirings e phase (← s.matchPhase w phase sprites button) w

/-- Runs firings in order and enters the rules that ran into a report. -/
def enterFirings (e : Engine World SpriteId) (phase : Phase) :
    List (Firing SpriteId) → Report → World → Checked (Report × World)
  | [], report, w => return (report, w)
  | f :: rest, report, w =>
    match f.rule with
    | none => enterFirings e phase rest report w
    | some rule => do
      let (commands, w) ← f.dispatch e w
      enterFirings e phase rest (report.enter ⟨phase, rule, f.transform, f.sprite, commands⟩) w

/-- Matches a phase, runs it and enters the rules that ran into a report. -/
def enterPhase (s : Session) (e : Engine World SpriteId) (phase : Phase) (sprites : List SpriteId)
    (button : Option Button) (report : Report) (w : World) : Checked (Report × World) := do
  enterFirings e phase (← s.matchPhase w phase sprites button) report w

/-- The violation that a firing shows. -/
def violation? (f : Firing SpriteId) : Option Violation :=
  f.rule.map fun rule => ⟨rule, f.transform, f.sprite⟩

end Session

namespace World

/-- The sprites with, or without, a motion. -/
def spritesInMotion (w : World) (moving : Bool) : List SpriteId :=
  (w.spriteList.filter fun s => s.motion.isSome == moving).map (·.id)

/-- The sprites whose step leads to an occupied tile. -/
def colliding (w : World) : List SpriteId :=
  (w.spriteList.filter fun s => s.mover?.any fun m => (w.occupant m.target).isSome).map (·.id)

end World

namespace Session

/-- Runs a tick on an engine and commits it. Once the game is won or lost nothing happens. -/
def stepOn (s : Session) (e : Engine World SpriteId) (w : World) (button : Option Button) :
    Checked (Report × World) :=
  if w.status ≠ .playing then return (.start w, w)
  else do
    let report := Report.start w
    let moving := w.spritesInMotion true
    let resting := w.spritesInMotion false
    let (report, w) ← s.enterPhase e .moving moving button report w
    let (report, w) ← s.enterPhase e .resting resting button report w
    let (report, w) ← s.enterPhase e .collision w.colliding none report w
    let violating ← s.matchPhase w .negation (w.spriteList.map (·.id)) none
    let w ← e.advance w
    return ({ report with
      tick := w.tick, violations := violating.filterMap violation?, rejected := w.rejected }, w)

/-- Runs a tick and commits it. -/
def step (s : Session) (w : World) (button : Option Button) : Checked (Report × World) :=
  s.stepOn World.engine w button

end Session
end Playfield
