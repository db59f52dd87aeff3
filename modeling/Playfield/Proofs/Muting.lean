import Mathlib.Data.List.ReduceOption
import Playfield.Proofs.Course

/-!
# Matching without commands

A rule without its commands matches exactly where the rule itself does. So projects that differ only in their commands
find the same firings in every world, and what is reported of the first phase of a tick is the same for both, whatever
the commands do.
-/
namespace Playfield

variable {ι : Type}

/-! ### Without commands -/

/-- The clause without its commands. -/
def Clause.muted (c : Clause) : Clause := { c with commands := [] }

def Rule.muted (r : Rule) : Rule := { r with clauses := r.clauses.map Clause.muted }

def View.muted (v : View) : View := { v with rule := v.rule.muted }

def Firing.muted (f : Firing ι) : Firing ι := { f with commands := [] }

/-- Two projects differ at most in the commands of their rules. -/
structure Project.SameButCommands (p q : Project) : Prop where
  config : q.config = p.config
  rules : ∀ id, (q.rule? id).map Rule.muted = (p.rule? id).map Rule.muted

namespace View

variable (v : View)

theorem clauseAt_muted : v.muted.clauseAt = v.clauseAt := clauseAt_map (f := Clause.muted) (fun _ => rfl) v

theorem clause?_muted (i : Nat) : v.muted.clause? i = (v.clause? i).map Clause.muted := List.getElem?_map ..

theorem background?_muted (i kind : Nat) : v.muted.background? i kind = v.background? i kind := by
  rw [background?, background?, clause?_muted]
  cases v.clause? i <;> rfl

theorem sprite?_muted (i kind : Nat) : v.muted.sprite? i kind = v.sprite? i kind := by
  rw [sprite?, sprite?, clause?_muted]
  cases v.clause? i <;> rfl

theorem backgroundCount_muted (i : Nat) : v.muted.backgroundCount i = v.backgroundCount i := by
  rw [backgroundCount, backgroundCount, clause?_muted]
  cases v.clause? i <;> rfl

theorem spriteCount_muted (i : Nat) : v.muted.spriteCount i = v.spriteCount i := by
  rw [spriteCount, spriteCount, clause?_muted]
  cases v.clause? i <;> rfl

theorem commands_muted (i : Nat) : v.muted.commands i = [] := by
  rw [commands, clause?_muted]
  cases v.clause? i <;> rfl

theorem selects_muted : v.muted.selects = v.selects := by
  have facing : v.muted.facingOf = v.facingOf := by
    funext i
    rw [facingOf, facingOf, clause?_muted]
    cases v.clause? i <;> rfl
  have demands (kind : Nat) : (fun i => v.muted.sprite? i kind) = fun i => v.sprite? i kind :=
    funext fun i => v.sprite?_muted i kind
  funext kind motion
  rw [selects, selects, centreFacing, centreFacing, clauseAt_muted, facing, hasSpriteKind, hasSpriteKind,
    clauseAt_muted, demands]

end View

/-! ### Matches -/

namespace Matcher

variable (m : Matcher) (g : Grid ι) (v : View)

theorem guardAt_muted (i : Nat) (tile : Tile) : m.guardAt g v.muted i tile = m.guardAt g v i tile := by
  have backgrounds : background g v.muted i tile = background g v i tile := by
    funext kind
    rw [background, background, View.background?_muted]
  have sprites : sprite g v.muted i tile = sprite g v i tile := by
    funext kind
    rw [sprite, sprite, View.sprite?_muted]
  rw [guardAt, guardAt, View.backgroundCount_muted, View.spriteCount_muted, backgrounds, sprites]

theorem scan_muted (home : Tile) (cells : List Cell) : m.scan g v.muted home cells = m.scan g v home cells := by
  induction cells with
  | nil => rfl
  | cons cell rest ih =>
    rw [scan, scan, View.clauseAt_muted]
    simp only [guardAt_muted, ih]

theorem firing_muted (sprite : ι) (home : Tile) (centre : Option Nat) (around : List (Neighbour ι)) :
    firing g sprite v.muted home centre around = (firing g sprite v home centre around).muted := by
  have silent (i : Nat) (tile : Tile) (target : Option ι) : errands g v.muted i tile target = [] := by
    rw [errands, View.commands_muted]
    rfl
  have centre_silent : ((centre.map fun i => errands g v.muted i home (some sprite)).getD []) = [] := by
    cases centre with
    | none => rfl
    | some i => exact silent i home (some sprite)
  have around_silent : (around.flatMap fun n => errands g v.muted n.clause n.tile n.witness) = [] :=
    List.flatMap_eq_nil_iff.mpr fun n _ => silent n.clause n.tile n.witness
  rw [firing, centre_silent, around_silent]
  rfl

/-- A view matches without commands exactly where it matches, and then without commands. -/
theorem evaluate_muted (sprite : ι) : m.evaluate g sprite v.muted = Option.map Firing.muted <$> m.evaluate g sprite v := by
  rw [evaluate, evaluate]
  cases g.position sprite with
  | none => rfl
  | some home =>
    have firings : firing g sprite v.muted home = fun centre around =>
        (firing g sprite v home centre around).muted := by
      funext centre around
      exact firing_muted g v sprite home centre around
    simp only [View.clauseAt_muted, scan_muted, firings, map_bind, map_pure, Option.map_map]
    rfl

end Matcher

/-! ### Projects that differ in their commands -/

namespace Project

variable {p q : Project}

theorem map_muted_allViews (p : Project) : p.allViews.map View.muted =
    (p.rules.toList.map fun e => (e.1, e.2.muted)).flatMap fun e => e.2.ways.map fun t => ⟨e.2, some e.1, t, p.kinds⟩ := by
  rw [allViews_eq, List.map_flatMap, List.flatMap_map]
  refine List.flatMap_congr fun e _ => ?_
  rw [List.map_map]
  rfl

theorem SameButCommands.allViews (same : p.SameButCommands q) :
    q.allViews.map View.muted = p.allViews.map View.muted := by
  have kinds : q.kinds = p.kinds := congrArg ProjectConfig.kinds same.config
  rw [map_muted_allViews, map_muted_allViews, RuleBook.toList_map_congr same.rules, kinds]

end Project

namespace Session

variable {p q : Project} {settings : Settings}

theorem tryView_muted (s : Session) (w : World) (sprite : Sprite) (phase : Phase) (button : Option Button) (v : View) :
    s.tryView w sprite phase button v.muted = Option.map Firing.muted <$> s.tryView w sprite phase button v := by
  have candidate : s.isCandidate sprite phase button v.muted = s.isCandidate sprite phase button v := by
    rw [isCandidate, isCandidate, View.selects_muted]
    rfl
  rw [tryView, tryView, candidate, Matcher.evaluate_muted, map_bind]
  refine bind_congr fun selected => ?_
  cases selected <;> rfl

/-- The views without their commands tell what is found around a sprite, up to the commands. -/
theorem map_muted_tries (s : Session) (w : World) (sprite : Sprite) (phase : Phase) (button : Option Button)
    (views : List View) :
    List.map Firing.muted <$> (views.mapM (s.tryView w sprite phase button) >>= fun found => .ok found.reduceOption) =
      (views.map View.muted).mapM (s.tryView w sprite phase button) >>= fun found => .ok found.reduceOption := by
  have muted : s.tryView w sprite phase button ∘ View.muted =
      fun v => Option.map Firing.muted <$> s.tryView w sprite phase button v :=
    funext fun v => s.tryView_muted w sprite phase button v
  rw [List.mapM_map, muted, mapM_map_eq]
  cases views.mapM (s.tryView w sprite phase button) with
  | error cause => rfl
  | ok found =>
    have reduced := List.reduceOption_map (l := found) (f := Firing.muted)
    exact congrArg Except.ok reduced.symm

theorem matchSprite_sameButCommands (same : p.SameButCommands q) (w : World) (phase : Phase) (button : Option Button)
    (id : SpriteId) : List.map Firing.muted <$> (new q settings).matchSprite w phase button id =
      List.map Firing.muted <$> (new p settings).matchSprite w phase button id := by
  rcases matchSprite_tries w id with unmatched | ⟨sprite, tries⟩
  · rw [unmatched, unmatched]
  · -- What is tried hangs on the kinds, the player and the settings, and these are the same.
    have tried : (new q settings).tryView = (new p settings).tryView := by
      have kinds : q.kinds = p.kinds := congrArg ProjectConfig.kinds same.config
      have player : q.player = p.player := congrArg ProjectConfig.player same.config
      funext w sprite phase button v
      rw [tryView, tryView, isCandidate, isCandidate, new, new, kinds]
      simp only [player]
    have views : (new q settings).views.map View.muted = (new p settings).views.map View.muted := same.allViews
    rw [tries, tries, map_muted_tries, map_muted_tries, views, tried]

theorem matchPhase_sameButCommands (same : p.SameButCommands q) (w : World) (phase : Phase) (sprites : List SpriteId)
    (button : Option Button) : List.map Firing.muted <$> (new q settings).matchPhase w phase sprites button =
      List.map Firing.muted <$> (new p settings).matchPhase w phase sprites button := by
  have rows (s : Session) : List.map Firing.muted <$> s.matchPhase w phase sprites button =
      List.flatten <$> sprites.mapM fun id => List.map Firing.muted <$> s.matchSprite w phase button id := by
    rw [mapM_map_eq, matchPhase]
    cases sprites.mapM (s.matchSprite w phase button) with
    | error cause => rfl
    | ok rows => exact congrArg Except.ok List.map_flatten
  rw [rows, rows]
  simp only [matchSprite_sameButCommands same]

theorem hits_of_muted {fs gs : List (Firing SpriteId)} (same : fs.map Firing.muted = gs.map Firing.muted) :
    fs.filterMap Firing.hit? = gs.filterMap Firing.hit? := by
  have unheard : Firing.hit? ∘ Firing.muted = Firing.hit? := rfl
  have hits := congrArg (List.filterMap Firing.hit?) same
  rwa [List.filterMap_map, List.filterMap_map, unheard] at hits

/-- What runs first in a tick is what matches in the world in which it starts. -/
theorem hits_moving {s : Session} {w v : World} {button : Option Button} {report : Report}
    (stepped : s.step w button = .ok (report, v)) (playing : w.status = .playing) :
    ∃ fs, s.matchPhase w .moving (w.spritesInMotion true) button = .ok fs ∧
      (report.fired.filter (·.phase = .moving)).map Fired.hit = fs.filterMap Firing.hit? := by
  obtain ⟨c⟩ := (stepOn_eq_ok_iff_course playing).mp stepped
  have matched := c.matched .moving
  rw [c.starts] at matched
  refine ⟨c.firings .moving, matched, ?_⟩
  rw [c.filter_fired (by decide), c.hits_fired (by decide)]

/-- Matching does not look at commands. Projects that differ only in these find the same firings, up to the commands, in
    every world and every phase, and the first phase of a tick runs the same rules around the same sprites, in the same
    order, whatever the commands do. -/
theorem matching_ignores_commands (same : p.SameButCommands q) (settings : Settings) (w : World) :
    (∀ phase sprites button, List.map Firing.muted <$> (new q settings).matchPhase w phase sprites button =
      List.map Firing.muted <$> (new p settings).matchPhase w phase sprites button) ∧
    ∀ button report v report' v', (new p settings).step w button = .ok (report, v) →
      (new q settings).step w button = .ok (report', v') →
      (report'.fired.filter (·.phase = .moving)).map Fired.hit = (report.fired.filter (·.phase = .moving)).map Fired.hit := by
  refine ⟨matchPhase_sameButCommands same w, ?_⟩
  intro button report v report' v' stepped also
  by_cases playing : w.status = .playing
  · obtain ⟨fs, matched, hits⟩ := hits_moving stepped playing
    obtain ⟨gs, matched', hits'⟩ := hits_moving also playing
    have found : List.map Firing.muted <$> (new q settings).matchPhase w .moving (w.spritesInMotion true) button = _ :=
      matchPhase_sameButCommands same w .moving _ button
    rw [matched, matched'] at found
    rw [hits, hits', hits_of_muted (Except.ok.inj found)]
  · rw [step, stepOn_of_ended playing] at stepped also
    cases stepped
    cases also
    rfl

theorem matching_ignores_drill : ∃ w report v report' v', World.train = .ok w ∧
    (new (.drill []) .standard).step w none = .ok (report, v) ∧
    (new (.drill [⟨.sprite, 0⟩]) .standard).step w none = .ok (report', v') ∧
    report.commands = 0 ∧ report'.commands = 2 ∧
    (report'.fired.filter (·.phase = .moving)).map Fired.hit = [(⟨0⟩, ⟨0⟩, none), (⟨1⟩, ⟨0⟩, none)] := by
  have same : (Project.drill []).SameButCommands (.drill [⟨.sprite, 0⟩]) := by
    refine ⟨rfl, ?_⟩
    rintro ⟨id⟩
    cases id <;> rfl
  obtain ⟨w, report, v, report', v', built, stepped, also, idle, busy, hits⟩ :
      ∃ w report v report' v', World.train = .ok w ∧ (new (.drill []) .standard).step w none = .ok (report, v) ∧
        (new (.drill [⟨.sprite, 0⟩]) .standard).step w none = .ok (report', v') ∧
        report.commands = 0 ∧ report'.commands = 2 ∧
        (report.fired.filter (·.phase = .moving)).map Fired.hit = [(⟨0⟩, ⟨0⟩, none), (⟨1⟩, ⟨0⟩, none)] :=
    ⟨_, _, _, _, _, rfl, rfl, rfl, rfl, rfl, rfl⟩
  have agree := (matching_ignores_commands same .standard w).2 none report v report' v' stepped also
  exact ⟨w, report, v, report', v', built, stepped, also, idle, busy, agree.trans hits⟩

end Session
end Playfield
