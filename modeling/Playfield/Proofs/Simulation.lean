import Playfield.Proofs.Alike
import Playfield.Proofs.Bookkeeping

/-!
# Sessions that match alike

If around every sprite two sessions find firings that do the same, place by place, their ticks do
the same to every world, and so do runs of any length. The firings may come from different rules,
as long as their sources are related; the reports then name related sources.
-/
namespace Playfield

/-- A rule and the transform through which it is seen, if any. -/
abbrev Source := RuleId × Option Transform

variable {ι : Type} {T : Source → Source → Prop}

/-- The rule and the transform that a firing comes from. -/
def Firing.source (f : Firing ι) : Option Source := f.rule.map fun rule => (rule, f.transform)

/-- A sprite, and what matched around it. -/
abbrev Hit := SpriteId × Source

/-- The sprite and the source that a firing shows. -/
def Firing.hit? (f : Firing SpriteId) : Option Hit := f.source.map fun source => (f.sprite, source)

/-- The sprite and the source of an entry of a report. -/
def Fired.hit (x : Fired) : Hit := (x.sprite, x.rule, x.transform)

/-- The sprite and the source of a violation. -/
def Violation.hit (x : Violation) : Hit := (x.sprite, x.rule, x.transform)

/-- Two firings do the same around the same sprite, and come from related sources. -/
structure Firing.Agrees (T : Source → Source → Prop) (f g : Firing ι) : Prop where
  source : Option.Rel T f.source g.source
  sprite : f.sprite = g.sprite
  witnesses : f.witnesses = g.witnesses
  commands : f.commands = g.commands

/-- Two entries of reports differ at most in their sources, and these are related. -/
structure Fired.Agrees (T : Source → Source → Prop) (x y : Fired) : Prop where
  phase : x.phase = y.phase
  source : T (x.rule, x.transform) (y.rule, y.transform)
  sprite : x.sprite = y.sprite
  commands : x.commands = y.commands

/-- Two violations are of the same sprite and of related sources. -/
structure Violation.Agrees (T : Source → Source → Prop) (x y : Violation) : Prop where
  source : T (x.rule, x.transform) (y.rule, y.transform)
  sprite : x.sprite = y.sprite

/-- Two reports agree entry by entry. -/
structure Report.Agrees (T : Source → Source → Prop) (x y : Report) : Prop where
  tick : x.tick = y.tick
  fired : List.Forall₂ (Fired.Agrees T) x.fired y.fired
  commands : x.commands = y.commands
  violations : List.Forall₂ (Violation.Agrees T) x.violations y.violations
  rejected : x.rejected = y.rejected

theorem commandCount_eq {xs ys : List Fired} (entries : List.Forall₂ (Fired.Agrees T) xs ys) :
    commandCount xs = commandCount ys := by
  induction entries with
  | nil => rfl
  | cons entry _ ih => exact congrArg₂ (· + ·) entry.commands ih

namespace Session

/-- Around every sprite of every world two sessions find firings that agree. -/
def MatchesAs (T : Source → Source → Prop) (s r : Session) : Prop :=
  ∀ w phase button id,
    Alike (List.Forall₂ (Firing.Agrees T)) (s.matchSprite w phase button id) (r.matchSprite w phase button id)

/-- The reports of ticks and the worlds after them, one tick for each button. -/
def run (s : Session) : List (Option Button) → World → Checked (List (Report × World))
  | [], _ => return []
  | button :: rest, w => do
    let (report, w) ← s.step w button
    return (report, w) :: (← s.run rest w)

/-- What runs is reported, in order. -/
theorem hits_of_runFirings {e : Engine World SpriteId} {phase : Phase} {fs : List (Firing SpriteId)} {w v : World}
    {fired : List Fired} (ran : runFirings e phase fs w = .ok (fired, v)) :
    fired.map Fired.hit = fs.filterMap Firing.hit? ∧ ∀ x ∈ fired, x.phase = phase := by
  induction fs generalizing w fired with
  | nil =>
    cases pure_eq_ok.mp ran
    exact ⟨rfl, nofun⟩
  | cons f rest ih =>
    rw [runFirings] at ran
    cases named : f.rule with
    | none =>
      rw [named] at ran
      have unseen : f.hit? = none := by rw [Firing.hit?, Firing.source, named]; rfl
      rw [List.filterMap_cons_none unseen]
      exact ih ran
    | some rule =>
      rw [named] at ran
      obtain ⟨⟨commands, u⟩, _, ran⟩ := bind_eq_ok.mp ran
      obtain ⟨⟨others, u'⟩, later, done⟩ := bind_eq_ok.mp ran
      cases pure_eq_ok.mp done
      obtain ⟨hits, phases⟩ := ih later
      have seen : f.hit? = some (f.sprite, rule, f.transform) := by rw [Firing.hit?, Firing.source, named]; rfl
      rw [List.filterMap_cons_some seen, ← hits]
      exact ⟨rfl, List.forall_mem_cons.mpr ⟨rfl, phases⟩⟩

/-- What must never occur and does is reported, in order. -/
theorem hits_of_violations (fs : List (Firing SpriteId)) :
    (fs.filterMap violation?).map Violation.hit = fs.filterMap Firing.hit? := by
  rw [List.map_filterMap]
  refine List.filterMap_congr fun f _ => ?_
  rw [violation?, Firing.hit?, Firing.source, Option.map_map, Option.map_map]
  rfl

theorem runFirings_alike {fs gs : List (Firing SpriteId)} (firings : List.Forall₂ (Firing.Agrees T) fs gs)
    (e : Engine World SpriteId) (phase : Phase) (w : World) :
    Alike (fun x y => List.Forall₂ (Fired.Agrees T) x.1 y.1 ∧ x.2 = y.2) (runFirings e phase fs w)
      (runFirings e phase gs w) := by
  induction firings generalizing w with
  | nil => exact .ok ⟨.nil, rfl⟩
  | @cons f g fs gs agree _ ih =>
    have source := agree.source
    rw [runFirings, runFirings]
    cases unnamed : f.rule with
    | none =>
      cases also : g.rule with
      | none => exact ih w
      | some rule => simp [Firing.source, unnamed, also] at source
    | some rule =>
      cases also : g.rule with
      | none => simp [Firing.source, unnamed, also] at source
      | some other =>
        have related : T (rule, f.transform) (other, g.transform) := by
          simpa [Firing.source, unnamed, also] using source
        have same : f.dispatch e w = g.dispatch e w := congrArg (Errand.runAll e · w) agree.commands
        rw [same]
        refine (Alike.refl (fun _ => rfl) (g.dispatch e w)).bind ?_
        rintro ⟨commands, v⟩ _ rfl
        refine (ih v).bind ?_
        rintro ⟨xs, u⟩ ⟨ys, _⟩ ⟨entries, rfl⟩
        exact .ok ⟨.cons ⟨rfl, related, agree.sprite, rfl⟩ entries, rfl⟩

section

variable {s r : Session}

theorem MatchesAs.matchPhase (matching : MatchesAs T s r) (w : World) (phase : Phase) (sprites : List SpriteId)
    (button : Option Button) :
    Alike (List.Forall₂ (Firing.Agrees T)) (s.matchPhase w phase sprites button)
      (r.matchPhase w phase sprites button) := by
  have each : List.Forall₂ Eq sprites sprites := List.forall₂_same.mpr fun _ _ => rfl
  refine (Alike.mapM each ?_).map fun _ _ rows => List.rel_flatten rows
  rintro id _ rfl
  exact matching w phase button id

theorem MatchesAs.runPhase (matching : MatchesAs T s r) (e : Engine World SpriteId) (phase : Phase)
    (sprites : List SpriteId) (button : Option Button) (w : World) :
    Alike (fun x y => List.Forall₂ (Fired.Agrees T) x.1 y.1 ∧ x.2 = y.2) (s.runPhase e phase sprites button w)
      (r.runPhase e phase sprites button w) :=
  (matching.matchPhase w phase sprites button).bind fun _ _ firings => runFirings_alike firings e phase w

theorem violations_agree {fs gs : List (Firing SpriteId)} (firings : List.Forall₂ (Firing.Agrees T) fs gs) :
    List.Forall₂ (Violation.Agrees T) (fs.filterMap violation?) (gs.filterMap violation?) := by
  refine List.rel_filterMap ?_ firings
  intro f g agree
  have source := agree.source
  rw [Firing.source, Firing.source] at source
  rw [violation?, violation?]
  cases unnamed : f.rule with
  | none =>
    cases also : g.rule with
    | none => exact .none
    | some rule => simp [unnamed, also] at source
  | some rule =>
    cases also : g.rule with
    | none => simp [unnamed, also] at source
    | some other =>
      refine .some ⟨?_, agree.sprite⟩
      simpa [unnamed, also] using source

/-- Sessions that match alike take every world through a tick alike. -/
theorem MatchesAs.stepOn (matching : MatchesAs T s r) (e : Engine World SpriteId) (w : World)
    (button : Option Button) :
    Alike (fun x y => x.1.Agrees T y.1 ∧ x.2 = y.2) (s.stepOn e w button) (r.stepOn e w button) := by
  rw [Session.stepOn_eq, Session.stepOn_eq]
  split
  · exact .ok ⟨⟨rfl, .nil, rfl, .nil, rfl⟩, rfl⟩
  · refine (matching.runPhase e .moving _ button w).bind ?_
    rintro ⟨xs₁, w₁⟩ ⟨ys₁, _⟩ ⟨moving, rfl⟩
    refine (matching.runPhase e .resting _ button w₁).bind ?_
    rintro ⟨xs₂, w₂⟩ ⟨ys₂, _⟩ ⟨resting, rfl⟩
    refine (matching.runPhase e .collision _ none w₂).bind ?_
    rintro ⟨xs₃, w₃⟩ ⟨ys₃, _⟩ ⟨collision, rfl⟩
    refine (matching.matchPhase w₃ .negation _ none).bind ?_
    intro fs gs negation
    refine (Alike.refl (fun _ => rfl) (e.advance w₃)).bind ?_
    rintro v _ rfl
    have fired := List.rel_append (List.rel_append moving resting) collision
    exact .ok ⟨⟨rfl, fired, commandCount_eq fired, violations_agree negation, rfl⟩, rfl⟩

/-- Sessions that match alike run alike, for any buttons. -/
theorem MatchesAs.run (matching : MatchesAs T s r) (buttons : List (Option Button)) (w : World) :
    Alike (List.Forall₂ fun x y => x.1.Agrees T y.1 ∧ x.2 = y.2) (s.run buttons w) (r.run buttons w) := by
  induction buttons generalizing w with
  | nil => exact .ok .nil
  | cons button rest ih =>
    rw [Session.run, Session.run]
    refine (matching.stepOn World.engine w button).bind ?_
    rintro ⟨x, v⟩ ⟨y, _⟩ ⟨agree, rfl⟩
    refine (ih v).map ?_
    intro xs ys others
    exact .cons ⟨agree, rfl⟩ others

end
end Session
end Playfield
