import Playfield.Proofs.Expansion

/-!
# The two sets of inclusions

The settings say of which of the two sets of inclusions one member is enough. Nothing else tells the sets apart: with the
sets exchanged in every guard and the settings turned round, a project runs as before.
-/
namespace Playfield

/-! ### Exchanged sets -/

/-- The other set. -/
def Grouping.other : Grouping → Grouping
  | second => first
  | first => second

/-- The settings for the other set. -/
def Settings.exchanged (settings : Settings) : Settings := { settings with grouping := settings.grouping.other }

/-- The demand with the sets exchanged. -/
def Demand.exchanged : Demand → Demand
  | included => grouped
  | grouped => included
  | d => d

/-- The demands with the sets exchanged, kind by kind. -/
def Demands.exchanged (d : Demands) : Demands :=
  (List.range d.len).foldl (fun e kind => e.put kind ((d.get? kind).getD .free).exchanged) d

/-- The clause with the sets exchanged in its guard. -/
def Clause.exchanged (c : Clause) : Clause :=
  { c with backgrounds := c.backgrounds.exchanged, sprites := c.sprites.exchanged }

/-- The rule with the sets exchanged in every guard. -/
def Rule.exchanged (r : Rule) : Rule := { r with clauses := r.clauses.map Clause.exchanged }

/-- The project with the sets exchanged in every guard of every rule. -/
def Project.exchanged (p : Project) : Project :=
  { p with rules := { p.rules with slots := p.rules.slots.mapValues (Option.map Rule.exchanged) } }

/-- The view of the rule with the sets exchanged. -/
def View.exchanged (v : View) : View := { v with rule := v.rule.exchanged }

/-- What is there, and the demand with the sets exchanged. -/
def Sighting.exchanged {ι : Type} (s : Sighting ι) : Sighting ι := { s with demand := s.demand.exchanged }

/-- The matcher for the other grouping. -/
def Matcher.exchanged (m : Matcher) : Matcher := { m with grouping := m.grouping.other }

namespace Demands

theorem foldl_put (h : Nat → Demand) (kinds : List Nat) (d : Demands) :
    (kinds.foldl (fun e kind => e.put kind (h kind)) d).len = d.len ∧
      ∀ k, (kinds.foldl (fun e kind => e.put kind (h kind)) d).get? k =
        if k ∈ kinds ∧ k < d.len then some (h k) else d.get? k := by
  induction kinds generalizing d with
  | nil => simp
  | cons kind rest ih =>
    obtain ⟨len, reads⟩ := ih (d.put kind (h kind))
    rw [len_put] at len reads
    refine ⟨len, fun k => ?_⟩
    rw [List.foldl_cons, reads, get?_put]
    by_cases here : k = kind
    · subst here
      by_cases inside : k < d.len
      · simp [inside]
      · simp [inside]
    · simp [here]

theorem len_exchanged (d : Demands) : d.exchanged.len = d.len := (foldl_put _ _ d).1

theorem get?_exchanged (d : Demands) (kind : Nat) :
    d.exchanged.get? kind = (d.get? kind).map Demand.exchanged := by
  rw [exchanged, (foldl_put (fun kind => ((d.get? kind).getD .free).exchanged) _ d).2]
  by_cases inside : kind < d.len
  · obtain ⟨demand, found⟩ := exists_get? inside
    simp [inside, found]
  · simp [get?, inside]

end Demands

theorem Demand.includes_exchanged (d : Demand) : d.exchanged.includes = d.includes := by
  cases d <;> rfl

/-! ### Rules with the sets exchanged -/

namespace Project

/-- The project has the rules with the sets exchanged, under the same ids. -/
theorem toList_exchanged (p : Project) :
    p.exchanged.rules.toList = p.rules.toList.map fun e => (e.1, e.2.exchanged) := by
  rw [RuleBook.toList, RuleBook.toList, exchanged, IdMap.mapValues, List.filterMap_map, List.map_filterMap]
  refine List.filterMap_congr fun e _ => ?_
  obtain ⟨k, slot⟩ := e
  cases slot <;> rfl

theorem allViews_exchanged (p : Project) : p.exchanged.allViews = p.allViews.map View.exchanged := by
  rw [allViews_eq, allViews_eq, toList_exchanged, List.flatMap_map, List.map_flatMap]
  refine List.flatMap_congr fun e _ => ?_
  rw [List.map_map]
  rfl

end Project

namespace View

variable (v : View)

theorem clauseAt_exchanged (cell : Cell) : v.exchanged.clauseAt cell = v.clauseAt cell :=
  congrFun (clauseAt_map (f := Clause.exchanged) (fun _ => rfl) v) cell

theorem clause?_exchanged (i : Nat) : v.exchanged.clause? i = (v.clause? i).map Clause.exchanged := List.getElem?_map ..

theorem background?_exchanged (i kind : Nat) :
    v.exchanged.background? i kind = (v.background? i kind).map Demand.exchanged := by
  rw [background?, background?, clause?_exchanged]
  cases v.clause? i with
  | none => rfl
  | some c => exact c.backgrounds.get?_exchanged kind

theorem sprite?_exchanged (i kind : Nat) : v.exchanged.sprite? i kind = (v.sprite? i kind).map Demand.exchanged := by
  rw [sprite?, sprite?, clause?_exchanged]
  cases v.clause? i with
  | none => rfl
  | some c => exact c.sprites.get?_exchanged kind

theorem backgroundCount_exchanged (i : Nat) : v.exchanged.backgroundCount i = v.backgroundCount i := by
  rw [backgroundCount, backgroundCount, clause?_exchanged]
  cases v.clause? i with
  | none => rfl
  | some c => exact c.backgrounds.len_exchanged

theorem spriteCount_exchanged (i : Nat) : v.exchanged.spriteCount i = v.spriteCount i := by
  rw [spriteCount, spriteCount, clause?_exchanged]
  cases v.clause? i with
  | none => rfl
  | some c => exact c.sprites.len_exchanged

theorem facingOf_exchanged (i : Nat) : v.exchanged.facingOf i = v.facingOf i := by
  rw [facingOf, facingOf, clause?_exchanged, Option.map_map]
  rfl

theorem commands_exchanged (i : Nat) : v.exchanged.commands i = v.commands i := by
  rw [commands, commands, clause?_exchanged, Option.map_map]
  rfl

theorem hasSpriteKind_exchanged (kind : Nat) : v.exchanged.hasSpriteKind kind = v.hasSpriteKind kind := by
  have included (place : Option Nat) : (place.bind fun i => v.exchanged.sprite? i kind).any Demand.includes =
      (place.bind fun i => v.sprite? i kind).any Demand.includes := by
    cases place with
    | none => rfl
    | some i =>
      rw [Option.bind_some, Option.bind_some, sprite?_exchanged]
      cases v.sprite? i kind with
      | none => rfl
      | some demand => exact demand.includes_exchanged
  rw [hasSpriteKind, hasSpriteKind, clauseAt_exchanged]
  simp only [included]

/-- The same sprites are selected. -/
theorem selects_exchanged (kind : Nat) (motion : Option Heading) :
    v.exchanged.selects kind motion = v.selects kind motion := by
  have facing : v.exchanged.facingOf = v.facingOf := funext v.facingOf_exchanged
  rw [selects, selects, centreFacing, centreFacing, clauseAt_exchanged, facing, hasSpriteKind_exchanged]

end View

/-! ### Guards -/

variable {ι : Type}

/-- Exchanged demands are judged under the other grouping as the demands themselves. -/
theorem judge_exchanged (g : Grouping) (t : Tally ι) (sightings : List (Sighting ι)) :
    judge g.other t (sightings.map Sighting.exchanged) = judge g t sightings := by
  induction sightings generalizing t with
  | nil => rfl
  | cons s rest ih =>
    obtain ⟨demand, present, sprite⟩ := s
    have breaks : Sighting.breaks (Sighting.exchanged ⟨demand, present, sprite⟩) g.other =
        Sighting.breaks ⟨demand, present, sprite⟩ g := by
      cases g <;> cases demand <;> rfl
    have add : t.add g.other (Sighting.exchanged ⟨demand, present, sprite⟩) = t.add g ⟨demand, present, sprite⟩ := by
      cases g <;> cases demand <;> rfl
    rw [List.map_cons, judge, judge, breaks, add, ih]

namespace Matcher

theorem guardAt_exchanged (m : Matcher) (g : Grid ι) (v : View) (i : Nat) (tile : Tile) :
    m.exchanged.guardAt g v.exchanged i tile = m.guardAt g v i tile := by
  have free (d : Option Demand) : (d.map Demand.exchanged).getD .free = (d.getD .free).exchanged := by
    cases d <;> rfl
  have backgrounds : background g v.exchanged i tile = Sighting.exchanged ∘ background g v i tile := by
    funext kind
    rw [background, View.background?_exchanged, free]
    rfl
  have sprites : sprite g v.exchanged i tile = Sighting.exchanged ∘ sprite g v i tile := by
    funext kind
    rw [sprite, View.sprite?_exchanged, free]
    rfl
  rw [guardAt, guardAt, View.backgroundCount_exchanged, View.spriteCount_exchanged, backgrounds, sprites,
    ← List.map_map, ← List.map_map, ← List.map_append]
  exact judge_exchanged m.grouping _ _

theorem scan_exchanged (m : Matcher) (g : Grid ι) (v : View) (home : Tile) (cells : List Cell) :
    m.exchanged.scan g v.exchanged home cells = m.scan g v home cells := by
  induction cells with
  | nil => rfl
  | cons cell rest ih =>
    rw [scan, scan, View.clauseAt_exchanged]
    simp only [guardAt_exchanged, ih]

/-- A view matches with the sets exchanged exactly where it matches, and with the same firing. -/
theorem evaluate_exchanged (m : Matcher) (g : Grid ι) (sprite : ι) (v : View) :
    m.exchanged.evaluate g sprite v.exchanged = m.evaluate g sprite v := by
  have errands : errands g v.exchanged = errands g v := by
    funext i tile target
    rw [Matcher.errands, Matcher.errands, View.commands_exchanged]
  have firings : firing g sprite v.exchanged = firing g sprite v := by
    funext home centre around
    rw [firing, firing, errands]
    rfl
  rw [evaluate, evaluate]
  simp only [View.clauseAt_exchanged, scan_exchanged, firings]

end Matcher

/-! ### Runs -/

namespace Session

/-- A run hangs on what is found around the sprites. -/
theorem run_congr {s r : Session} (same : s.matchSprite = r.matchSprite) : s.run = r.run := by
  have matching : s.matchPhase = r.matchPhase := by
    funext w phase sprites button
    rw [matchPhase, matchPhase, same]
  have running : s.runPhase = r.runPhase := by
    funext e phase sprites button w
    rw [runPhase, runPhase, matching]
  have step : s.step = r.step := by
    funext w button
    rw [step, step, stepOn_eq, stepOn_eq, matching, running]
  funext buttons w
  induction buttons generalizing w with
  | nil => rfl
  | cons button rest ih =>
    rw [run, run, step]
    simp only [ih]

theorem tryView_exchanged (p : Project) (settings : Settings) (w : World) (sprite : Sprite) (phase : Phase)
    (button : Option Button) (v : View) : (new p.exchanged settings.exchanged).tryView w sprite phase button v.exchanged =
      (new p settings).tryView w sprite phase button v := by
  have candidate : (new p.exchanged settings.exchanged).isCandidate sprite phase button v.exchanged =
      (new p settings).isCandidate sprite phase button v := by
    rw [isCandidate, isCandidate, v.selects_exchanged]
    rfl
  have matched : (new p.exchanged settings.exchanged).matcher.evaluate w.grid sprite.id v.exchanged =
      (new p settings).matcher.evaluate w.grid sprite.id v :=
    (new p settings).matcher.evaluate_exchanged w.grid sprite.id v
  rw [tryView, tryView, candidate, matched]

/-- The same firings are found around every sprite. -/
theorem matchSprite_exchanged (p : Project) (settings : Settings) :
    (new p.exchanged settings.exchanged).matchSprite = (new p settings).matchSprite := by
  funext w phase button id
  have views : (new p.exchanged settings.exchanged).views = (new p settings).views.map View.exchanged :=
    p.allViews_exchanged
  have tried (sprite : Sprite) :
      (new p.exchanged settings.exchanged).tryView w sprite phase button ∘ View.exchanged =
        (new p settings).tryView w sprite phase button :=
    funext fun v => tryView_exchanged p settings w sprite phase button v
  rw [matchSprite, matchSprite, views]
  simp only [List.mapM_map, tried]

/-- The settings only say which set is which: with the sets exchanged in every guard of every rule, a project runs
    under the settings for the other set as it does under the settings themselves. -/
theorem run_exchanged (p : Project) (settings : Settings) (buttons : List (Option Button)) (w : World) :
    (new p.exchanged settings.exchanged).run buttons w = (new p settings).run buttons w := by
  rw [run_congr (matchSprite_exchanged p settings)]

end Session
end Playfield
