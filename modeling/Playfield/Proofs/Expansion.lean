import Playfield.Proofs.Materialise
import Playfield.Proofs.RuleBooks
import Playfield.Proofs.Simulation

/-!
# Projects written out

Instead of giving a rule a symmetry one can write every variant of it as a rule of its own, without
symmetry. The project that has all of them runs as the one it comes from, tick by tick; only the
names of the rules in the reports differ.
-/
namespace Playfield

/-- The ways in which a rule is seen: as it is, and through the transforms that its symmetry adds. -/
def Rule.ways (r : Rule) : List (Option Transform) := none :: r.symmetry.transforms.map some

namespace Project

/-- The rules, each in all its ways, by ascending id. -/
def sources (p : Project) : List Source := p.rules.toList.flatMap fun e => e.2.ways.map fun t => (e.1, t)

/-- A fresh project with every rule written out in all its ways, by ascending id. -/
def expanded (p : Project) : Except ProjectError Project :=
  (Project.new p.config).addRules (p.rules.toList.flatMap fun e => e.2.ways.map e.2.through)

/-- A rule of the expanded project, which is seen as it is, stands for a rule seen in one of its ways. -/
def StandsFor (p : Project) (a b : Source) : Prop := a.2 = none ∧ p.sources[a.1.raw]? = some b

/-! ### Views -/

/-- The views of all rules in all their ways. -/
def allViews (p : Project) : List View := p.views.flatMap View.all

theorem allViews_eq (p : Project) :
    p.allViews = p.rules.toList.flatMap fun e => e.2.ways.map fun t => ⟨e.2, some e.1, t, p.kinds⟩ := by
  rw [allViews, views, List.flatMap_map]
  apply List.flatMap_congr
  intro e _
  simp [View.all, View.derived, View.base, Rule.ways]

theorem mem_allViews {p : Project} {v : View} (member : v ∈ p.allViews) :
    v.kinds = p.kinds ∧ ∃ id, v.id = some id ∧ p.rule? id = some v.rule := by
  rw [allViews_eq] at member
  obtain ⟨⟨id, rule⟩, listed, shown⟩ := List.mem_flatMap.mp member
  obtain ⟨t, _, rfl⟩ := List.mem_map.mp shown
  exact ⟨rfl, id, rfl, RuleBook.mem_toList.mp listed⟩

/-- The source that a view of a rule of a project shows. -/
theorem map_source_allViews (p : Project) :
    p.allViews.map (fun v => v.id.map fun rule => (rule, v.transform)) = p.sources.map some := by
  rw [allViews_eq, sources, List.map_flatMap, List.map_flatMap]
  apply List.flatMap_congr
  intro e _
  simp

theorem expanded_eq (p : Project) :
    p.expanded = (Project.new p.config).addRules (p.allViews.map fun v => v.rule.through v.transform) := by
  rw [expanded, allViews_eq, List.map_flatMap]
  refine congrArg _ (List.flatMap_congr ?_)
  intro e _
  simp

theorem config_expanded {p q : Project} (written : p.expanded = .ok q) : q.config = p.config :=
  (toList_addRules RuleBook.bounded_empty written).1

theorem allViews_expanded {p q : Project} (written : p.expanded = .ok q) :
    q.allViews = p.allViews.zipIdx.map fun e => e.1.written (some ⟨e.2⟩) := by
  have kinds : q.kinds = p.kinds := congrArg ProjectConfig.kinds (config_expanded written)
  rw [expanded_eq] at written
  have listed := (toList_addRules RuleBook.bounded_empty written).2
  have rules : q.rules.toList =
      p.allViews.zipIdx.map fun e => (⟨e.2⟩, e.1.rule.through e.1.transform) := by
    rw [listed, List.zipIdx_map, List.map_map]
    rfl
  rw [allViews, views, rules, List.map_map, List.flatMap_map, List.map_eq_flatMap]
  apply List.flatMap_congr
  rintro ⟨v, k⟩ member
  have known : v.kinds = p.kinds := (mem_allViews (List.fst_mem_of_mem_zipIdx member)).1
  simp [View.all, View.derived, View.base, View.written, Rule.through_symmetry, Symmetry.transforms, kinds, known]

theorem forall₂_zipIdx {α : Type} (l : List α) : List.Forall₂ (fun e a => e.1 = a ∧ l[e.2]? = some a) l.zipIdx l := by
  refine List.forall₂_iff_get.mpr ⟨List.length_zipIdx, ?_⟩
  intro i inside also
  simp [List.getElem?_eq_getElem also]

end Project

namespace View

variable {v : View} {id : Option RuleId}

theorem written_accepts (v : View) (id : Option RuleId) : (v.written id).accepts = v.accepts := by
  funext phase button
  have trigger : (v.written id).rule.trigger = v.rule.trigger := Rule.through_trigger v.transform v.rule
  unfold accepts
  rw [written_button?, trigger]

theorem written_controls (v : View) (id : Option RuleId) : (v.written id).controls = v.controls := by
  funext player kind
  rw [controls, controls, written, Rule.through_trigger]

theorem written_selects (inside : v.rule.InWindow) : (v.written id).selects = v.selects := by
  funext kind motion
  rw [selects, selects, written_centreFacing inside, written_hasSpriteKind inside]

end View

theorem Matcher.firing_of_evaluate {ι : Type} {m : Matcher} {g : Grid ι} {sprite : ι} {v : View} {f : Firing ι}
    (matched : m.evaluate g sprite v = .ok (some f)) :
    ∃ home centre around, f = firing g sprite v home centre around := by
  rw [evaluate] at matched
  split at matched
  · cases pure_eq_ok.mp matched
  · obtain ⟨centre, _, matched⟩ := bind_eq_ok.mp matched
    obtain ⟨around, _, matched⟩ := bind_eq_ok.mp matched
    obtain ⟨neighbours, _, rfl⟩ := Option.map_eq_some_iff.mp (pure_eq_ok.mp matched)
    exact ⟨_, centre, neighbours, rfl⟩

/-- A firing comes from the view that was matched. -/
theorem Matcher.source_of_evaluate {ι : Type} {m : Matcher} {g : Grid ι} {sprite : ι} {v : View} {f : Firing ι}
    (matched : m.evaluate g sprite v = .ok (some f)) : f.rule = v.id ∧ f.transform = v.transform := by
  obtain ⟨_, _, _, rfl⟩ := firing_of_evaluate matched
  exact ⟨rfl, rfl⟩

namespace Session

variable {p q : Project}

theorem evaluate_alike {m : Matcher} {g : Grid SpriteId} {sprite : SpriteId} {v : View} {T : Source → Source → Prop}
    {id : RuleId} (inside : v.rule.InWindow)
    (stands : ∃ rule, v.id = some rule ∧ T (id, none) (rule, v.transform)) :
    Alike (Option.Rel (Firing.Agrees T)) (m.evaluate g sprite (v.written (some id))) (m.evaluate g sprite v) := by
  obtain ⟨rule, own, related⟩ := stands
  rw [m.evaluate_written g sprite inside]
  cases matched : m.evaluate g sprite v with
  | error cause => exact .error cause
  | ok result =>
    cases result with
    | none => exact .ok .none
    | some f =>
      obtain ⟨same, seen⟩ := Matcher.source_of_evaluate matched
      refine .ok (.some ⟨?_, rfl, rfl, rfl⟩)
      rw [Firing.source, Firing.source, same, own, seen]
      exact .some related

/-- A rule that is written out is tried as the view for which it stands. -/
theorem tryView_alike (written : p.expanded = .ok q) (settings : Settings) (w : World) (sprite : Sprite)
    (phase : Phase) (button : Option Button) {v : View} {k : Nat} (inside : v.rule.InWindow)
    (member : p.allViews[k]? = some v) :
    Alike (Option.Rel (Firing.Agrees p.StandsFor))
      ((Session.new q settings).tryView w sprite phase button (v.written (some ⟨k⟩)))
      ((Session.new p settings).tryView w sprite phase button v) := by
  have config := Project.config_expanded written
  have candidate : (Session.new q settings).isCandidate sprite phase button (v.written (some ⟨k⟩)) =
      (Session.new p settings).isCandidate sprite phase button v := by
    have player : q.player = p.player := congrArg ProjectConfig.player config
    rw [isCandidate, isCandidate, View.written_accepts, View.written_controls, View.written_selects inside]
    show ite (_ && v.controls q.player _) _ _ = _
    rw [player]
    rfl
  have matcher : (Session.new q settings).matcher = (Session.new p settings).matcher := by
    have kinds : q.kinds = p.kinds := congrArg ProjectConfig.kinds config
    rw [Session.new, Session.new, kinds]
  obtain ⟨_, rule, own, _⟩ := Project.mem_allViews (List.mem_of_getElem? member)
  have stands : p.StandsFor (⟨k⟩, none) (rule, v.transform) := by
    have shown := congrArg (·[k]?) (Project.map_source_allViews p)
    simp only [List.getElem?_map, member, own, Option.map_some] at shown
    obtain ⟨source, listed, same⟩ := Option.map_eq_some_iff.mp shown.symm
    rw [Option.some.inj same] at listed
    exact ⟨rfl, listed⟩
  rw [tryView, tryView, candidate, matcher]
  refine (Alike.refl (fun _ => rfl) _).bind ?_
  rintro selected _ rfl
  cases selected with
  | false => exact .ok .none
  | true => exact evaluate_alike inside ⟨rule, own, stands⟩

/-- Around every sprite the rules that are written out match where the views do for which they stand. -/
theorem matchesAs_expanded (inside : ∀ id rule, p.rule? id = some rule → rule.InWindow)
    (written : p.expanded = .ok q) (settings : Settings) :
    MatchesAs p.StandsFor (Session.new q settings) (Session.new p settings) := by
  intro w phase button id
  rw [matchSprite, matchSprite]
  cases w.sprite? id with
  | none => exact .ok .nil
  | some sprite =>
    show Alike _ (if _ then _ else _) (if _ then _ else _)
    split
    · exact .ok .nil
    · have pairs : List.Forall₂ (fun u v => ∃ k : Nat, u = v.written (some ⟨k⟩) ∧ p.allViews[k]? = some v)
          q.allViews p.allViews := by
        rw [Project.allViews_expanded written]
        refine List.forall₂_map_left_iff.mpr ((Project.forall₂_zipIdx _).imp ?_)
        rintro ⟨u, k⟩ v ⟨rfl, member⟩
        exact ⟨k, rfl, member⟩
      refine (Alike.mapM pairs ?_).map fun _ _ places => forall₂_reduceOption places
      rintro _ v ⟨k, rfl, member⟩
      obtain ⟨_, rule, _, found⟩ := Project.mem_allViews (List.mem_of_getElem? member)
      exact tryView_alike written settings w sprite phase button (inside rule v.rule found) member

/-- A project whose clauses all lie in the window and the project that has every rule written out in all its ways
    run alike: after every tick the worlds are the same, and the reports agree entry by entry once every rule
    is read as what it stands for. -/
theorem run_expanded (inside : ∀ id rule, p.rule? id = some rule → rule.InWindow) (written : p.expanded = .ok q)
    (settings : Settings) (w : World) (buttons : List (Option Button)) :
    Alike (List.Forall₂ fun x y => x.1.Agrees p.StandsFor y.1 ∧ x.2 = y.2)
      ((Session.new q settings).run buttons w) ((Session.new p settings).run buttons w) :=
  (matchesAs_expanded inside written settings).run buttons w

/-- A sprite of the only kind that moves to the left is turned upward, and so on around. -/
def windmill : Project where
  config := ⟨⟨2, 1⟩, none⟩
  rules := {
    slots := IdMap.empty.insert 0 (some {
      trigger := .change
      arg := 0
      clauses := [{
        cell := .centre
        backgrounds := ⟨2, [12], rfl, by rintro _ b ⟨⟩; decide⟩
        sprites := ⟨1, [2], rfl, by rintro _ b ⟨⟩; decide⟩
        facing := .left
        commands := [.move (.go .up)] }]
      symmetry := .turns })
    next := 1 }

theorem run_windmill : ∃ q, windmill.expanded = .ok q ∧ q.rules.size = 4 ∧ ∀ settings w buttons,
    Alike (List.Forall₂ fun x y => x.1.Agrees windmill.StandsFor y.1 ∧ x.2 = y.2)
      ((Session.new q settings).run buttons w) ((Session.new windmill settings).run buttons w) := by
  have inside : ∀ id rule, windmill.rule? id = some rule → rule.InWindow := by
    intro id rule found
    have listed : (id, rule) ∈ windmill.rules.toList := RuleBook.mem_toList.mpr found
    cases List.mem_singleton.mp listed
    intro c member
    cases List.mem_singleton.mp member
    decide
  have written : ∃ q, windmill.expanded = .ok q ∧ q.rules.size = 4 := ⟨_, rfl, rfl⟩
  obtain ⟨q, written, four⟩ := written
  exact ⟨q, written, four, run_expanded inside written⟩

end Session
end Playfield
