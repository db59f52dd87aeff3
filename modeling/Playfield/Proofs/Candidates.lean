import Mathlib.Data.List.ReduceOption
import Playfield.Proofs.Course
import Playfield.Proofs.Faultless

/-!
# Candidates

The editor looks rules up by the sprite kinds of their centres, as they are stored. A session looks at every view of every rule.
Both come to the same: the centre is where it is in every view, so what is left to the single view are its button and the facing
of its centre.
-/
namespace Playfield

/-- The triggers of the rules that belong to a phase. -/
def Phase.triggers : Phase → List Trigger
  | moving | resting => [.change, .button]
  | collision => [.collision]
  | negation => [.negation]

/-- A view of a rule is to be tried around a sprite. The rule is one that the editor lists for the kind of the sprite. -/
structure Project.Offers (p : Project) (w : World) (phase : Phase) (button : Option Button) (sprite : Sprite) (r : RuleId)
    (v : View) : Prop where
  unblocked : ¬w.isBlocked sprite.kind
  phase : v.rule.trigger ∈ phase.triggers
  pressed : v.rule.trigger = .button → ∃ k, button = some k ∧ v.button? = some k
  player : v.rule.trigger = .button → p.player = none ∨ p.player = some sprite.kind
  listed : ∃ ids, p.rulesForSpriteKind sprite.kind = .ok ids ∧ r ∈ ids
  facing : ∃ facing, v.centreFacing = .ok facing ∧ facing.accepts sprite.motion

/-! ### The centre -/

namespace Rule

/-- The clause at the centre. -/
def centre? (r : Rule) : Option Clause := (r.find? .centre).bind fun i => r.clauses[i]?

/-- The sprite kinds that the clause at the centre includes. -/
def centreKinds (r : Rule) : List Nat := (r.centre?.map fun c => c.sprites.includedKinds).getD []

end Rule

namespace View

variable {v : View} {kind : Nat} {motion : Option Heading}

/-- Every transform leaves the centre where it is. -/
theorem clauseAt_centre (v : View) : v.clauseAt .centre = .ok (v.rule.find? .centre) := by
  have fixed : v.kept .centre = .centre := by
    rw [kept]
    cases v.transform with
    | none => rfl
    | some t => cases t <;> decide
  rw [v.clauseAt_eq (by decide), place?, fixed]

theorem spriteKinds_eq (v : View) : v.spriteKinds = .ok v.rule.centreKinds := by
  rw [spriteKinds, View.centre?, clauseAt_centre]
  rfl

theorem hasSpriteKind_eq (v : View) (kind : Nat) : v.hasSpriteKind kind = .ok (decide (kind ∈ v.rule.centreKinds)) := by
  have included (d : Demands) : (d.get? kind).any Demand.includes = decide (kind ∈ d.includedKinds) := by
    rw [Bool.eq_iff_iff, decide_eq_true_iff, Demands.includedKinds, Demands.mem_kindsWhere, Option.any_eq_true]
  rw [hasSpriteKind, clauseAt_centre, ok_bind, Rule.centreKinds, Rule.centre?]
  cases v.rule.find? .centre with
  | none => rfl
  | some i =>
    rw [Option.bind_some, Option.bind_some, sprite?, clause?]
    cases v.rule.clauses[i]? with
    | none => rfl
    | some c => exact congrArg Except.ok (included c.sprites)

theorem exists_centreFacing (v : View) : ∃ facing, v.centreFacing = .ok facing := by
  rw [centreFacing, clauseAt_centre]
  exact ⟨_, rfl⟩

theorem selects_eq {facing : Facing} (asked : v.centreFacing = .ok facing) :
    v.selects kind motion = .ok (decide (kind ∈ v.rule.centreKinds) && facing.accepts motion) := by
  rw [selects, asked, ok_bind, hasSpriteKind_eq]
  rfl

/-- What a view asks of the motion of a sprite is what the editor shows, unless it is a button that tells the heading. -/
theorem facing_eq (trigger : v.rule.trigger = .change ∨ v.rule.trigger = .collision) : v.facing = v.centreFacing := by
  rw [facing]
  rcases trigger with change | collision
  · rw [change]
  · rw [collision]

theorem accepts_iff {phase : Phase} {button : Option Button} : v.accepts phase button = true ↔
    v.rule.trigger ∈ phase.triggers ∧ (v.rule.trigger = .button → ∃ k, button = some k ∧ v.button? = some k) := by
  unfold accepts
  generalize v.button? = shown
  cases phase <;> cases v.rule.trigger <;> cases button <;> simp [Phase.triggers]

theorem controls_iff {player : Option Nat} :
    v.controls player kind = true ↔ (v.rule.trigger = .button → player = none ∨ player = some kind) := by
  rw [controls]
  cases v.rule.trigger <;> cases player <;> simp

end View

/-! ### Rules by kind -/

namespace Project

variable {p : Project} {r : RuleId} {rule : Rule}

theorem rulesForSpriteKind_eq (p : Project) (kind : Nat) :
    p.rulesForSpriteKind kind = .ok ((p.rules.toList.filter fun e => kind ∈ e.2.centreKinds).map (·.1)) := by
  rw [rulesForSpriteKind, filterM_eq_ok_filter fun v _ => v.hasSpriteKind_eq kind, ok_bind, views, List.filter_map,
    List.filterMap_map]
  exact congrArg Except.ok (congrFun List.filterMap_eq_map _)

theorem listed_iff (live : p.rule? r = some rule) {kind : Nat} :
    (∃ ids, p.rulesForSpriteKind kind = .ok ids ∧ r ∈ ids) ↔ kind ∈ rule.centreKinds := by
  simp only [rulesForSpriteKind_eq, Except.ok.injEq, exists_eq_left', List.mem_map, List.mem_filter, decide_eq_true_iff]
  constructor
  · rintro ⟨⟨_, other⟩, ⟨listed, includes⟩, rfl⟩
    cases live.symm.trans (RuleBook.mem_toList.mp listed)
    exact includes
  · intro includes
    exact ⟨(r, rule), ⟨RuleBook.mem_toList.mpr live, includes⟩, rfl⟩

theorem mem_allViews_of_rule (live : p.rule? r = some rule) {v : View} (shown : v ∈ (View.base rule r p.kinds).all) :
    v ∈ p.allViews := by
  refine List.mem_flatMap.mpr ⟨.base rule r p.kinds, ?_, shown⟩
  exact List.mem_map.mpr ⟨(r, rule), RuleBook.mem_toList.mpr live, rfl⟩

/-- A view is told by its rule and its transform. -/
theorem eq_of_source {v u : View} (shown : v ∈ p.allViews) (also : u ∈ p.allViews) (id : u.id = v.id)
    (transform : u.transform = v.transform) : u = v := by
  obtain ⟨kinds, r, own, live⟩ := mem_allViews shown
  obtain ⟨kinds', r', own', live'⟩ := mem_allViews also
  obtain ⟨rule, id, t, known⟩ := v
  obtain ⟨rule', id', t', known'⟩ := u
  dsimp only at *
  subst id transform kinds kinds'
  cases own.symm.trans own'
  cases live.symm.trans live'
  rfl

end Project

theorem View.of_mem_all {rule : Rule} {r : RuleId} {kinds : Kinds} {v : View} (shown : v ∈ (View.base rule r kinds).all) :
    v.rule = rule ∧ v.id = some r := by
  rcases List.mem_cons.mp shown with rfl | derived
  · exact ⟨rfl, rfl⟩
  · obtain ⟨t, _, rfl⟩ := List.mem_map.mp derived
    exact ⟨rfl, rfl⟩

/-! ### What is tried -/

namespace Session

variable {p : Project} {settings : Settings} {s : Session} {w : World} {phase : Phase} {button : Option Button}

theorem isCandidate_iff {sprite : Sprite} {v : View} : s.isCandidate sprite phase button v = .ok true ↔
    v.accepts phase button ∧ v.controls s.project.player sprite.kind ∧ sprite.kind ∈ v.rule.centreKinds ∧
      ∃ facing, v.centreFacing = .ok facing ∧ facing.accepts sprite.motion := by
  obtain ⟨facing, asked⟩ := v.exists_centreFacing
  rw [isCandidate, View.selects_eq asked, asked]
  simp only [Except.ok.injEq, exists_eq_left']
  by_cases belongs : v.accepts phase button ∧ v.controls s.project.player sprite.kind
  · rw [if_pos (by simpa using belongs)]
    simp [belongs]
  · rw [if_neg (by simpa using belongs)]
    simp only [pure_eq_ok, Bool.false_eq_true, false_iff]
    exact fun all => belongs ⟨all.1, all.2.1⟩

theorem matchPhase_single (id : SpriteId) : s.matchPhase w phase [id] button = s.matchSprite w phase button id := by
  rw [matchPhase, List.mapM_cons, List.mapM_nil]
  cases s.matchSprite w phase button id with
  | error cause => rfl
  | ok firings => exact congrArg Except.ok (List.append_nil firings)

/-- What matches around a sprite is what matches of the views that are tried. -/
theorem mem_matchSprite_iff {id : SpriteId} {sprite : Sprite} (found : w.sprite? id = some sprite)
    {firings : List (Firing SpriteId)} (matched : s.matchSprite w phase button id = .ok firings) {f : Firing SpriteId} :
    f ∈ firings ↔ ¬w.isBlocked sprite.kind ∧ ∃ v ∈ s.views, s.tryView w sprite phase button v = .ok (some f) := by
  rw [matchSprite, found] at matched
  dsimp only at matched
  by_cases blocked : w.isBlocked sprite.kind
  · rw [if_pos blocked] at matched
    cases pure_eq_ok.mp matched
    simp [blocked]
  · rw [if_neg blocked] at matched
    obtain ⟨places, tried, done⟩ := bind_eq_ok.mp matched
    cases pure_eq_ok.mp done
    rw [List.reduceOption_mem_iff, mem_mapM_iff tried, and_iff_right blocked]

theorem offers_iff {sprite : Sprite} {r : RuleId} {v : View} (live : p.rule? r = some v.rule) :
    p.Offers w phase button sprite r v ↔
      ¬w.isBlocked sprite.kind ∧ (new p settings).isCandidate sprite phase button v = .ok true := by
  rw [isCandidate_iff, View.accepts_iff, View.controls_iff, ← Project.listed_iff live]
  constructor
  · intro offers
    exact ⟨offers.unblocked, ⟨offers.phase, offers.pressed⟩, offers.player, offers.listed, offers.facing⟩
  · rintro ⟨unblocked, ⟨phase, pressed⟩, player, listed, facing⟩
    exact ⟨unblocked, phase, pressed, player, listed, facing⟩

/-- Of all views only one gives the firings that name its rule and its transform. -/
theorem tried_iff {v : View} (shown : v ∈ p.allViews) {r : RuleId} (own : v.id = some r) {sprite : Sprite}
    {f : Firing SpriteId} :
    ((∃ u ∈ (new p settings).views, (new p settings).tryView w sprite phase button u = .ok (some f)) ∧ f.rule = some r ∧
        f.transform = v.transform) ↔
      (new p settings).isCandidate sprite phase button v = .ok true ∧
        (new p settings).matcher.evaluate w.grid sprite.id v = .ok (some f) := by
  rw [← tryView_eq_some_iff]
  constructor
  · rintro ⟨⟨u, listed, tried⟩, rule, transform⟩
    obtain ⟨source, way⟩ := Matcher.source_of_evaluate (evaluate_of_tryView tried).2
    obtain rfl := Project.eq_of_source shown listed (source.symm.trans (rule.trans own.symm)) (way.symm.trans transform)
    exact tried
  · intro tried
    obtain ⟨source, way⟩ := Matcher.source_of_evaluate (evaluate_of_tryView tried).2
    exact ⟨⟨v, shown, tried⟩, source.trans own, way⟩

/-- What a session matches around a sprite and what the editor lists for its kind agree. Of the views of a rule those fire that
    the rule offers and that match, and the kinds and facings that the editor shows of a view are those that the session looks
    at. -/
theorem fires_iff_offered (p : Project) (settings : Settings) {w : World} (reached : w.Reachable) (phase : Phase)
    (button : Option Button) {id : SpriteId} {sprite : Sprite} (found : w.sprite? id = some sprite) {r : RuleId} {rule : Rule}
    (live : p.rule? r = some rule) {v : View} (shown : v ∈ (View.base rule r p.kinds).all) :
    (w.Roomy → ∃ firings, (new p settings).matchPhase w phase [id] button = .ok firings) ∧
      (∀ firings, (new p settings).matchPhase w phase [id] button = .ok firings → ∀ f,
        (f ∈ firings ∧ f.rule = some r ∧ f.transform = v.transform) ↔
          p.Offers w phase button sprite r v ∧ (new p settings).matcher.evaluate w.grid id v = .ok (some f)) ∧
      ∃ kinds facing, (View.base rule r p.kinds).spriteKinds = .ok kinds ∧ v.spriteKinds = .ok kinds ∧
        (∀ kind, v.hasSpriteKind kind = .ok (decide (kind ∈ kinds))) ∧ v.facing = .ok facing ∧
          (rule.trigger = .change ∨ rule.trigger = .collision →
            ∀ kind motion, v.selects kind motion = .ok (decide (kind ∈ kinds) && facing.accepts motion)) := by
  obtain ⟨rfl, own⟩ := View.of_mem_all shown
  refine ⟨fun roomy => ?_, fun firings matched f => ?_, ?_⟩
  · exact ((new p settings).defined_matchPhase w phase button [id]).exists_of_not (not_not_intro roomy)
  · rw [matchPhase_single] at matched
    rw [mem_matchSprite_iff found matched, and_assoc, tried_iff (Project.mem_allViews_of_rule live shown) own,
      offers_iff live, and_assoc, reached.consistent.own_id id sprite found]
  · obtain ⟨facing, asked⟩ := v.exists_facing
    refine ⟨v.rule.centreKinds, facing, View.spriteKinds_eq _, v.spriteKinds_eq, v.hasSpriteKind_eq, asked, ?_⟩
    intro trigger kind motion
    exact View.selects_eq ((View.facing_eq trigger).symm.trans asked)

/-- A project whose player goes up when the up arrow is pressed while it does, and likewise after a quarter turn. -/
def helm : Project where
  config := ⟨⟨2, 2⟩, some 0⟩
  rules := ⟨IdMap.empty.insert 0 (some {
    Rule.blanket .button (.one .quarterRight) [] with
    arg := code Heading.up
    clauses := (Rule.blanket .button .none [.move (.go .up)]).clauses.map fun c => { c with facing := .up } }), 1⟩

theorem helm_fires : ∃ w firings f, World.train = .ok w ∧
    (new helm .standard).matchPhase w .moving [⟨0⟩] (some (.arrow .right)) = .ok firings ∧
    f ∈ firings ∧ f.rule = some ⟨0⟩ ∧ f.transform = some .quarterRight := by
  obtain ⟨w, sprite, rule, v, f, built, bounded, found, live, shown, offered, matched, way⟩ : ∃ w sprite rule v f,
      World.train = .ok w ∧ w.Bounded ∧ w.sprite? ⟨0⟩ = some sprite ∧ helm.rule? ⟨0⟩ = some rule ∧
      v ∈ (View.base rule ⟨0⟩ helm.kinds).all ∧ helm.Offers w .moving (some (.arrow .right)) sprite ⟨0⟩ v ∧
      (new helm .standard).matcher.evaluate w.grid ⟨0⟩ v = .ok (some f) ∧ v.transform = some .quarterRight := by
    refine ⟨_, _, _, _, _, rfl, by unfold World.Bounded; decide, rfl, rfl, List.mem_cons_of_mem _ List.mem_cons_self, ?_,
      rfl, rfl⟩
    exact ⟨by decide, by decide, fun _ => ⟨_, rfl, rfl⟩, fun _ => .inr rfl, ⟨_, rfl, by decide⟩, ⟨_, rfl, by decide⟩⟩
  obtain ⟨defined, fires, _⟩ :=
    fires_iff_offered helm .standard (World.reachable_of_train built) .moving (some (.arrow .right)) found live shown
  obtain ⟨firings, answered⟩ := defined ((World.reachable_of_train built).consistent.roomy bounded)
  obtain ⟨member, source, transform⟩ := (fires firings answered f).mpr ⟨offered, matched⟩
  exact ⟨w, firings, f, built, answered, member, source, transform.trans way⟩

end Session
end Playfield
