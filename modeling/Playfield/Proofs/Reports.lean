import Mathlib.Data.List.ReduceOption
import Playfield.Proofs.Course
import Playfield.Proofs.GreatestMove

/-!
# The form of a report

A report has one form. What fires is told phase by phase, and in a phase by ascending sprite, rule and view, so that
nothing is told twice; the same goes for what must never occur. It names live rules only, and with the sprites that were
brought to rest it leaves none out.
-/
namespace Playfield

/-! ### Lists in the order of their keys -/

/-- Lists that are put together in the order of a key, each of them in the order of the rest of the key, are in order. -/
theorem pairwise_flatMap_of_keys {α β : Type} {l : List α} {g : α → List β} {key : β → List Nat} (k : α → Nat)
    (rest : β → List Nat) (head : ∀ a ∈ l, ∀ b ∈ g a, key b = k a :: rest b) (ordered : l.Pairwise fun a b => k a < k b)
    (each : ∀ a ∈ l, (g a).Pairwise fun b c => rest b < rest c) : (l.flatMap g).Pairwise fun b c => key b < key c := by
  rw [List.pairwise_flatMap]
  constructor
  · intro a member
    refine (each a member).imp_of_mem ?_
    intro b c first second less
    rw [head a member b first, head a member c second, List.cons_lt_cons_iff]
    exact .inr ⟨rfl, less⟩
  · refine ordered.imp_of_mem ?_
    intro a a' member member' less b first c second
    rw [head a member b first, head a' member' c second, List.cons_lt_cons_iff]
    exact .inl less

theorem pairwise_idxOf {α : Type} [BEq α] [LawfulBEq α] {l : List α} (distinct : l.Nodup) :
    l.Pairwise fun a b => l.idxOf a < l.idxOf b := by
  rw [List.pairwise_iff_getElem]
  intro i j i_lt j_lt less
  rwa [distinct.idxOf_getElem i i_lt, distinct.idxOf_getElem j j_lt]

/-- What is gathered from the values of a list is part of what its members could give. -/
theorem flatMap_sublist_of_mapM {ε α β γ : Type} {f : α → Except ε β} {h : β → List γ} {g : α → List γ} {l : List α}
    (each : ∀ a b, f a = .ok b → (h b).Sublist (g a)) {images : List β} (mapped : l.mapM f = .ok images) :
    (images.flatMap h).Sublist (l.flatMap g) := by
  induction l generalizing images with
  | nil =>
    cases pure_eq_ok.mp mapped
    exact .refl _
  | cons a rest ih =>
    rw [List.mapM_cons] at mapped
    obtain ⟨b, first, mapped⟩ := bind_eq_ok.mp mapped
    obtain ⟨others, later, done⟩ := bind_eq_ok.mp mapped
    cases pure_eq_ok.mp done
    exact (each a b first).append (ih later)

theorem filterMap_reduceOption {α β : Type} (key : α → Option β) (places : List (Option α)) :
    places.reduceOption.filterMap key = places.flatMap fun place => (place.bind key).toList := by
  rw [List.reduceOption, List.filterMap_filterMap, List.filterMap_eq_flatMap_toList]
  rfl

/-! ### Sources in order -/

namespace Rule

/-- No two of the ways in which a rule is seen are the same. -/
theorem nodup_ways (r : Rule) : r.ways.Nodup := by
  rw [ways]
  cases r.symmetry with
  | none => decide
  | one t => simp [Symmetry.transforms]
  | turns => decide

end Rule

namespace Project

/-- The place of a source among the views of its rule. -/
def viewPlace (p : Project) (a : Source) : Nat :=
  ((p.view? a.1).map fun v => (v.all.map (·.transform)).idxOf a.2).getD 0

/-- The order in which what matches is told: by sprite, rule and view. -/
def hitKey (p : Project) (hit : Hit) : List Nat := [hit.1.raw, hit.2.1.raw, p.viewPlace hit.2]

/-- The order in which what fires is told: by phase, sprite, rule and view. -/
def firedKey (p : Project) (x : Fired) : List Nat := (code x.phase).toNat :: p.hitKey x.hit

variable {p : Project}

theorem viewPlace_eq {id : RuleId} {rule : Rule} (found : p.rule? id = some rule) (t : Option Transform) :
    p.viewPlace (id, t) = rule.ways.idxOf t := by
  have shown : (View.base rule id p.kinds).all.map (·.transform) = rule.ways := by
    simp [View.all, View.derived, View.base, Rule.ways]
  rw [viewPlace, view?, found, Option.map_some, Option.map_some, shown]
  rfl

theorem mem_sources {a : Source} : a ∈ p.sources ↔ ∃ rule, p.rule? a.1 = some rule ∧ a.2 ∈ rule.ways := by
  obtain ⟨id, t⟩ := a
  rw [sources, List.mem_flatMap]
  constructor
  · rintro ⟨⟨_, rule⟩, listed, member⟩
    obtain ⟨_, way, same⟩ := List.mem_map.mp member
    cases same
    exact ⟨rule, RuleBook.mem_toList.mp listed, way⟩
  · rintro ⟨rule, found, way⟩
    exact ⟨(id, rule), RuleBook.mem_toList.mpr found, List.mem_map_of_mem way⟩

theorem sources_ascending (p : Project) :
    p.sources.Pairwise fun a b => [a.1.raw, p.viewPlace a] < [b.1.raw, p.viewPlace b] := by
  refine pairwise_flatMap_of_keys (fun e => e.1.raw) (fun a => [p.viewPlace a]) ?_ p.rules.toList_ascending ?_
  · intro e _ a member
    obtain ⟨_, _, rfl⟩ := List.mem_map.mp member
    rfl
  · intro e listed
    rw [List.pairwise_map]
    refine (pairwise_idxOf e.2.nodup_ways).imp ?_
    intro t u less
    have found : p.rule? e.1 = some e.2 := RuleBook.mem_toList.mp listed
    rw [viewPlace_eq found, viewPlace_eq found, List.cons_lt_cons_iff]
    exact .inl less

/-- All that could match around sprites, sprite by sprite. -/
def hits (p : Project) (sprites : List SpriteId) : List Hit := sprites.flatMap fun id => p.sources.map fun a => (id, a)

theorem mem_hits {sprites : List SpriteId} {hit : Hit} : hit ∈ p.hits sprites ↔ hit.1 ∈ sprites ∧ hit.2 ∈ p.sources := by
  obtain ⟨id, a⟩ := hit
  simp [hits]

theorem hits_ascending {sprites : List SpriteId} (ascending : sprites.Pairwise fun a b => a.raw < b.raw) :
    (p.hits sprites).Pairwise fun x y => p.hitKey x < p.hitKey y := by
  refine pairwise_flatMap_of_keys SpriteId.raw (fun hit => [hit.2.1.raw, p.viewPlace hit.2]) ?_ ascending ?_
  · intro id _ hit member
    obtain ⟨_, _, rfl⟩ := List.mem_map.mp member
    rfl
  · intro id _
    exact List.pairwise_map.mpr p.sources_ascending

end Project

/-! ### What matches in a phase -/

namespace Session

variable {p : Project} {settings : Settings} {w : World}

theorem hit_of_tryView {s : Session} {sprite : Sprite} {phase : Phase} {button : Option Button} {v : View}
    {f : Firing SpriteId} (tried : s.tryView w sprite phase button v = .ok (some f)) :
    f.hit? = (v.id.map fun rule => (rule, v.transform)).map fun a => (sprite.id, a) := by
  obtain ⟨_, _, _, rfl⟩ := Matcher.firing_of_evaluate (evaluate_of_tryView tried).2
  rfl

theorem hits_of_matchSprite (c : w.Consistent) {phase : Phase} {button : Option Button} {id : SpriteId}
    {fs : List (Firing SpriteId)} (matched : (new p settings).matchSprite w phase button id = .ok fs) :
    (fs.filterMap Firing.hit?).Sublist (p.sources.map fun a => (id, a)) := by
  rw [matchSprite] at matched
  split at matched
  · cases pure_eq_ok.mp matched
    exact List.nil_sublist _
  · rename_i sprite found
    split at matched
    · cases pure_eq_ok.mp matched
      exact List.nil_sublist _
    · obtain ⟨places, mapped, done⟩ := bind_eq_ok.mp matched
      cases pure_eq_ok.mp done
      -- Every view gives the hit of its own source, or none.
      have all : p.allViews.flatMap (fun v => ((v.id.map fun rule => (rule, v.transform)).map fun a => (id, a)).toList) =
          p.sources.map fun a => (id, a) := by
        have shown := congrArg (List.filterMap (Option.map fun a : Source => (id, a))) p.map_source_allViews
        rw [List.filterMap_map, List.filterMap_map, List.filterMap_eq_flatMap_toList] at shown
        exact shown.trans (congrFun List.filterMap_eq_map _)
      rw [filterMap_reduceOption, ← all]
      refine flatMap_sublist_of_mapM ?_ mapped
      intro v place tried
      cases place with
      | none => exact List.nil_sublist _
      | some f =>
        rw [Option.bind_some, hit_of_tryView tried, c.own_id id sprite found]

/-- What matches in a phase is part of what could, in the same order. -/
theorem hits_of_matchPhase (c : w.Consistent) {phase : Phase} {sprites : List SpriteId} {button : Option Button}
    {fs : List (Firing SpriteId)} (matched : (new p settings).matchPhase w phase sprites button = .ok fs) :
    (fs.filterMap Firing.hit?).Sublist (p.hits sprites) := by
  obtain ⟨rows, mapped, done⟩ := bind_eq_ok.mp matched
  cases pure_eq_ok.mp done
  rw [List.filterMap_flatten, ← List.flatMap_def]
  exact flatMap_sublist_of_mapM (fun id fs matched => hits_of_matchSprite c matched) mapped

theorem sprites_ascending {start : World} (c : start.Consistent) (c' : w.Consistent) (phase : Phase) :
    (phase.sprites start w).Pairwise fun a b => a.raw < b.raw := by
  cases phase with
  | moving | resting => exact List.pairwise_map.mpr (c.sprites_ascending.filter _)
  | collision => exact List.pairwise_map.mpr (c'.sprites_ascending.filter _)
  | negation => exact List.pairwise_map.mpr c'.sprites_ascending

namespace Course

variable {v : World} {button : Option Button} {report : Report}

theorem hits_sublist (c : (new p settings).Course World.engine w button report v) (start : w.Consistent) (phase : Phase) :
    ((c.firings phase).filterMap Firing.hit?).Sublist (p.hits (phase.sprites w (c.world phase))) :=
  hits_of_matchPhase (c.consistent start phase) (c.matched phase)

theorem hits_ascending (c : (new p settings).Course World.engine w button report v) (start : w.Consistent)
    (phase : Phase) :
    ((c.firings phase).filterMap Firing.hit?).Pairwise fun x y => p.hitKey x < p.hitKey y :=
  (Project.hits_ascending (sprites_ascending start (c.consistent start phase) phase)).sublist (c.hits_sublist start phase)

theorem fired_ascending (c : (new p settings).Course World.engine w button report v) (start : w.Consistent) :
    report.fired.Pairwise fun x y => p.firedKey x < p.firedKey y := by
  rw [c.fired_eq]
  refine pairwise_flatMap_of_keys (fun phase => (code phase).toNat) (fun x => p.hitKey x.hit) ?_ (by decide) ?_
  · intro phase running x member
    rw [Project.firedKey, c.phase_fired running member]
  · intro phase running
    have ascending := c.hits_ascending start phase
    rwa [← c.hits_fired running, List.pairwise_map] at ascending

theorem violations_ascending (c : (new p settings).Course World.engine w button report v) (start : w.Consistent) :
    report.violations.Pairwise fun x y => p.hitKey x.hit < p.hitKey y.hit := by
  have ascending := c.hits_ascending start .negation
  rwa [← c.hits_violations, List.pairwise_map] at ascending

/-- What fires fires around a sprite of its phase, and comes from a live rule. -/
theorem mem_hits_of_fired (c : (new p settings).Course World.engine w button report v) (start : w.Consistent) {x : Fired}
    (member : x ∈ report.fired) :
    x.sprite ∈ x.phase.sprites w (c.world x.phase) ∧ (x.rule, x.transform) ∈ p.sources := by
  obtain ⟨running, member⟩ := c.mem_fired member
  have hit : x.hit ∈ (c.firings x.phase).filterMap Firing.hit? := c.hits_fired running ▸ List.mem_map_of_mem member
  exact Project.mem_hits.mp ((c.hits_sublist start x.phase).subset hit)

theorem mem_hits_of_violation (c : (new p settings).Course World.engine w button report v) (start : w.Consistent)
    {x : Violation} (member : x ∈ report.violations) :
    x.sprite ∈ (c.world .negation).spriteList.map (·.id) ∧ (x.rule, x.transform) ∈ p.sources := by
  have hit : x.hit ∈ (c.firings .negation).filterMap Firing.hit? := c.hits_violations ▸ List.mem_map_of_mem member
  exact Project.mem_hits.mp ((c.hits_sublist start .negation).subset hit)

end Course
end Session

/-! ### The form -/

/-- What holds of the report of a tick that was committed on one board and led to another. -/
structure Report.Canonical (p : Project) (board after : World) (report : Report) : Prop where
  fired_ascending : report.fired.Pairwise fun x y => p.firedKey x < p.firedKey y
  fired_once : (report.fired.map fun x => (x.phase, x.hit)).Nodup
  /-- No sprite is both in motion and at rest. -/
  apart : ∀ x ∈ report.fired, ∀ y ∈ report.fired, x.phase = .moving → y.phase = .resting → x.sprite ≠ y.sprite
  fired_live : ∀ x ∈ report.fired, ∃ rule, p.rule? x.rule = some rule ∧ x.transform ∈ rule.ways
  commands : report.commands = (report.fired.map (·.commands)).foldr (· + ·) 0
  violations_ascending : report.violations.Pairwise fun x y => p.hitKey x.hit < p.hitKey y.hit
  violations_live : ∀ x ∈ report.violations, ∃ rule, p.rule? x.rule = some rule ∧ x.transform ∈ rule.ways
  rejected_once : report.rejected.Nodup
  /-- What was in motion and is no more was brought to rest. -/
  rejected : ∀ id, id ∈ report.rejected ↔
    (board.motion id).isSome ∧ ∃ s, after.sprite? id = some s ∧ s.motion = none

namespace World

variable {w v : World}

theorem disjoint_spritesInMotion (c : w.Consistent) {id : SpriteId} (moves : id ∈ w.spritesInMotion true)
    (rests : id ∈ w.spritesInMotion false) : False := by
  obtain ⟨s, listed, rfl⟩ := List.mem_map.mp moves
  obtain ⟨r, also, same⟩ := List.mem_map.mp rests
  obtain ⟨listed, moving⟩ := List.mem_filter.mp listed
  obtain ⟨also, resting⟩ := List.mem_filter.mp also
  obtain ⟨k, found⟩ := mem_spriteList.mp listed
  obtain ⟨j, found'⟩ := mem_spriteList.mp also
  rw [c.own_id k s found, c.own_id j r found'] at same
  subst same
  rw [found] at found'
  cases found'
  rw [beq_iff_eq.mp moving] at resting
  cases resting

/-- Who is brought to rest was in motion, and is at rest afterwards. -/
theorem mem_rejected_iff (c : w.Consistent) (advanced : w.advance = .ok v) (id : SpriteId) :
    id ∈ v.rejected ↔ (w.motion id).isSome ∧ ∃ s, v.sprite? id = some s ∧ s.motion = none := by
  have steps := steps_of_advance c advanced
  rw [steps.rejected]
  refine and_congr_right fun moves => ?_
  obtain ⟨h, motion⟩ := Option.isSome_iff_exists.mp moves
  obtain ⟨s, found, moving⟩ := Option.bind_eq_some_iff.mp motion
  constructor
  · intro stays
    exact ⟨_, steps.stopped id stays s h found moving, rfl⟩
  · rintro ⟨r, rests, still⟩ stepping
    obtain ⟨s, h, _, moving, after⟩ := steps.stepped id stepping
    rw [rests] at after
    cases after
    rw [moving] at still
    cases still

end World

namespace Session

variable {p : Project} {settings : Settings} {w v : World} {button : Option Button} {report : Report}

/-- As long as the game goes on, every tick of a world that is reached is reported in the one form. -/
theorem report_canonical (reached : w.Reachable) (playing : w.status = .playing)
    (stepped : (new p settings).step w button = .ok (report, v)) :
    ∃ c : (new p settings).Course World.engine w button report v, report.Canonical p (c.world .negation) v := by
  obtain ⟨c⟩ := (stepOn_eq_ok_iff_course playing).mp stepped
  have start := reached.consistent
  have ascending := c.fired_ascending start
  have rejected : report.rejected = v.rejected := congrArg Report.rejected c.tells
  refine ⟨c, ?_⟩
  constructor
  case fired_ascending => exact ascending
  case fired_once =>
    refine List.pairwise_map.mpr (ascending.imp ?_)
    intro x y less same
    obtain ⟨phase, hit⟩ := Prod.mk.inj same
    rw [Project.firedKey, Project.firedKey, phase, hit] at less
    exact List.lt_irrefl _ less
  case apart =>
    intro x first y second moving resting same
    have moves := (c.mem_hits_of_fired start first).1
    have rests := (c.mem_hits_of_fired start second).1
    rw [moving] at moves
    rw [resting, ← same] at rests
    exact World.disjoint_spritesInMotion start moves rests
  case fired_live =>
    intro x member
    exact Project.mem_sources.mp (c.mem_hits_of_fired start member).2
  case commands =>
    rw [congrArg Report.commands c.tells, c.fired_eq]
    rfl
  case violations_ascending => exact c.violations_ascending start
  case violations_live =>
    intro x member
    exact Project.mem_sources.mp (c.mem_hits_of_violation start member).2
  case rejected_once =>
    rw [rejected]
    exact (World.steps_of_advance (c.consistent start .negation) c.commits).rejected_once
  case rejected =>
    rw [rejected]
    exact World.mem_rejected_iff (c.consistent start .negation) c.commits

/-- A rule that fires in all its views, and one that must never match. -/
def parade : Project where
  config := ⟨⟨2, 2⟩, none⟩
  rules := ⟨(IdMap.empty.insert 0 (some (.blanket .change .turns []))).insert 1 (some (.blanket .negation .none [])), 2⟩

theorem report_canonical_parade : ∃ w report v, World.train = .ok w ∧
    (new parade .standard).step w none = .ok (report, v) ∧ report.fired.length = 8 ∧
    report.violations.map Violation.hit = [(⟨0⟩, ⟨1⟩, none), (⟨1⟩, ⟨1⟩, none)] ∧
    report.fired.Pairwise fun x y => parade.firedKey x < parade.firedKey y := by
  obtain ⟨w, report, v, built, playing, stepped, eight, hits⟩ : ∃ w report v, World.train = .ok w ∧
      w.status = .playing ∧ (new parade .standard).step w none = .ok (report, v) ∧ report.fired.length = 8 ∧
      report.violations.map Violation.hit = [(⟨0⟩, ⟨1⟩, none), (⟨1⟩, ⟨1⟩, none)] :=
    ⟨_, _, _, rfl, rfl, rfl, rfl, rfl⟩
  obtain ⟨c, canonical⟩ := report_canonical (World.reachable_of_train built) playing stepped
  exact ⟨w, report, v, built, stepped, eight, hits, canonical.fired_ascending⟩

end Session
end Playfield
