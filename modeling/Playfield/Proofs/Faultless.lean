import Playfield.Proofs.Ceilings
import Playfield.Proofs.Reckonings
import Playfield.Proofs.SavedRuns

/-!
# Matching does not fail

A rule may hold anything: clauses outside the window or at one cell, demands on other kinds than there are, any number of
clauses and commands, any bytes. A phase is matched all the same. What can be lacking is a name for a tile next to a sprite,
which on a bounded board it never is, and the byte of a kind, in a table of demands that was read from a document.
-/
namespace Playfield

variable {α β ι : Type}

/-! ### Computations that only overflow -/

/-- A computation that comes to a value, unless some room is lacking and it overflows. -/
def Defined (lacking : Prop) (x : Checked α) : Prop := (∃ a, x = .ok a) ∨ lacking ∧ x = .error .overflow

namespace Defined

variable {lacking other : Prop} {x : Checked α}

theorem pure (a : α) : Defined lacking (Pure.pure a) := .inl ⟨a, rfl⟩

theorem of_exists (defined : ∃ a, x = .ok a) : Defined lacking x := .inl defined

theorem exists_of_not (defined : Defined lacking x) (room : ¬lacking) : ∃ a, x = .ok a :=
  defined.resolve_right fun lost => room lost.1

theorem imp (defined : Defined lacking x) (weaker : lacking → other) : Defined other x :=
  defined.imp_right fun lost => ⟨weaker lost.1, lost.2⟩

theorem bind {f : α → Checked β} (first : Defined lacking x) (next : ∀ a, Defined lacking (f a)) :
    Defined lacking (x >>= f) := by
  rcases first with ⟨a, rfl⟩ | ⟨lost, rfl⟩
  · exact next a
  · exact .inr ⟨lost, rfl⟩

theorem mapM {f : α → Checked β} (each : ∀ a, Defined lacking (f a)) (l : List α) : Defined lacking (l.mapM f) := by
  induction l with
  | nil => exact .pure []
  | cons a rest ih =>
    rw [List.mapM_cons]
    exact (each a).bind fun _ => ih.bind fun _ => .pure _

end Defined

/-! ### One view -/

namespace Matcher

variable (m : Matcher) (g : Grid ι) (v : View)

theorem defined_shifted (home : Tile) {c : Cell} (near : c ∈ Cell.neighbourhood) :
    Defined (¬home.Roomy) (home.shifted c.offset) := by
  rcases shifted_unless near home with named | lost
  · exact .inl ⟨_, named⟩
  · exact .inr lost

/-- Only tiles next to the sprite are given names, and only cells of the window are looked up. -/
theorem defined_scan (home : Tile) {cells : List Cell} (near : ∀ c ∈ cells, c ∈ Cell.neighbourhood) :
    Defined (¬home.Roomy) (m.scan g v home cells) := by
  induction cells with
  | nil => exact .pure _
  | cons c rest ih =>
    obtain ⟨here, near⟩ := List.forall_mem_cons.mp near
    rw [scan]
    refine (Defined.of_exists (v.exists_clauseAt c)).bind fun place => ?_
    cases place with
    | none => exact ih near
    | some i =>
      refine (defined_shifted home here).bind fun tile => ?_
      cases m.guardAt g v i tile with
      | fail => exact .pure none
      | pass witness => exact (ih near).bind fun _ => .pure _

theorem defined_evaluate (s : ι) :
    Defined (∃ home, g.position s = some home ∧ ¬home.Roomy) (m.evaluate g s v) := by
  rw [evaluate]
  cases placed : g.position s with
  | none => exact .pure none
  | some home =>
    have scanned : Defined (¬home.Roomy) (m.scan g v home Cell.neighbourhood) :=
      m.defined_scan g v home fun _ near => near
    refine (Defined.of_exists (v.exists_clauseAt .centre)).bind fun centre => ?_
    exact (scanned.imp fun far => ⟨home, rfl, far⟩).bind fun _ => .pure _

end Matcher

/-! ### A phase -/

namespace Session

variable (s : Session) (w : World) (phase : Phase) (button : Option Button)

theorem exists_isCandidate (sprite : Sprite) (v : View) : ∃ answer, s.isCandidate sprite phase button v = .ok answer := by
  rw [isCandidate]
  split
  · obtain ⟨place, found⟩ := v.exists_clauseAt .centre
    rw [View.selects, View.centreFacing, View.hasSpriteKind, found]
    exact ⟨_, rfl⟩
  · exact ⟨false, rfl⟩

theorem defined_tryView (sprite : Sprite) (v : View) : Defined (¬w.Roomy) (s.tryView w sprite phase button v) := by
  rw [tryView]
  refine (Defined.of_exists (s.exists_isCandidate phase button sprite v)).bind fun selected => ?_
  split
  · refine (s.matcher.defined_evaluate w.grid v sprite.id).imp ?_
    rintro ⟨home, placed, far⟩ roomy
    exact far (roomy sprite.id home placed)
  · exact .pure none

theorem defined_matchSprite (id : SpriteId) : Defined (¬w.Roomy) (s.matchSprite w phase button id) := by
  rw [matchSprite]
  cases w.sprite? id with
  | none => exact .pure []
  | some sprite =>
    dsimp only
    split
    · exact .pure []
    · exact (Defined.mapM (s.defined_tryView w phase button sprite) s.views).bind fun _ => .pure _

/-- Whatever the rules and the world, matching a phase fails at most for want of a name for a tile. -/
theorem defined_matchPhase (sprites : List SpriteId) : Defined (¬w.Roomy) (s.matchPhase w phase sprites button) :=
  (Defined.mapM (s.defined_matchSprite w phase button) sprites).bind fun _ => .pure _

end Session

/-! ### Projects put in order -/

section

variable {δ : Type} [Packed δ]

/-- The book with the tables of all rules put in order. -/
def RuleBook.mend (b : RuleBook δ) : RuleBook := ⟨b.slots.mapValues (Option.map Rule.mend), b.next⟩

theorem RuleBook.toList_mend (b : RuleBook δ) : b.mend.toList = b.toList.map fun e => (e.1, e.2.mend) := by
  rw [toList, toList, mend, IdMap.mapValues, List.filterMap_map, List.map_filterMap]
  refine List.filterMap_congr fun e _ => ?_
  obtain ⟨k, slot⟩ := e
  cases slot <;> rfl

theorem RuleBook.mend_demands (b : RuleBook) : b.mend = b := by
  have same : (Option.map Rule.mend : Option Rule → Option Rule) = id := by
    funext slot
    cases slot <;> simp
  rw [mend, same]
  congr 1
  exact IdMap.ext_entries (List.map_id _)

namespace Project

/-- The project with the tables of all rules put in order. -/
def mend (p : Project δ) : Project := ⟨p.config, p.rules.mend⟩

/-- The failures of the tables of the rules of a project. -/
def Lacks (p : Project δ) (cause : Fault) : Prop := ∃ id rule, p.rule? id = some rule ∧ rule.Lacks cause

theorem mend_demands (p : Project) : p.mend = p := by
  rw [mend, RuleBook.mend_demands]

theorem views_mend (p : Project δ) : p.mend.views = p.views.map View.mend := by
  rw [views, views, mend, RuleBook.toList_mend, List.map_map, List.map_map]
  rfl

end Project

/-! ### A phase as it is reckoned -/

namespace Session

variable {w : World} (p : Project δ) (settings : Settings) (phase : Phase) (button : Option Button)

theorem views_mend : (new p.mend settings).views = (new p settings).views.map View.mend := by
  show p.mend.views.flatMap View.all = (p.views.flatMap View.all).map View.mend
  rw [Project.views_mend, List.flatMap_map, List.map_flatMap]
  refine List.flatMap_congr fun v _ => ?_
  rw [View.all, View.all, View.derived, View.derived, List.map_cons, List.map_map]
  rfl

/-- Every view shows a rule of the project. -/
theorem exists_rule_of_mem_views {γ : Type} {p : Project γ} {settings : Settings} {v : View γ}
    (member : v ∈ (new p settings).views) : ∃ id, p.rule? id = some v.rule := by
  obtain ⟨base, listed, shown⟩ := List.mem_flatMap.mp member
  obtain ⟨⟨id, rule⟩, live, rfl⟩ := List.mem_map.mp listed
  refine ⟨id, ?_⟩
  rcases List.mem_cons.mp shown with rfl | derived
  · exact Project.mem_toList.mp live
  · obtain ⟨t, _, rfl⟩ := List.mem_map.mp derived
    exact Project.mem_toList.mp live

theorem reckonCandidate_follows (sprite : Sprite) (v : View δ) :
    Follows v.rule.Lacks ((new p settings).reckonCandidate sprite phase button v)
      ((new p.mend settings).isCandidate sprite phase button v.mend) := by
  rw [reckonCandidate, isCandidate, View.reckonAccepts_eq, ok_bind]
  show Follows _ (if v.accepts phase button && v.controls p.player sprite.kind then _ else _)
    (if v.accepts phase button && v.controls p.player sprite.kind then _ else _)
  cases v.accepts phase button && v.controls p.player sprite.kind with
  | false => exact .refl _
  | true => exact v.reckonSelects_follows sprite.kind sprite.motion

theorem reckonView_follows (c : w.Consistent) (sprite : Sprite) (v : View δ) :
    Follows v.rule.Lacks ((new p settings).reckonView w sprite phase button v)
      ((new p.mend settings).tryView w sprite phase button v.mend) := by
  rw [reckonView, tryView]
  refine (reckonCandidate_follows p settings phase button sprite v).bind fun candidate _ _ => ?_
  split
  · exact (new p settings).matcher.reckonEvaluate_follows v c sprite.id
  · exact .refl _

theorem reckonSprite_follows (c : w.Consistent) (id : SpriteId) :
    Follows p.Lacks ((new p settings).reckonSprite w phase button id) ((new p.mend settings).matchSprite w phase button id) := by
  rw [reckonSprite, matchSprite]
  cases w.sprite? id with
  | none => exact .refl _
  | some sprite =>
    dsimp only
    split
    · exact .refl _
    · rw [views_mend, List.mapM_map]
      refine (Follows.mapM fun v member => ?_).map _
      obtain ⟨id, live⟩ := exists_rule_of_mem_views member
      exact (reckonView_follows p settings phase button c sprite v).imp fun cause lacks => ⟨id, v.rule, live, lacks⟩

/-- A phase is matched as it is reckoned, with all tables put in order, unless a table of some rule lacks a byte. -/
theorem reckonPhase_follows (c : w.Consistent) (sprites : List SpriteId) :
    Follows p.Lacks ((new p settings).reckonPhase w phase sprites button)
      ((new p.mend settings).matchPhase w phase sprites button) :=
  (Follows.mapM fun id _ => reckonSprite_follows p settings phase button c id).map _

theorem exists_matchPhase {w : World} (reached : w.Reachable) (bounded : w.Bounded) (s : Session) (sprites : List SpriteId) :
    ∃ firings, s.matchPhase w phase sprites button = .ok firings :=
  (s.defined_matchPhase w phase button sprites).exists_of_not (not_not_intro (reached.consistent.roomy bounded))

/-- Whatever the rules of a project hold, in every world that is reached on a bounded board every phase is matched, for any
    sprites and button, up to a single failure: that a demand is looked up of which the table of a rule lacks the byte. If no
    table lacks any, the phase is matched, and as if all tables had been put in order. Tables that are well formed lack none. -/
theorem reckonPhase_finishes (p : Project δ) (settings : Settings) {w : World} (reached : w.Reachable) (bounded : w.Bounded)
    (phase : Phase) (sprites : List SpriteId) (button : Option Button) :
    (∃ firings, (new p.mend settings).matchPhase w phase sprites button = .ok firings ∧
      ((new p settings).reckonPhase w phase sprites button = .ok firings ∨
        ∃ id rule cause, p.rule? id = some rule ∧ rule.Lacks cause ∧
          (new p settings).reckonPhase w phase sprites button = .error cause) ∧
      ((∀ id rule, p.rule? id = some rule → rule.Covered) →
        (new p settings).reckonPhase w phase sprites button = .ok firings)) ∧
      ∀ q : Project, ∃ firings, (new q settings).matchPhase w phase sprites button = .ok firings ∧
        (new q settings).reckonPhase w phase sprites button = .ok firings := by
  have c := reached.consistent
  constructor
  · obtain ⟨firings, matched⟩ := exists_matchPhase phase button reached bounded (new p.mend settings) sprites
    have follows := reckonPhase_follows p settings phase button c sprites
    rw [matched] at follows
    refine ⟨firings, matched, ?_, fun covered => follows.eq ?_⟩
    · refine follows.imp_right ?_
      rintro ⟨cause, ⟨id, rule, live, lacks⟩, failed⟩
      exact ⟨id, rule, cause, live, lacks, failed⟩
    · rintro cause ⟨id, rule, live, lacks⟩
      exact (covered id rule live).not_lacks cause lacks
  · intro q
    obtain ⟨firings, matched⟩ := exists_matchPhase phase button reached bounded (new q settings) sprites
    have follows := reckonPhase_follows q settings phase button c sprites
    rw [q.mend_demands, matched] at follows
    exact ⟨firings, matched, follows.eq fun cause ⟨_, rule, _, lacks⟩ => rule.covered.not_lacks cause lacks⟩

/-- A rule that keeps no limit: far outside the window are more than fifteen clauses at one cell, with more than four
    commands that mean nothing, and at the centre are two more clauses. All make demands on other kinds than there are, in tables
    with bits set past the last kind or with more bytes than it takes. -/
def crooked : Rule RawDemands where
  trigger := .change
  arg := 255
  clauses :=
    List.replicate 16 {
      cell := ⟨200, 7⟩
      backgrounds := ⟨9, [255, 255, 255]⟩
      sprites := ⟨0, [255]⟩
      facing := .moving
      commands := List.replicate 5 ⟨.move, 250⟩ } ++
    List.replicate 2 {
      cell := .centre
      backgrounds := ⟨0, []⟩
      sprites := ⟨6, [1, 240, 7]⟩
      facing := .any
      commands := List.replicate 5 ⟨.spawn, 255⟩ }
  symmetry := .turns

theorem reckonPhase_finishes_crooked : ∃ p w firings,
    (⟨⟨⟨1, 1⟩, none⟩, .empty⟩ : Project RawDemands).addRule crooked = .ok (⟨0⟩, p) ∧ World.train = .ok w ∧
    (new p .standard).reckonPhase w .moving [⟨0⟩, ⟨1⟩] none = .ok firings ∧ firings.length = 8 := by
  obtain ⟨p, w, added, built, bounded, count, only⟩ : ∃ p w,
      (⟨⟨⟨1, 1⟩, none⟩, .empty⟩ : Project RawDemands).addRule crooked = .ok (⟨0⟩, p) ∧ World.train = .ok w ∧ w.Bounded ∧
      List.length <$> (new p.mend .standard).matchPhase w .moving [⟨0⟩, ⟨1⟩] none = .ok 8 ∧
      p.rules.toList = [(⟨0⟩, crooked)] :=
    ⟨_, _, rfl, rfl, by unfold World.Bounded; decide, rfl, rfl⟩
  obtain ⟨⟨firings, matched, _, finishes⟩, _⟩ :=
    reckonPhase_finishes p .standard (World.reachable_of_train built) bounded .moving [⟨0⟩, ⟨1⟩] none
  have covered : ∀ id rule, p.rule? id = some rule → rule.Covered := by
    intro id rule live
    have listed := Project.mem_toList.mpr live
    rw [only, List.mem_singleton] at listed
    cases listed
    decide
  rw [matched] at count
  exact ⟨p, w, firings, added, built, finishes covered, Except.ok.inj count⟩

/-- One kind and no byte: whoever looks for a rule of a sprite looks past the end. -/
theorem reckonPhase_misprint : ∃ p w,
    (⟨⟨⟨1, 1⟩, none⟩, .empty⟩ : Project RawDemands).addRule (Record.misprint []) = .ok (⟨0⟩, p) ∧ w.Reachable ∧ w.Bounded ∧
    (new p .standard).reckonPhase w .moving [⟨0⟩] none = .error (.outOfRange 0 0) := by
  obtain ⟨p, w, added, built, bounded, failed⟩ : ∃ p w,
      (⟨⟨⟨1, 1⟩, none⟩, .empty⟩ : Project RawDemands).addRule (Record.misprint []) = .ok (⟨0⟩, p) ∧ World.train = .ok w ∧
      w.Bounded ∧ (new p .standard).reckonPhase w .moving [⟨0⟩] none = .error (.outOfRange 0 0) :=
    ⟨_, _, rfl, rfl, by unfold World.Bounded; decide, rfl⟩
  exact ⟨p, w, added, World.reachable_of_train built, bounded, failed⟩

end Session
end
end Playfield
