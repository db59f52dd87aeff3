import Playfield.Match

/-!
# Rules written out

What a view shows can be written down as a rule of its own: every cell, facing, heading and button
is mapped once and for all. A rule all of whose clauses lie in the window, seen through a transform, reads
and matches as the rule written out does as it is.
-/
namespace Playfield

theorem findIdx?_congr {α : Type} {p q : α → Bool} {l : List α} (same : ∀ a ∈ l, p a = q a) :
    l.findIdx? p = l.findIdx? q := by
  induction l with
  | nil => rfl
  | cons a rest ih =>
    have others := ih fun b member => same b (List.mem_cons_of_mem _ member)
    rw [List.findIdx?_cons, List.findIdx?_cons, same a List.mem_cons_self, others]

namespace Transform

/-- Where a cell of the window goes. -/
def image (t : Transform) (c : Cell) : Cell := .ofOffset (t.onOffset c.offset)

theorem onCell_eq_ok (t : Transform) {c : Cell} (inside : c.inWindow) : t.onCell c = .ok (t.image c) :=
  if_pos inside

theorem image_inverse (t : Transform) : ∀ c : Cell, c.inWindow → t.inverse.image (t.image c) = c := by
  cases t <;> exact Cell.forall_inWindow (by decide)

/-- A cell goes where it is looked up from. -/
theorem image_eq_iff (t : Transform) {c d : Cell} (inside : c.inWindow) (also : d.inWindow) :
    t.image c = d ↔ c = t.inverse.image d := by
  constructor
  · rintro rfl
    exact (t.image_inverse c inside).symm
  · rintro rfl
    have back := t.inverse.image_inverse d also
    rw [inverse_inverse] at back
    exact back

end Transform

namespace Clause

/-- A clause written out under a transform. -/
def materialise (t : Transform) (c : Clause) : Clause where
  cell := t.image c.cell
  backgrounds := c.backgrounds
  sprites := c.sprites
  facing := t.onFacing c.facing
  commands := c.commands.map fun k => { k with arg := t.onArg k.inst k.arg }

/-- A clause written out as it is seen. -/
def through (t : Option Transform) (c : Clause) : Clause :=
  match t with
  | some t => c.materialise t
  | none => c

theorem through_backgrounds (t : Option Transform) (c : Clause) : (c.through t).backgrounds = c.backgrounds := by
  cases t <;> rfl

theorem through_sprites (t : Option Transform) (c : Clause) : (c.through t).sprites = c.sprites := by
  cases t <;> rfl

theorem through_facing (t : Option Transform) (c : Clause) :
    (c.through t).facing = Transform.facingThrough t c.facing := by
  cases t <;> rfl

end Clause

namespace Rule

/-- Every clause lies in the window. -/
def InWindow (r : Rule) : Prop := ∀ c ∈ r.clauses, c.cell.inWindow

/-- A rule written out under a transform, without a symmetry of its own. -/
def materialise (t : Transform) (r : Rule) : Rule where
  trigger := r.trigger
  arg :=
    match r.trigger with
    | .button => t.onByte r.arg
    | _ => r.arg
  clauses := r.clauses.map (Clause.materialise t)
  symmetry := .none

/-- A rule written out as it is seen. -/
def through (t : Option Transform) (r : Rule) : Rule :=
  match t with
  | some t => r.materialise t
  | none => { r with symmetry := .none }

theorem through_clauses (t : Option Transform) (r : Rule) :
    (r.through t).clauses = r.clauses.map (Clause.through t) := by
  cases t with
  | none => exact (List.map_id _).symm
  | some t => rfl

theorem through_trigger (t : Option Transform) (r : Rule) : (r.through t).trigger = r.trigger := by
  cases t <;> rfl

theorem through_symmetry (t : Option Transform) (r : Rule) : (r.through t).symmetry = .none := by
  cases t <;> rfl

/-- A clause is found at the cell at which it is shown. -/
theorem find?_materialise {r : Rule} (inside : r.InWindow) (t : Transform) {cell : Cell} (shown : cell.inWindow) :
    (r.materialise t).find? cell = r.find? (t.inverse.image cell) := by
  unfold find? materialise
  rw [List.findIdx?_map]
  apply findIdx?_congr
  intro c member
  have same := t.image_eq_iff (inside c member) shown
  show (t.image c.cell == cell) = (c.cell == t.inverse.image cell)
  rw [Bool.eq_iff_iff, beq_iff_eq, beq_iff_eq, same]

end Rule

namespace View

/-- As long as they keep their cells, changed clauses are shown where they were. -/
theorem clauseAt_map {f : Clause → Clause} (cell : ∀ c, (f c).cell = c.cell) (v : View) :
    clauseAt { v with rule := { v.rule with clauses := v.rule.clauses.map f } } = v.clauseAt := by
  have found (stored : Cell) :
      Rule.find? { v.rule with clauses := v.rule.clauses.map f } stored = v.rule.find? stored := by
    rw [Rule.find?, Rule.find?, List.findIdx?_map]
    refine findIdx?_congr fun c _ => ?_
    rw [Function.comp_apply, cell]
  funext c
  unfold clauseAt
  simp only [found]
  rfl

/-- The rule that a view shows, written out and seen as it is, under an id of its own. -/
def written (v : View) (id : Option RuleId) : View := ⟨v.rule.through v.transform, id, none, v.kinds⟩

variable {v : View} {id : Option RuleId}

theorem written_arg (v : View) (id : Option RuleId) : (v.written id).arg = v.arg := by
  obtain ⟨⟨trigger, byte, clauses, symmetry⟩, own, t, kinds⟩ := v
  cases t with
  | none => rfl
  | some t => cases trigger <;> rfl

theorem written_button? (v : View) (id : Option RuleId) : (v.written id).button? = v.button? := by
  rw [button?, button?, written_arg, written, Rule.through_trigger]

/-! ### Clauses -/

theorem written_clauseAt (inside : v.rule.InWindow) (cell : Cell) :
    (v.written id).clauseAt cell = v.clauseAt cell := by
  unfold clauseAt
  by_cases shown : cell.inWindow
  · rw [if_pos shown, if_pos shown]
    obtain ⟨rule, own, t, kinds⟩ := v
    cases t with
    | none => rfl
    | some t =>
      have stored : storedCell ⟨rule, own, some t, kinds⟩ cell = .ok (t.inverse.image cell) :=
        t.inverse.onCell_eq_ok shown
      rw [stored]
      exact congrArg Except.ok (Rule.find?_materialise inside t shown)
  · rw [if_neg shown, if_neg shown]

theorem written_clause? (v : View) (id : Option RuleId) (i : Nat) :
    (v.written id).clause? i = (v.clause? i).map (Clause.through v.transform) := by
  rw [clause?, clause?, written, Rule.through_clauses, List.getElem?_map]

theorem written_background? (v : View) (id : Option RuleId) (i kind : Nat) :
    (v.written id).background? i kind = v.background? i kind := by
  rw [background?, background?, written_clause?]
  cases v.clause? i with
  | none => rfl
  | some c => rw [Option.map_some, Option.bind_some, Option.bind_some, Clause.through_backgrounds]

theorem written_sprite? (v : View) (id : Option RuleId) (i kind : Nat) :
    (v.written id).sprite? i kind = v.sprite? i kind := by
  rw [sprite?, sprite?, written_clause?]
  cases v.clause? i with
  | none => rfl
  | some c => rw [Option.map_some, Option.bind_some, Option.bind_some, Clause.through_sprites]

theorem written_backgroundCount (v : View) (id : Option RuleId) (i : Nat) :
    (v.written id).backgroundCount i = v.backgroundCount i := by
  rw [backgroundCount, backgroundCount, written_clause?, Option.map_map]
  simp [Function.comp_def, Clause.through_backgrounds]

theorem written_spriteCount (v : View) (id : Option RuleId) (i : Nat) :
    (v.written id).spriteCount i = v.spriteCount i := by
  rw [spriteCount, spriteCount, written_clause?, Option.map_map]
  simp [Function.comp_def, Clause.through_sprites]

theorem written_facingOf (v : View) (id : Option RuleId) (i : Nat) : (v.written id).facingOf i = v.facingOf i := by
  rw [facingOf, facingOf, written_clause?, Option.map_map]
  simp [Function.comp_def, Clause.through_facing, Transform.facingThrough, written]

theorem map_shown (v : View) (id : Option RuleId) (c : Clause) :
    (c.through v.transform).commands.map (v.written id).shown = c.commands.map v.shown := by
  have plain : (v.written id).shown = fun k => k := rfl
  rw [plain, List.map_id']
  unfold shown Clause.through
  cases v.transform with
  | none => exact (List.map_id' _).symm
  | some t => rfl

theorem written_commands (v : View) (id : Option RuleId) (i : Nat) : (v.written id).commands i = v.commands i := by
  rw [commands, commands, written_clause?, Option.map_map]
  simp [Function.comp_def, map_shown]

/-! ### The centre -/

theorem written_centreFacing (inside : v.rule.InWindow) : (v.written id).centreFacing = v.centreFacing := by
  have facing : (v.written id).facingOf = v.facingOf := funext fun i => written_facingOf v id i
  rw [centreFacing, centreFacing, written_clauseAt inside, facing]

theorem written_hasSpriteKind (inside : v.rule.InWindow) (kind : Nat) :
    (v.written id).hasSpriteKind kind = v.hasSpriteKind kind := by
  have demands : (fun i => (v.written id).sprite? i kind) = fun i => v.sprite? i kind :=
    funext fun i => written_sprite? v id i kind
  rw [hasSpriteKind, hasSpriteKind, written_clauseAt inside, demands]

end View

namespace Matcher

variable {ι : Type} {v : View} {id : Option RuleId}

theorem guardAt_written (m : Matcher) (g : Grid ι) (v : View) (id : Option RuleId) (i : Nat) (tile : Tile) :
    m.guardAt g (v.written id) i tile = m.guardAt g v i tile := by
  have backgrounds : background g (v.written id) i tile = background g v i tile := by
    funext kind
    rw [background, background, View.written_background?]
  have sprites : sprite g (v.written id) i tile = sprite g v i tile := by
    funext kind
    rw [sprite, sprite, View.written_sprite?]
  rw [guardAt, guardAt, View.written_backgroundCount, View.written_spriteCount, backgrounds, sprites]

theorem errands_written (g : Grid ι) (v : View) (id : Option RuleId) :
    errands g (v.written id) = errands g v := by
  funext i tile target
  rw [errands, errands, View.written_commands]

theorem scan_written (m : Matcher) (g : Grid ι) (inside : v.rule.InWindow) (home : Tile) (cells : List Cell) :
    m.scan g (v.written id) home cells = m.scan g v home cells := by
  induction cells with
  | nil => rfl
  | cons cell rest ih =>
    rw [scan, scan, View.written_clauseAt inside]
    simp only [guardAt_written, ih]

theorem firing_written (g : Grid ι) (sprite : ι) (v : View) (id : Option RuleId) (home : Tile) (centre : Option Nat)
    (around : List (Neighbour ι)) :
    firing g sprite (v.written id) home centre around =
      { firing g sprite v home centre around with rule := id, transform := none } := by
  rw [firing, errands_written]
  rfl

/-- A view matches exactly where the rule written out does, and then with the same firing up to its source. -/
theorem evaluate_written (m : Matcher) (g : Grid ι) (sprite : ι) (inside : v.rule.InWindow) :
    m.evaluate g sprite (v.written id) =
      (Option.map fun f => { f with rule := id, transform := none }) <$> m.evaluate g sprite v := by
  rw [evaluate, evaluate]
  cases g.position sprite with
  | none => rfl
  | some home =>
    have firings : firing g sprite (v.written id) home = fun centre around =>
        { firing g sprite v home centre around with rule := id, transform := none } := by
      funext centre around
      exact firing_written g sprite v id home centre around
    simp only [View.written_clauseAt inside, scan_written m g inside, firings, map_bind, map_pure, Option.map_map]
    rfl

end Matcher
end Playfield
