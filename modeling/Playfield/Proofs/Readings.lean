import Playfield.Proofs.Neighbours
import Playfield.View.Text

/-!
# What is read through a transform

Every reading of a rule through a transform is a reading of the rule written out: the same clauses at the same cells, with
the same demands, facings and commands, the same counts, and the same text but for the line of the id. As long as all
clauses lie in the window, no reading fails.
-/
namespace Playfield

/-- Two computations come to the same value. -/
def SameValue {α : Type} (x y : Checked α) : Prop := ∃ a, x = .ok a ∧ y = .ok a

theorem SameValue.of_eq {α : Type} {x y : Checked α} (same : x = y) (defined : ∃ a, y = .ok a) : SameValue x y := by
  obtain ⟨a, value⟩ := defined
  exact ⟨a, same.trans value, value⟩

/-- Whatever is asked of two views is answered alike. -/
structure View.ReadsAs (v u : View) : Prop where
  arg : v.arg = u.arg
  button : v.button? = u.button?
  facing : SameValue v.facing u.facing
  clauseAt : ∀ c, SameValue (v.clauseAt c) (u.clauseAt c)
  cellOf : ∀ i, SameValue (v.cellOf i) (u.cellOf i)
  background : ∀ i kind, v.background? i kind = u.background? i kind
  sprite : ∀ i kind, v.sprite? i kind = u.sprite? i kind
  demandCount : ∀ i, v.demandCount i = u.demandCount i
  witnessKind : ∀ c editor, SameValue (v.witnessKind c editor) (u.witnessKind c editor)
  facingOf : ∀ i, v.facingOf i = u.facingOf i
  commandCount : ∀ i, v.commandCount i = u.commandCount i
  command : ∀ i j, v.command? i j = u.command? i j
  spriteKinds : SameValue v.spriteKinds u.spriteKinds
  hasSpriteKind : ∀ kind, SameValue (v.hasSpriteKind kind) (u.hasSpriteKind kind)
  clauseVacuous : ∀ i, v.clauseVacuous i = u.clauseVacuous i
  isVacuous : v.isVacuous = u.isVacuous
  stats : SameValue v.stats u.stats
  /-- The texts differ at most in the line of the id. -/
  text : ∃ body, v.text = .ok (v.idLine ++ "\n" ++ body) ∧ u.text = .ok (u.idLine ++ "\n" ++ body)

/-! ### Clauses written out -/

namespace Transform

theorem isInner_image (t : Transform) : ∀ c : Cell, c.inWindow → (t.image c).isInner = c.isInner := by
  cases t <;> exact Cell.forall_inWindow (by decide)

end Transform

namespace Clause

variable {t : Option Transform} {c : Clause}

/-- A clause in the window is written out at the cell at which it is shown. -/
theorem cellThrough_eq (inside : c.cell.inWindow) : Transform.cellThrough t c.cell = .ok (c.through t).cell := by
  cases t with
  | none => rfl
  | some t => exact t.onCell_eq_ok inside

theorem isInner_through (inside : c.cell.inWindow) : (c.through t).cell.isInner = c.cell.isInner := by
  cases t with
  | none => rfl
  | some t => exact t.isInner_image c.cell inside

theorem demandCount_through : (c.through t).demandCount = c.demandCount := by
  rw [demandCount, demandCount, through_backgrounds, through_sprites]

theorem witnessKind_through : (c.through t).witnessKind = c.witnessKind := by
  rw [witnessKind, witnessKind, through_backgrounds, through_sprites]

theorem isVacuous_through : (c.through t).isVacuous = c.isVacuous := by
  rw [isVacuous, isVacuous, through_backgrounds, through_sprites]

end Clause

theorem Rule.isVacuous_through {r : Rule} (inside : r.InWindow) (t : Option Transform) :
    (r.through t).isVacuous = r.isVacuous := by
  have inner : r.clauses.filter ((fun c => c.cell.isInner) ∘ Clause.through t) =
      r.clauses.filter fun c => c.cell.isInner :=
    List.filter_congr fun c member => Clause.isInner_through (inside c member)
  rw [isVacuous, isVacuous, through_clauses, List.filter_map, inner, List.all_map]
  exact congrArg (List.all _) (funext fun c => Clause.isVacuous_through)

/-! ### Readings of the rule written out -/

namespace View

variable {v : View} {id : Option RuleId}

theorem inWindow_of_clause? (inside : v.rule.InWindow) {i : Nat} {c : Clause} (found : v.clause? i = some c) :
    c.cell.inWindow := inside c (List.mem_of_getElem? found)

theorem written_facing (inside : v.rule.InWindow) : (v.written id).facing = v.facing := by
  have trigger : (v.written id).rule.trigger = v.rule.trigger := Rule.through_trigger v.transform v.rule
  rw [facing, facing, trigger, written_centreFacing inside, written_button?]

theorem cellOf_eq (inside : v.rule.InWindow) (i : Nat) :
    v.cellOf i = .ok ((v.clause? i).map fun c => (c.through v.transform).cell) := by
  rw [cellOf]
  cases found : v.clause? i with
  | none => rfl
  | some c =>
    dsimp only
    rw [Clause.cellThrough_eq (inWindow_of_clause? inside found)]
    rfl

theorem written_cellOf (inside : v.rule.InWindow) (i : Nat) : (v.written id).cellOf i = v.cellOf i := by
  rw [cellOf_eq inside, cellOf, written_clause?]
  cases v.clause? i <;> rfl

theorem written_demandCount (v : View) (id : Option RuleId) (i : Nat) :
    (v.written id).demandCount i = v.demandCount i := by
  rw [demandCount, demandCount, written_clause?, Option.map_map]
  simp [Function.comp_def, Clause.demandCount_through]

theorem written_witnessKind (inside : v.rule.InWindow) (c : Cell) (editor : Bool) :
    (v.written id).witnessKind c editor = v.witnessKind c editor := by
  have trigger : (v.written id).rule.trigger = v.rule.trigger := Rule.through_trigger v.transform v.rule
  have announced (place : Option Nat) : (place.bind (v.written id).clause?).bind Clause.witnessKind =
      (place.bind v.clause?).bind Clause.witnessKind := by
    cases place with
    | none => rfl
    | some i =>
      rw [Option.bind_some, Option.bind_some, written_clause?]
      cases v.clause? i with
      | none => rfl
      | some c => exact Clause.witnessKind_through
  rw [witnessKind, witnessKind, trigger, written_clauseAt inside]
  simp only [announced]

theorem written_spriteKinds (inside : v.rule.InWindow) : (v.written id).spriteKinds = v.spriteKinds := by
  have included (place : Option Nat) : ((place.bind (v.written id).clause?).map fun c => c.sprites.includedKinds) =
      (place.bind v.clause?).map fun c => c.sprites.includedKinds := by
    cases place with
    | none => rfl
    | some i =>
      rw [Option.bind_some, Option.bind_some, written_clause?, Option.map_map]
      simp [Function.comp_def, Clause.through_sprites]
  rw [spriteKinds, spriteKinds, centre?, centre?, written_clauseAt inside]
  simp only [bind_assoc, pure_bind, included]

theorem written_clauseVacuous (v : View) (id : Option RuleId) (i : Nat) :
    (v.written id).clauseVacuous i = v.clauseVacuous i := by
  rw [clauseVacuous, clauseVacuous, written_clause?]
  cases v.clause? i with
  | none => rfl
  | some c => exact Clause.isVacuous_through

theorem written_stats (inside : v.rule.InWindow) : (v.written id).stats = v.stats := by
  have added : (v.written id).addStats = v.addStats := by
    funext s c
    rw [addStats, addStats, written_clauseAt inside]
    simp only [commandCount, written_commands, written_demandCount]
  rw [stats, stats, added]

/-! ### The text -/

/-- The lines of a clause that is written out as it is seen. -/
def linesThrough (t : Option Transform) (c : Clause) : List String :=
  s!"tile:{(c.through t).cell.col}:{(c.through t).cell.row}" ::
    [Demand.included, .grouped, .excluded].map (demandLine c) ++ (c.through t).commands.map commandLine

theorem clauseLines_eq {c : Clause} (inside : c.cell.inWindow) :
    v.clauseLines c = .ok (linesThrough v.transform c) := by
  have shown : (c.commands.map fun k => commandLine (v.shown k)) = (c.through v.transform).commands.map commandLine := by
    have commands := map_shown v none c
    rw [show (v.written none).shown = fun k => k from rfl, List.map_id'] at commands
    rw [commands, List.map_map]
    rfl
  rw [clauseLines, Clause.cellThrough_eq inside, ok_bind, shown]
  rfl

theorem bodyLines_eq (inside : v.rule.InWindow) :
    v.bodyLines = .ok (v.triggerLine :: v.rule.clauses.flatMap (linesThrough v.transform)) := by
  rw [bodyLines, mapM_eq_ok_map fun c member => clauseLines_eq (inside c member)]
  rfl

theorem inWindow_written (inside : v.rule.InWindow) : (v.written id).rule.InWindow := by
  intro c member
  rw [written, Rule.through_clauses] at member
  obtain ⟨d, listed, rfl⟩ := List.mem_map.mp member
  cases v.transform with
  | none => exact inside d listed
  | some t => exact t.image_inWindow d.cell (inside d listed)

theorem written_bodyLines (inside : v.rule.InWindow) : (v.written id).bodyLines = v.bodyLines := by
  have trigger : (v.written id).triggerLine = v.triggerLine := by
    rw [triggerLine, triggerLine, written_button?, written, Rule.through_trigger]
  have lines (c : Clause) : linesThrough none (c.through v.transform) = linesThrough v.transform c := by
    have demands : demandLine (c.through v.transform) = demandLine c := by
      funext d
      rw [demandLine, demandLine, Clause.through_backgrounds, Clause.through_sprites]
    rw [linesThrough, demands]
    rfl
  rw [bodyLines_eq (inWindow_written inside), bodyLines_eq inside, trigger, written, Rule.through_clauses,
    List.flatMap_map]
  simp only [lines]

theorem text_of_bodyLines {lines : List String} (body : v.bodyLines = .ok lines) :
    v.text = .ok (v.idLine ++ "\n" ++ String.join (lines.map (· ++ "\n"))) := by
  rw [text, body, ok_bind, List.map_cons, String.join_cons]
  rfl

/-! ### No reading fails -/

theorem exists_clauseAt (v : View) (c : Cell) : ∃ i, v.clauseAt c = .ok i := by
  by_cases inside : c.inWindow
  · exact ⟨_, v.clauseAt_eq inside⟩
  · exact ⟨none, if_neg inside⟩

theorem exists_facing (v : View) : ∃ f, v.facing = .ok f := by
  obtain ⟨i, found⟩ := v.exists_clauseAt .centre
  rw [facing, centreFacing, found]
  cases v.rule.trigger with
  | change | collision | negation => exact ⟨_, rfl⟩
  | button =>
    dsimp only
    split <;> exact ⟨_, rfl⟩

theorem exists_witnessKind (v : View) (c : Cell) (editor : Bool) : ∃ kind, v.witnessKind c editor = .ok kind := by
  obtain ⟨i, found⟩ := v.exists_clauseAt c
  rw [witnessKind, found]
  split <;> exact ⟨_, rfl⟩

theorem exists_spriteKinds (v : View) : ∃ kinds, v.spriteKinds = .ok kinds := by
  obtain ⟨i, found⟩ := v.exists_clauseAt .centre
  rw [spriteKinds, centre?, found]
  exact ⟨_, rfl⟩

theorem exists_hasSpriteKind (v : View) (kind : Nat) : ∃ answer, v.hasSpriteKind kind = .ok answer := by
  obtain ⟨i, found⟩ := v.exists_clauseAt .centre
  rw [hasSpriteKind, found]
  exact ⟨_, rfl⟩

theorem exists_stats (v : View) : ∃ s, v.stats = .ok s := by
  have each (s : Stats) (c : Cell) : ∃ more, v.addStats s c = .ok more := by
    obtain ⟨i, found⟩ := v.exists_clauseAt c
    rw [addStats, found]
    cases i <;> exact ⟨_, rfl⟩
  have fold (cells : List Cell) (s : Stats) : ∃ all, cells.foldlM v.addStats s = .ok all := by
    induction cells generalizing s with
    | nil => exact ⟨s, rfl⟩
    | cons c rest ih =>
      obtain ⟨more, first⟩ := each s c
      rw [List.foldlM_cons, first]
      exact ih more
  exact fold Cell.inner _

/-- A view of a rule all of whose clauses lie in the window reads as the rule written out does. -/
theorem readsAs_written (inside : v.rule.InWindow) (id : Option RuleId) : v.ReadsAs (v.written id) where
  arg := (written_arg v id).symm
  button := (written_button? v id).symm
  facing := .of_eq (written_facing inside).symm (exists_facing _)
  clauseAt c := .of_eq (written_clauseAt inside c).symm (exists_clauseAt _ c)
  cellOf i := .of_eq (written_cellOf inside i).symm ⟨_, cellOf_eq (inWindow_written inside) i⟩
  background i kind := (written_background? v id i kind).symm
  sprite i kind := (written_sprite? v id i kind).symm
  demandCount i := (written_demandCount v id i).symm
  witnessKind c editor := .of_eq (written_witnessKind inside c editor).symm (exists_witnessKind _ c editor)
  facingOf i := (written_facingOf v id i).symm
  commandCount i := by rw [commandCount, commandCount, written_commands]
  command i j := by rw [command?, command?, written_commands]
  spriteKinds := .of_eq (written_spriteKinds inside).symm (exists_spriteKinds _)
  hasSpriteKind kind := .of_eq (written_hasSpriteKind inside kind).symm (exists_hasSpriteKind _ kind)
  clauseVacuous i := (written_clauseVacuous v id i).symm
  isVacuous := (Rule.isVacuous_through inside v.transform).symm
  stats := .of_eq (written_stats inside).symm (exists_stats _)
  text := by
    have body := bodyLines_eq inside
    exact ⟨_, text_of_bodyLines body, text_of_bodyLines ((written_bodyLines inside).trans body)⟩

/-- Whatever is read of a rule through a transform is read of the rule written out under the transform as it is. -/
theorem through_readsAs {r : Rule} (inside : r.InWindow) (t : Transform) (kinds : Kinds) (id : RuleId) :
    (through r t kinds).ReadsAs (base (r.materialise t) id kinds) :=
  readsAs_written (v := through r t kinds) inside (some id)

/-- The left button turns a sprite on the right of the player to the right, and one like it is left behind. -/
def signpost : Rule where
  trigger := .button
  arg := 0
  clauses := [{
    cell := ⟨3, 2⟩
    backgrounds := ⟨3, [0], by decide, by rintro _ b ⟨⟩; decide⟩
    sprites := ⟨2, [4], by decide, by rintro _ b ⟨⟩; decide⟩
    facing := .right
    commands := [.move (.go .right), .spawn ⟨1, some .right⟩] }]
  symmetry := .none

theorem signpost_inWindow : signpost.InWindow := by
  intro c member
  cases List.mem_singleton.mp member
  decide

theorem through_readsAs_signpost : signpost.InWindow ∧
    (through signpost .quarterLeft ⟨3, 2⟩).ReadsAs (base (signpost.materialise .quarterLeft) ⟨0⟩ ⟨3, 2⟩) ∧
    (base (signpost.materialise .quarterLeft) ⟨0⟩ ⟨3, 2⟩).button? = some (.arrow .down) ∧
    (base (signpost.materialise .quarterLeft) ⟨0⟩ ⟨3, 2⟩).facingOf 0 = some .up ∧
    (base (signpost.materialise .quarterLeft) ⟨0⟩ ⟨3, 2⟩).commands 0 = [.move (.go .up), .spawn ⟨1, some .up⟩] := by
  have inside : signpost.InWindow := by
    intro c member
    cases List.mem_singleton.mp member
    decide
  exact ⟨inside, through_readsAs inside .quarterLeft ⟨3, 2⟩ ⟨0⟩, by decide, by decide, by decide⟩

end View
end Playfield
