import Playfield.Proofs.Alike
import Playfield.Proofs.Board
import Playfield.Proofs.Mending
import Playfield.Proofs.Readings
import Playfield.Proofs.RuleBooks
import Playfield.Reckoned

/-!
# What is reckoned

Whatever a rule holds, its cells, headings and arguments are mapped without a fault, and so are the places of tiles on a
consistent board. All that can fail is the lookup of a demand, in a table that lacks the byte of a kind. So the matching that is
reckoned comes to the matching of the rules with their tables put in order, or fails for the want of such a byte. Where every
table is well formed the two are the same.
-/
namespace Playfield

/-! ### Cells, headings and arguments -/

namespace Cell

theorem byteDistance_eq : ∀ c : Cell, c.inWindow → c.byteDistance = .ok c.distance := forall_inWindow (by decide)

theorem reckonOffset_eq (c : Cell) : c.reckonOffset = .ok c.offset := by
  have col := c.col.toNat_lt
  have row := c.row.toNat_lt
  have reach : Word.half.reach = 2147483648 := rfl
  rw [reckonOffset, signed_eq_ok (by omega) (by omega), signed_eq_ok (by omega) (by omega)]
  rfl

theorem reckonNeighbourhood_eq : reckonNeighbourhood = .ok neighbourhood := by
  refine filterM_eq_ok_filter fun c member => ?_
  rw [byteDistance_eq c (mem_window.mp member)]
  rfl

end Cell

theorem Heading.turn_eq (h : Heading) {steps : UInt8} (few : steps.toNat ≤ 3) : h.turn steps = .ok (h.turned steps.toNat) := by
  have quarters : h.quarters ≤ 3 := by cases h <;> decide
  have size : Word.byte.size = 256 := rfl
  rw [turn, unsigned_eq_ok (by omega)]
  rfl

namespace Transform

variable (t : Transform)

theorem reckonCell_eq (c : Cell) : t.reckonCell c = t.onCell c := by
  by_cases inside : c.inWindow
  · revert c
    cases t <;> exact Cell.forall_inWindow (by decide)
  · cases t <;> exact (if_neg inside).trans (if_neg inside).symm

theorem reckonHeading_eq (h : Heading) : t.reckonHeading h = .ok (t.onHeading h) := by
  cases t with
  | flipColumns | flipRows => rfl
  | quarterLeft | halfTurn | quarterRight => exact h.turn_eq (by decide)

theorem reckonFacing_eq (f : Facing) : t.reckonFacing f = .ok (t.onFacing f) := by
  rw [reckonFacing, onFacing]
  cases f.heading? with
  | none => rfl
  | some h =>
    dsimp only
    rw [reckonHeading_eq]
    rfl

theorem reckonByte_eq (b : UInt8) : t.reckonByte b = .ok (t.onByte b) := by
  rw [reckonByte, onByte]
  cases (ofCode? b : Option Heading) with
  | none => rfl
  | some h =>
    dsimp only
    rw [reckonHeading_eq]
    rfl

theorem reckonArg_eq (inst : Instruction) (arg : UInt8) : t.reckonArg inst arg = .ok (t.onArg inst arg) := by
  cases inst with
  | move => exact t.reckonByte_eq arg
  | spawn =>
    rw [reckonArg, onArg]
    cases (Spawn.ofByte arg).motion with
    | none => rfl
    | some h =>
      dsimp only
      rw [reckonHeading_eq]
      rfl
  | paint | sprite | game | portal | block => rfl

end Transform

section

variable {δ : Type}

namespace View

variable (v : View δ)

theorem reckonClauseAt_eq (c : Cell) : v.reckonClauseAt c = v.clauseAt c := by
  rw [reckonClauseAt, clauseAt, storedCell]
  cases v.transform with
  | none => rfl
  | some t =>
    dsimp only
    rw [Transform.reckonCell_eq]
    rfl

theorem reckonButton_eq : v.reckonButton = .ok v.button? := by
  have argument : v.reckonArg = .ok v.arg := by
    rw [reckonArg, arg]
    cases v.transform with
    | none => rfl
    | some t => cases v.rule.trigger <;> first | rfl | exact t.reckonByte_eq v.rule.arg
  rw [reckonButton, button?, argument]
  cases v.rule.trigger <;> rfl

theorem reckonFacing_eq (i : Nat) : v.reckonFacing i = .ok (v.facingOf i) := by
  rw [reckonFacing, facingOf]
  cases v.clause? i with
  | none => rfl
  | some c =>
    cases v.transform with
    | none => rfl
    | some t =>
      dsimp only
      rw [Transform.reckonFacing_eq]
      rfl

theorem reckonCommands_eq (i : Nat) : v.reckonCommands i = .ok (v.commands i) := by
  have each (c : Command) : v.reckonShown c = .ok (v.shown c) := by
    rw [reckonShown, shown]
    cases v.transform with
    | none => rfl
    | some t =>
      dsimp only
      rw [Transform.reckonArg_eq]
      rfl
  rw [reckonCommands, commands]
  cases v.clause? i with
  | none => rfl
  | some c => exact mapM_eq_ok_map fun command _ => each command

theorem reckonAccepts_eq (phase : Phase) (button : Option Button) : v.reckonAccepts phase button = .ok (v.accepts phase button) := by
  rw [reckonAccepts.eq_def, accepts.eq_def, reckonButton_eq]
  cases button <;> cases phase <;> cases v.rule.trigger <;> rfl

end View

/-! ### Places of tiles -/

namespace World

variable {w : World}

theorem Consistent.reckonIndex (c : Consistent w) (t : Tile) : w.reckonIndex t = .ok (w.index? t) := by
  rw [World.reckonIndex, index?]
  by_cases inside : w.inBounds t
  · have below : t.row.toNat * w.width + t.col.toNat < w.width * w.height :=
      (index?_eq_some (by rw [index?, if_pos inside])).2
    have area := c.area_lt
    obtain ⟨⟨col, _⟩, row, _⟩ := inBounds_iff.mp inside
    have rows : t.row * w.width = ((t.row.toNat * w.width : Nat) : Int) := by
      rw [Int.natCast_mul, Int.toNat_of_nonneg row]
    rw [if_pos inside, if_pos inside, rows, signed_eq_ok (by omega) (by omega), ok_bind,
      signed_eq_ok (by omega) (by omega), ok_bind]
    show Except.ok (some _) = _
    congr 2
    omega
  · rw [if_neg inside, if_neg inside]
    rfl

/-- Every tile of the board has its place in the row of backgrounds. -/
theorem Consistent.reckonBackgroundAt (c : Consistent w) (t : Tile) : w.reckonBackgroundAt t = .ok (w.backgroundAt t) := by
  rw [World.reckonBackgroundAt, c.reckonIndex, ok_bind, backgroundAt]
  cases placed : w.index? t with
  | none => rfl
  | some i =>
    have i_lt := (index?_eq_some placed).2
    rw [← c.filled] at i_lt
    rw [Option.bind_some]
    dsimp only
    rw [Backdrop.get?, if_pos i_lt]
    rfl

end World

variable [Packed δ]

/-! ### Tables that lack bytes -/

namespace Packed

/-- Every kind has its byte. -/
def Covered (d : δ) : Prop := len d ≤ 4 * (bytes d).length

instance (d : δ) : Decidable (Covered d) := inferInstanceAs (Decidable (_ ≤ _))

/-- The failures of a table of which a byte is missing. -/
def Lacks (d : δ) (cause : Fault) : Prop :=
  ∃ place, (bytes d).length ≤ place ∧ 4 * place < len d ∧ cause = .outOfRange place (bytes d).length

theorem Covered.not_lacks {d : δ} (covered : Covered d) (cause : Fault) : ¬Lacks d cause := by
  rintro ⟨place, past, before, _⟩
  rw [Covered] at covered
  omega

theorem covered_of_sized {d : δ} (sized : Sized d) : Covered d := by
  rw [Sized, Demands.packedLength] at sized
  rw [Covered]
  omega

/-- The demand on a kind is that of the table put in order, or the byte of the kind is missing. -/
theorem get_follows (d : δ) (kind : Nat) : Follows (Lacks d) (get d kind) (.ok ((mend d).get? kind)) := by
  rcases get_cases d kind with found | ⟨⟨inside, past⟩, failed⟩
  · exact .inl found
  · exact .inr ⟨_, ⟨kind / 4, past, by omega, rfl⟩, failed⟩

end Packed

namespace Rule

/-- Every kind has its byte in every table of a rule. -/
def Covered (r : Rule δ) : Prop := ∀ c ∈ r.clauses, Packed.Covered c.backgrounds ∧ Packed.Covered c.sprites

instance (r : Rule δ) : Decidable r.Covered := inferInstanceAs (Decidable (∀ c ∈ r.clauses, _))

/-- The failures of the tables of a rule. -/
def Lacks (r : Rule δ) (cause : Fault) : Prop :=
  ∃ c ∈ r.clauses, Packed.Lacks c.backgrounds cause ∨ Packed.Lacks c.sprites cause

theorem Covered.not_lacks {r : Rule δ} (covered : r.Covered) (cause : Fault) : ¬r.Lacks cause := by
  rintro ⟨c, member, backgrounds | sprites⟩
  · exact (covered c member).1.not_lacks cause backgrounds
  · exact (covered c member).2.not_lacks cause sprites

theorem covered (r : Rule) : r.Covered := fun c _ =>
  ⟨Packed.covered_of_sized (Packed.sized c.backgrounds), Packed.covered_of_sized (Packed.sized c.sprites)⟩

end Rule

/-! ### Views of rules put in order -/

namespace View

/-- The view of the rule with its tables put in order. -/
def mend (v : View δ) : View := ⟨v.rule.mend, v.id, v.transform, v.kinds⟩

variable (v : View δ)

theorem clause?_mend (i : Nat) : v.mend.clause? i = (v.clause? i).map Clause.mend := List.getElem?_map

theorem clauseAt_mend (c : Cell) : v.mend.clauseAt c = v.clauseAt c := by
  rw [clauseAt, clauseAt]
  simp only [mend, Rule.find?_mend]
  rfl

theorem facingOf_mend (i : Nat) : v.mend.facingOf i = v.facingOf i := by
  rw [facingOf, facingOf, clause?_mend, Option.map_map]
  rfl

theorem commands_mend (i : Nat) : v.mend.commands i = v.commands i := by
  rw [commands, commands, clause?_mend, Option.map_map]
  rfl

theorem reckonBackground_follows (i kind : Nat) :
    Follows v.rule.Lacks (v.reckonBackground i kind) (.ok (v.mend.background? i kind)) := by
  rw [reckonBackground, background?, clause?_mend]
  cases shown : v.clause? i with
  | none => exact .refl _
  | some c =>
    exact (Packed.get_follows c.backgrounds kind).imp fun cause lacks => ⟨c, List.mem_of_getElem? shown, .inl lacks⟩

theorem reckonSprite_follows (i kind : Nat) :
    Follows v.rule.Lacks (v.reckonSprite i kind) (.ok (v.mend.sprite? i kind)) := by
  rw [reckonSprite, sprite?, clause?_mend]
  cases shown : v.clause? i with
  | none => exact .refl _
  | some c =>
    exact (Packed.get_follows c.sprites kind).imp fun cause lacks => ⟨c, List.mem_of_getElem? shown, .inr lacks⟩

theorem reckonSelects_follows (kind : Nat) (motion : Option Heading) :
    Follows v.rule.Lacks (v.reckonSelects kind motion) (v.mend.selects kind motion) := by
  obtain ⟨place, found⟩ := v.mend.exists_clauseAt .centre
  rw [reckonSelects, reckonClauseAt_eq, ← clauseAt_mend, selects, centreFacing, hasSpriteKind, found]
  simp only [ok_bind]
  cases place with
  | none => exact .refl _
  | some i =>
    dsimp only
    rw [reckonFacing_eq, ← facingOf_mend, ok_bind]
    exact (v.reckonSprite_follows i kind).bind_ok (.refl _)

end View

/-! ### Matching -/

namespace Matcher

/-- Kinds are judged by what is seen of them. -/
theorem reckonJudge_follows {ι : Type} {may : Fault → Prop} (g : Grouping) {looks : List (Checked (Sighting ι))}
    {sightings : List (Sighting ι)} (each : List.Forall₂ (fun look s => Follows may look (.ok s)) looks sightings)
    (t : Tally ι) : Follows may (reckonJudge g t looks) (.ok (judge g t sightings)) := by
  induction each generalizing t with
  | nil => exact .refl _
  | @cons look s looks sightings here _ ih =>
    rw [reckonJudge, judge]
    refine here.bind_ok ?_
    by_cases broken : s.breaks g
    · rw [if_pos broken, if_pos broken]
      exact .refl _
    · rw [if_neg broken, if_neg broken]
      exact ih _

variable {w : World} (m : Matcher) (v : View δ)

theorem reckonGuard_follows (c : w.Consistent) (i : Nat) (tile : Tile) :
    Follows v.rule.Lacks (m.reckonGuard w v i tile) (.ok (m.guardAt w.grid v.mend i tile)) := by
  -- The tables need not cover every kind of the game, but every kind is looked at here.
  rw [reckonGuard, c.reckonBackgroundAt, ok_bind, guardAt_eq_judge]
  refine reckonJudge_follows m.grouping (List.rel_append ?_ ?_) .start
  · rw [List.forall₂_map_left_iff, List.forall₂_map_right_iff, List.forall₂_same]
    exact fun kind _ => (v.reckonBackground_follows i kind).bind_ok (.refl _)
  · rw [List.forall₂_map_left_iff, List.forall₂_map_right_iff, List.forall₂_same]
    exact fun kind _ => (v.reckonSprite_follows i kind).bind_ok (.refl _)

theorem reckonErrands_eq (i : Nat) (tile : Tile) (target : Option SpriteId) :
    reckonErrands w v i tile target = .ok (errands w.grid v.mend i tile target) := by
  rw [reckonErrands, View.reckonCommands_eq, errands, View.commands_mend]
  rfl

theorem reckonCentre_eq {home : Tile} {sprite : SpriteId} {centre : Option Nat} (found : v.mend.clauseAt .centre = .ok centre) :
    reckonCentre w v home sprite = .ok ((centre.map fun i => errands w.grid v.mend i home (some sprite)).getD []) := by
  rw [reckonCentre, View.reckonClauseAt_eq, ← View.clauseAt_mend, found, ok_bind]
  cases centre with
  | none => rfl
  | some i => exact reckonErrands_eq v i home (some sprite)

theorem reckonScan_follows (c : w.Consistent) (home : Tile) (cells : List Cell) :
    Follows v.rule.Lacks (m.reckonScan w v home cells) (m.scan w.grid v.mend home cells) := by
  induction cells with
  | nil => exact .refl _
  | cons cell rest ih =>
    rw [reckonScan, scan, View.reckonClauseAt_eq, ← View.clauseAt_mend]
    refine (Follows.refl _).bind fun place _ _ => ?_
    cases place with
    | none => exact ih
    | some i =>
      dsimp only
      rw [Cell.reckonOffset_eq, ok_bind]
      refine (Follows.refl _).bind fun tile _ _ => (m.reckonGuard_follows v c i tile).bind_ok ?_
      cases m.guardAt w.grid v.mend i tile with
      | fail => exact .refl _
      | pass witness => exact ih.map _

/-- Neighbours stand at cells that were scanned. -/
theorem cell_mem_of_scan {ι : Type} {g : Grid ι} {v : View} {home : Tile} {cells : List Cell} {around : List (Neighbour ι)}
    (scanned : m.scan g v home cells = .ok (some around)) : ∀ n ∈ around, n.cell ∈ cells := by
  induction cells generalizing around with
  | nil =>
    cases pure_eq_ok.mp scanned
    simp
  | cons cell rest ih =>
    rw [scan] at scanned
    obtain ⟨place, _, scanned⟩ := bind_eq_ok.mp scanned
    cases place with
    | none => exact fun n member => List.mem_cons_of_mem _ (ih scanned n member)
    | some i =>
      obtain ⟨tile, _, scanned⟩ := bind_eq_ok.mp scanned
      cases judged : m.guardAt g v i tile with
      | fail =>
        rw [judged] at scanned
        cases pure_eq_ok.mp scanned
      | pass witness =>
        rw [judged] at scanned
        obtain ⟨others, later, done⟩ := bind_eq_ok.mp scanned
        obtain ⟨others, rfl, rfl⟩ := Option.map_eq_some_iff.mp (pure_eq_ok.mp done)
        intro n member
        rcases List.mem_cons.mp member with rfl | behind
        · exact List.mem_cons_self
        · exact List.mem_cons_of_mem _ (ih later n behind)

theorem reckonEvaluate_follows (c : w.Consistent) (sprite : SpriteId) :
    Follows v.rule.Lacks (m.reckonEvaluate w sprite v) (m.evaluate w.grid sprite v.mend) := by
  rw [reckonEvaluate, evaluate, show w.grid.position sprite = w.position sprite from rfl]
  cases w.position sprite with
  | none => exact .refl _
  | some home =>
    dsimp only
    obtain ⟨centre, found⟩ := v.mend.exists_clauseAt .centre
    rw [reckonCentre_eq v found, found, Cell.reckonNeighbourhood_eq]
    simp only [ok_bind]
    refine (m.reckonScan_follows v c home _).bind fun around _ scanned => ?_
    cases around with
    | none => exact .refl _
    | some around =>
      have near : (around.filterM fun n => return decide ((← n.cell.byteDistance) ≤ 1)) =
          .ok (around.filter fun n => n.cell.distance ≤ 1) := by
        refine filterM_eq_ok_filter fun n member => ?_
        -- The distance fits a byte because the cell was scanned, so that it lies in the window.
        have inside := (Cell.mem_neighbourhood.mp (m.cell_mem_of_scan scanned n member)).1
        rw [Cell.byteDistance_eq n.cell inside]
        rfl
      have commands : (around.mapM fun n => reckonErrands w v n.clause n.tile n.witness) =
          .ok (around.map fun n => errands w.grid v.mend n.clause n.tile n.witness) :=
        mapM_eq_ok_map fun n _ => reckonErrands_eq v n.clause n.tile n.witness
      refine .of_eq ?_
      dsimp only
      rw [near, ok_bind, commands, ok_bind, ← List.flatMap_def]
      rfl

end Matcher
end
end Playfield
