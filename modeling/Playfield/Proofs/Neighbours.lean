import Mathlib.Data.List.Nodup
import Playfield.Proofs.Guards
import Playfield.Proofs.Materialise
import Playfield.Proofs.Silence

/-!
# What is seen around a sprite

What the scan of a neighbourhood finds is told cell by cell. Where the tiles around a sprite can all be named,
the scan fails if one of the cells bars the match, and otherwise finds the neighbours at the cells in turn.
-/
namespace Playfield

variable {ι : Type}

namespace Tile

/-- The way from one tile to another. -/
def offsetTo (home tile : Tile) : Offset := ⟨tile.col - home.col, tile.row - home.row⟩

theorem offsetTo_shift (home : Tile) (o : Offset) : home.offsetTo (home.shift o) = o := by
  rw [offsetTo, shift, Int.add_comm home.col, Int.add_comm home.row, Int.add_sub_cancel, Int.add_sub_cancel]

theorem shift_injective (home : Tile) : Function.Injective home.shift :=
  Function.LeftInverse.injective (g := home.offsetTo) home.offsetTo_shift

/-- A tile at an offset has a name, or its coordinates overflow. -/
theorem shifted_eq (home : Tile) (o : Offset) :
    home.shifted o = .ok (home.shift o) ∨ home.shifted o = .error .overflow := by
  rw [shifted, signed, signed]
  split
  · split
    · exact .inl rfl
    · exact .inr rfl
  · exact .inr rfl

theorem shift_centre (home : Tile) : home.shift Cell.centre.offset = home := by
  simp [shift, Cell.offset, Cell.centre]

end Tile

namespace Transform

theorem image_inWindow (t : Transform) : ∀ c : Cell, c.inWindow → (t.image c).inWindow := by
  cases t <;> exact Cell.forall_inWindow (by decide)

end Transform

namespace View

/-- The cell at which the stored rule keeps what the view shows at a cell of the window. -/
def kept (v : View) (c : Cell) : Cell :=
  match v.transform with
  | some t => t.inverse.image c
  | none => c

/-- The place of the clause shown at a cell of the window. -/
def place? (v : View) (c : Cell) : Option Nat := v.rule.find? (v.kept c)

theorem storedCell_eq (v : View) {c : Cell} (inside : c.inWindow) : v.storedCell c = .ok (v.kept c) := by
  obtain ⟨rule, id, t, kinds⟩ := v
  cases t with
  | none => rfl
  | some t => exact t.inverse.onCell_eq_ok inside

theorem kept_inWindow (v : View) {c : Cell} (inside : c.inWindow) : (v.kept c).inWindow := by
  rw [kept]
  split
  · exact Transform.image_inWindow _ c inside
  · exact inside

theorem clauseAt_eq (v : View) {c : Cell} (inside : c.inWindow) : v.clauseAt c = .ok (v.place? c) := by
  rw [clauseAt, if_pos inside, v.storedCell_eq inside]
  rfl

/-- The tiles around a tile at which a view has a clause to check can be named. -/
def Named (v : View) (home : Tile) : Prop :=
  ∀ c ∈ Cell.neighbourhood, ∀ i, v.place? c = some i → home.shifted c.offset = .ok (home.shift c.offset)

end View

/-! ### Guards -/

namespace Matcher

variable {m : Matcher} {g g' : Grid ι} {v v' : View} {i j : Nat} {tile tile' : Tile}

/-- A guard is told by its clause and by what is at its tile. -/
theorem guardAt_congr (clause : v'.clause? j = v.clause? i) (backgrounds : g'.backgroundAt tile' = g.backgroundAt tile)
    (sprites : ∀ kind, g'.spriteAt tile' kind = g.spriteAt tile kind) :
    m.guardAt g' v' j tile' = m.guardAt g v i tile := by
  have background : background g' v' j tile' = background g v i tile := by
    funext kind
    rw [Matcher.background, Matcher.background, View.background?, View.background?, clause, backgrounds]
  have sprite : sprite g' v' j tile' = sprite g v i tile := by
    funext kind
    rw [Matcher.sprite, Matcher.sprite, View.sprite?, View.sprite?, clause, sprites]
  rw [guardAt_eq_judge, guardAt_eq_judge, background, sprite]

theorem guardAt_witness {x : ι} (passed : m.guardAt g v i tile = .pass (some x)) :
    ∃ kind, g.spriteAt tile kind = some x := by
  obtain ⟨_, kind, _, _, found, _⟩ := guardAt_eq_pass_iff.mp passed
  exact ⟨kind, found⟩

/-! ### The scan -/

/-- The clause shown at a cell has a guard that fails. -/
def Bars (m : Matcher) (g : Grid ι) (v : View) (home : Tile) (c : Cell) : Prop :=
  ∃ i, v.place? c = some i ∧ m.guardAt g v i (home.shift c.offset) = .fail

/-- The neighbour at a cell, if a clause is shown there the guard of which passes. -/
def neighbour? (m : Matcher) (g : Grid ι) (v : View) (home : Tile) (c : Cell) : Option (Neighbour ι) :=
  match v.place? c with
  | none => none
  | some i =>
    match m.guardAt g v i (home.shift c.offset) with
    | .fail => none
    | .pass witness => some ⟨c, i, home.shift c.offset, witness⟩

variable {home : Tile}

theorem neighbour?_eq_some_iff {c : Cell} {n : Neighbour ι} :
    m.neighbour? g v home c = some n ↔ v.place? c = some n.clause ∧
      m.guardAt g v n.clause (home.shift c.offset) = .pass n.witness ∧ n.cell = c ∧ n.tile = home.shift c.offset := by
  obtain ⟨cell, i, tile, witness⟩ := n
  rw [neighbour?]
  cases v.place? c with
  | none => simp
  | some j =>
    cases passed : m.guardAt g v j (home.shift c.offset) with
    | fail =>
      simp only [passed, reduceCtorEq, false_iff, Option.some_inj]
      rintro ⟨rfl, also, _⟩
      rw [passed] at also
      cases also
    | pass w =>
      simp only [passed, Option.some_inj, Neighbour.mk.injEq]
      constructor
      · rintro ⟨rfl, rfl, rfl, rfl⟩
        exact ⟨rfl, passed, rfl, rfl⟩
      · rintro ⟨rfl, also, rfl, rfl⟩
        rw [passed] at also
        exact ⟨rfl, rfl, rfl, Verdict.pass.inj also⟩

theorem shifted_near (room : home.Roomy) {c : Cell} (near : c ∈ Cell.neighbourhood) :
    home.shifted c.offset = .ok (home.shift c.offset) := by
  have small := (Cell.mem_neighbourhood.mp near).2.1
  rw [Cell.distance] at small
  exact Tile.shifted_eq_ok room (by omega) (by omega)

/-- Around a tile whose neighbourhood can be named, all tiles at which a view looks have names. -/
theorem named_of_roomy (room : home.Roomy) : v.Named home := fun _ near _ _ => shifted_near room near

/-- The first cell bars the match, or its neighbour comes before the others. -/
theorem scan_cons (named : v.Named home) {c : Cell} (near : c ∈ Cell.neighbourhood) (rest : List Cell) :
    m.Bars g v home c ∧ m.scan g v home (c :: rest) = .ok none ∨
      ¬m.Bars g v home c ∧ m.scan g v home (c :: rest) =
        (Option.map ((m.neighbour? g v home c).toList ++ ·)) <$> m.scan g v home rest := by
  have name := named c near
  rw [scan, v.clauseAt_eq (Cell.mem_neighbourhood.mp near).1, ok_bind, Bars, neighbour?]
  cases place : v.place? c with
  | none =>
    exact .inr ⟨by simp, by simp⟩
  | some i =>
    simp only [name i place, ok_bind, Option.some_inj, exists_eq_left']
    cases m.guardAt g v i (home.shift c.offset) with
    | fail => exact .inl ⟨rfl, rfl⟩
    | pass witness => exact .inr ⟨by simp, by simp⟩

theorem scan_barred (named : v.Named home) {cells : List Cell} (near : ∀ c ∈ cells, c ∈ Cell.neighbourhood)
    (barred : ∃ c ∈ cells, m.Bars g v home c) : m.scan g v home cells = .ok none := by
  induction cells with
  | nil => simp at barred
  | cons c rest ih =>
    obtain ⟨here, near⟩ := List.forall_mem_cons.mp near
    rcases scan_cons (m := m) (g := g) named here rest with ⟨_, stopped⟩ | ⟨passed, scanned⟩
    · exact stopped
    · obtain ⟨d, member, bars⟩ := barred
      rcases List.mem_cons.mp member with rfl | later
      · exact absurd bars passed
      · rw [scanned, ih near ⟨d, later, bars⟩]
        rfl

theorem scan_clear (named : v.Named home) {cells : List Cell} (near : ∀ c ∈ cells, c ∈ Cell.neighbourhood)
    (clear : ∀ c ∈ cells, ¬m.Bars g v home c) :
    m.scan g v home cells = .ok (some (cells.filterMap (m.neighbour? g v home))) := by
  induction cells with
  | nil => rfl
  | cons c rest ih =>
    obtain ⟨here, near⟩ := List.forall_mem_cons.mp near
    obtain ⟨passed, clear⟩ := List.forall_mem_cons.mp clear
    rcases scan_cons (m := m) (g := g) named here rest with ⟨bars, _⟩ | ⟨_, scanned⟩
    · exact absurd bars passed
    · rw [scanned, ih near clear, List.filterMap_cons]
      cases m.neighbour? g v home c <;> rfl

/-! ### Firings -/

/-- The neighbours of a sprite, cell by cell. -/
def around (m : Matcher) (g : Grid ι) (v : View) (home : Tile) : List (Neighbour ι) :=
  Cell.neighbourhood.filterMap (m.neighbour? g v home)

theorem mem_around {n : Neighbour ι} (member : n ∈ m.around g v home) :
    n.cell ∈ Cell.neighbourhood ∧ n.tile = home.shift n.cell.offset ∧
      ∀ x, n.witness = some x → ∃ kind, g.spriteAt n.tile kind = some x := by
  obtain ⟨c, near, found⟩ := List.mem_filterMap.mp member
  obtain ⟨_, passed, rfl, tile⟩ := neighbour?_eq_some_iff.mp found
  refine ⟨near, tile, fun x witness => ?_⟩
  rw [witness] at passed
  rw [tile]
  exact guardAt_witness passed

/-- No two neighbours are on one tile. -/
theorem nodup_tiles : ((m.around g v home).map (·.tile)).Nodup := by
  have apart : Cell.neighbourhood.Pairwise fun c d => c.offset ≠ d.offset := by decide
  rw [List.Nodup, List.pairwise_map, around, List.pairwise_filterMap]
  refine apart.imp ?_
  intro c d differ n found n' found' same
  obtain ⟨_, _, _, tile⟩ := neighbour?_eq_some_iff.mp found
  obtain ⟨_, _, _, tile'⟩ := neighbour?_eq_some_iff.mp found'
  exact differ (home.shift_injective (tile.symm.trans (same.trans tile')))

theorem mem_errands {i : Nat} {tile : Tile} {target : Option ι} {e : Errand ι}
    (member : e ∈ errands g v i tile target) : e.tile = tile := by
  obtain ⟨_, _, rfl⟩ := List.mem_map.mp member
  rfl

/-- A sprite that has a tile is matched by the scan around it. -/
theorem evaluate_of_scan {s : ι} (placed : g.position s = some home) {around : Option (List (Neighbour ι))}
    (scanned : m.scan g v home Cell.neighbourhood = .ok around) :
    m.evaluate g s v = .ok (around.map (firing g s v home (v.place? .centre))) := by
  rw [evaluate, placed]
  dsimp only
  rw [v.clauseAt_eq (by decide), ok_bind, scanned]
  rfl

theorem evaluate_barred {s : ι} (placed : g.position s = some home) (room : home.Roomy)
    (barred : ∃ c ∈ Cell.neighbourhood, m.Bars g v home c) : m.evaluate g s v = .ok none :=
  evaluate_of_scan placed (scan_barred (named_of_roomy room) (fun _ near => near) barred)

theorem evaluate_clear {s : ι} (placed : g.position s = some home) (room : home.Roomy)
    (clear : ∀ c ∈ Cell.neighbourhood, ¬m.Bars g v home c) :
    m.evaluate g s v = .ok (some (firing g s v home (v.place? .centre) (m.around g v home))) :=
  evaluate_of_scan placed (scan_clear (named_of_roomy room) (fun _ near => near) clear)

end Matcher
end Playfield
