import Playfield.Proofs.Guards
import Playfield.Proofs.Reachability
import Playfield.Proofs.Readings

/-!
# The witness that is announced

Of a clause alone it is told which sprite kind is going to be its witness: the first that it includes. A guard captures what is
on the board, and looks for kinds of both sets of inclusions. The two agree because a tile of a consistent world holds one
sprite: the one that a guard captures is the one on the tile, if its kind is included, and a kind that is announced has to be
there for the guard to pass.
-/
namespace Playfield

/-! ### What is announced -/

theorem Clause.included_of_witnessKind {c : Clause} {kind : Nat} (announced : c.witnessKind = some kind) :
    c.sprites.get? kind = some .included := by
  rw [witnessKind] at announced
  split at announced
  · obtain ⟨demand, asked, same⟩ := Demands.mem_kindsWhere.mp (List.mem_of_head? announced)
    rw [asked, beq_iff_eq.mp same]
  · cases announced

/-- A kind that is announced is known, and the clause includes it. -/
theorem View.demand_of_witnessKind {v : View} {kinds : Kinds} (sized : ∀ c ∈ v.rule.clauses, c.fits kinds) {cell : Cell}
    {i kind : Nat} {editor : Bool} (shown : v.clauseAt cell = .ok (some i))
    (announced : v.witnessKind cell editor = .ok (some kind)) :
    kind < kinds.sprites ∧ (Subject.sprite kind).demand v i = .included := by
  rw [witnessKind, shown] at announced
  split at announced
  · cases pure_eq_ok.mp announced
  · obtain ⟨c, found, announced⟩ := Option.bind_eq_some_iff.mp (pure_eq_ok.mp announced)
    rw [Option.bind_some] at found
    have asked := Clause.included_of_witnessKind announced
    have fits := sized c (List.mem_of_getElem? found)
    simp only [Clause.fits, Bool.and_eq_true, beq_iff_eq] at fits
    refine ⟨fits.2 ▸ (Option.ite_none_right_eq_some.mp asked).1, ?_⟩
    simp [Subject.demand, sprite?, found, asked]

/-! ### What is captured -/

/-- Of a clause that includes no sprite kind no sprite is captured. -/
theorem Matcher.Captures.eq_none {ι : Type} {m : Matcher} {g : Grid ι} {v : View} {i : Nat} {tile : Tile} {witness : Option ι}
    (captured : m.Captures g v i tile witness)
    (unasked : ∀ kind demand, v.sprite? i kind = some demand → demand.includes = false) : witness = none := by
  cases witness with
  | none => rfl
  | some x =>
    obtain ⟨kind, _, included, _⟩ := captured
    rw [Subject.demand] at included
    cases asked : v.sprite? i kind with
    | none => simp [asked, Demand.includes] at included
    | some demand => simp [asked, unasked kind demand asked] at included

namespace World

variable {w : World} {m : Matcher} {v : View} {i : Nat} {tile : Tile}

/-- Whatever a guard may capture stands alone on its tile, so no order among the kinds matters. -/
theorem Consistent.captures_some_iff (c : w.Consistent) {id : SpriteId} : m.Captures w.grid v i tile (some id) ↔
    w.occupant tile = some id ∧ ∃ s, w.sprite? id = some s ∧ s.kind < m.kinds.sprites ∧
      ((Subject.sprite s.kind).demand v i).includes := by
  constructor
  · rintro ⟨kind, known, included, there, _⟩
    obtain ⟨here, s, found, rfl⟩ := c.spriteAt_eq_some_iff.mp there
    exact ⟨here, s, found, known, included⟩
  · rintro ⟨here, s, found, known, included⟩
    refine ⟨s.kind, known, included, c.spriteAt_eq_some_iff.mpr ⟨here, s, found, rfl⟩, fun lower less _ => ?_⟩
    by_contra also
    obtain ⟨other, there⟩ := Option.ne_none_iff_exists'.mp also
    obtain ⟨same, r, stored, rfl⟩ := c.spriteAt_eq_some_iff.mp there
    rw [here] at same
    cases same
    rw [found] at stored
    cases stored
    exact Nat.lt_irrefl _ less

/-- A sprite of an included kind is captured where it stands. -/
theorem Consistent.eq_of_captures (c : w.Consistent) {witness : Option SpriteId} (captured : m.Captures w.grid v i tile witness)
    {s : Sprite} (here : w.occupant tile = some s.id) (found : w.sprite? s.id = some s) (known : s.kind < m.kinds.sprites)
    (included : ((Subject.sprite s.kind).demand v i).includes) : witness = some s.id := by
  cases witness with
  | none =>
    have there := c.spriteAt_eq_some_iff.mpr ⟨here, s, found, rfl⟩
    cases there.symm.trans (captured s.kind known included)
  | some other =>
    obtain ⟨also, _⟩ := c.captures_some_iff.mp captured
    rw [← also, here]

/-- In a world that is reached, a guard that passes captures the sprite on its tile, of the kind that is announced for its cell
    in any view; of a clause that includes no sprite kind it captures none. -/
theorem captures_announced (reached : w.Reachable) {kinds : Kinds} (sized : ∀ c ∈ v.rule.clauses, c.fits kinds) {cell : Cell}
    (shown : v.clauseAt cell = .ok (some i)) {witness : Option SpriteId}
    (passed : (Matcher.new kinds .standard).guardAt w.grid v i tile = .pass witness) :
    (∀ kind editor, v.witnessKind cell editor = .ok (some kind) →
      ∃ s, w.occupant tile = some s.id ∧ w.sprite? s.id = some s ∧ s.kind = kind ∧ witness = some s.id) ∧
    ((∀ kind demand, v.sprite? i kind = some demand → demand.includes = false) → witness = none) := by
  have c := reached.consistent
  obtain ⟨admits, captured⟩ := Matcher.guardAt_eq_pass_iff.mp passed
  refine ⟨fun kind editor announced => ?_, captured.eq_none⟩
  obtain ⟨known, included⟩ := View.demand_of_witnessKind sized shown announced
  -- The kind is needed, since of the kinds included in the first set all are.
  obtain ⟨id, there⟩ := admits.needed (.sprite kind) known included
  obtain ⟨here, s, found, rfl⟩ := c.spriteAt_eq_some_iff.mp there
  obtain rfl := c.own_id id s found
  exact ⟨s, here, found, rfl, c.eq_of_captures captured here found known (by rw [included]; rfl)⟩

/-- On the second tile of a row of two stands a sprite of the second kind. -/
def ahead : Checked World := do
  let w ← new 2 1 0 ⟨3, 2⟩ .standard
  Operation.runAll w [.spawn ⟨1, 0⟩ 1 none]

theorem captures_of_signpost : ∃ w s, ahead = .ok w ∧
    (View.through View.signpost .quarterLeft ⟨3, 2⟩).witnessKind ⟨2, 1⟩ false = .ok (some 1) ∧
    (Matcher.new ⟨3, 2⟩ .standard).guardAt w.grid (.through View.signpost .quarterLeft ⟨3, 2⟩) 0 ⟨1, 0⟩ = .pass (some s.id) ∧
    w.occupant ⟨1, 0⟩ = some s.id ∧ w.sprite? s.id = some s ∧ s.kind = 1 := by
  obtain ⟨w, x, built, passed⟩ : ∃ w x, ahead = .ok w ∧
      (Matcher.new ⟨3, 2⟩ .standard).guardAt w.grid (.through View.signpost .quarterLeft ⟨3, 2⟩) 0 ⟨1, 0⟩ = .pass x :=
    ⟨_, _, rfl, rfl⟩
  have announced : (View.through View.signpost .quarterLeft ⟨3, 2⟩).witnessKind ⟨2, 1⟩ false = .ok (some 1) := rfl
  have sized : ∀ c ∈ View.signpost.clauses, c.fits ⟨3, 2⟩ := by decide
  obtain ⟨s, here, found, kind, rfl⟩ := (captures_announced (.of_built built) sized rfl passed).1 1 false announced
  exact ⟨w, s, built, announced, passed, here, found, kind⟩

end World
end Playfield
