import Playfield.Proofs.Alike
import Playfield.Proofs.Firings

/-!
# Matches cell by cell

A match is put together from what each cell around the sprite adds to it, in their order. Two matches, of two views or on two
grids, so agree as soon as the cells do, also where a tile has no name.
-/
namespace Playfield

variable {ι : Type}

theorem View.place?_eq_none {v : View} {c : Cell} (nowhere : v.shownAt c = none) : v.place? c = none := by
  cases found : v.place? c with
  | none => rfl
  | some i =>
    obtain ⟨clause, there⟩ := place?_eq_some found
    simp [shownAt, found, there] at nowhere

namespace Matcher

/-- What a firing takes from its neighbours: the witnesses next to the sprite, and the errands. -/
def haul (g : Grid ι) (v : View) (around : List (Neighbour ι)) : List ι × List (Errand ι) :=
  ((around.filter fun n => n.cell.distance ≤ 1).filterMap (·.witness),
    around.flatMap fun n => errands g v n.clause n.tile n.witness)

/-- The haul of a scan. -/
def sweep (m : Matcher) (g : Grid ι) (v : View) (home : Tile) (cells : List Cell) :
    Checked (Option (List ι × List (Errand ι))) := Option.map (haul g v) <$> m.scan g v home cells

/-- What one cell adds to the haul; `none` if its guard fails. -/
def share (m : Matcher) (g : Grid ι) (v : View) (home : Tile) (c : Cell) :
    Checked (Option (List ι × List (Errand ι))) :=
  match v.place? c with
  | none => return some ([], [])
  | some i => do
    let tile ← home.shifted c.offset
    match m.guardAt g v i tile with
    | .fail => return none
    | .pass witness => return some (if c.distance ≤ 1 then witness.toList else [], errands g v i tile witness)

/-- The share of a cell before the haul of the cells that follow. -/
def gather (rest : Checked (Option (List ι × List (Errand ι)))) :
    Option (List ι × List (Errand ι)) → Checked (Option (List ι × List (Errand ι)))
  | none => return none
  | some part => Option.map (fun others => (part.1 ++ others.1, part.2 ++ others.2)) <$> rest

variable {m : Matcher} {g g' : Grid ι} {v u : View} {s : ι} {home : Tile} {c : Cell}

theorem haul_cons (n : Neighbour ι) (rest : List (Neighbour ι)) : haul g v (n :: rest) =
    ((if n.cell.distance ≤ 1 then n.witness.toList else []) ++ (haul g v rest).1,
      errands g v n.clause n.tile n.witness ++ (haul g v rest).2) := by
  by_cases next : n.cell.distance ≤ 1 <;> cases witness : n.witness <;> simp [haul, next, witness]

theorem gather_empty (rest : Checked (Option (List ι × List (Errand ι)))) : gather rest (some ([], [])) = rest := by
  have unchanged : Option.map (fun others : List ι × List (Errand ι) => ([] ++ others.1, [] ++ others.2)) = id :=
    Option.map_id
  rw [gather, unchanged, id_map]

/-! ### The sweep -/

theorem sweep_cons (inside : c.inWindow) (cells : List Cell) :
    m.sweep g v home (c :: cells) = m.share g v home c >>= gather (m.sweep g v home cells) := by
  rw [sweep, scan, share, v.clauseAt_eq inside, ok_bind]
  cases v.place? c with
  | none => exact (gather_empty _).symm
  | some i =>
    dsimp only
    rw [map_bind, bind_assoc]
    congr 1
    funext tile
    cases m.guardAt g v i tile with
    | fail => rfl
    | pass witness =>
      simp only [gather, Option.map_map, sweep, bind_pure_comp, Functor.map_map, pure_bind]
      refine congrArg (· <$> _) (funext fun around => congrArg (Option.map · around) (funext fun rest => ?_))
      exact haul_cons _ rest

theorem evaluate_eq_sweep (placed : g.position s = some home) : m.evaluate g s v =
    Option.map (fun h => ⟨v.id, v.transform, s, h.1, (v.orders .centre).map (.bound g home (some s)) ++ h.2⟩) <$>
      m.sweep g v home Cell.neighbourhood := by
  rw [evaluate, placed]
  dsimp only
  rw [v.clauseAt_eq (by decide), ok_bind, sweep, ← errands_centre_eq]
  simp only [Functor.map_map, Option.map_map, bind_pure_comp]
  rfl

/-- Sweeps agree if the shares of all cells do. -/
theorem sweep_unless {lacking : Prop} {cells : List Cell} (near : ∀ c ∈ cells, c ∈ Cell.neighbourhood)
    (each : ∀ c ∈ cells, Unless lacking (m.share g v home c) (m.share g' u home c)) :
    Unless lacking (m.sweep g v home cells) (m.sweep g' u home cells) := by
  induction cells with
  | nil => exact .inl rfl
  | cons c rest ih =>
    obtain ⟨here, near⟩ := List.forall_mem_cons.mp near
    obtain ⟨first, each⟩ := List.forall_mem_cons.mp each
    have inside := (Cell.mem_neighbourhood.mp here).1
    rw [sweep_cons inside, sweep_cons inside]
    refine first.bind fun part _ => ?_
    cases part with
    | none => exact .refl _
    | some part => exact (ih near each).map _

/-- Matches agree if the shares of all cells around the sprite and the commands of its own cell do. -/
theorem evaluate_unless {lacking : Tile → Prop} (id : u.id = v.id) (transform : u.transform = v.transform)
    (centre : u.orders .centre = v.orders .centre) (position : g'.position s = g.position s)
    (motion : g'.motion s = g.motion s)
    (each : ∀ home, g.position s = some home → ∀ c ∈ Cell.neighbourhood,
      Unless (lacking home) (m.share g v home c) (m.share g' u home c)) :
    Unless (∃ home, g.position s = some home ∧ lacking home) (m.evaluate g s v) (m.evaluate g' s u) := by
  cases placed : g.position s with
  | none =>
    rw [evaluate, evaluate, position, placed]
    exact .refl _
  | some home =>
    have bound : Errand.bound g' home (some s) = Errand.bound g home (some s) := by
      funext command
      rw [Errand.bound, Errand.bound, Option.bind_some, Option.bind_some, motion]
    have swept : Unless (lacking home) (m.sweep g v home Cell.neighbourhood) (m.sweep g' u home Cell.neighbourhood) :=
      sweep_unless (fun _ near => near) (each home placed)
    rw [evaluate_eq_sweep placed, evaluate_eq_sweep (position.trans placed), id, transform, centre, bound]
    exact (swept.imp fun far => ⟨home, rfl, far⟩).map _

/-! ### Shares -/

theorem share_of_nowhere (nowhere : v.shownAt c = none) : m.share g v home c = .ok (some ([], [])) := by
  rw [share, View.place?_eq_none nowhere]
  rfl

/-- A cell adds the same in two matches if the same clause is shown there and the same is found on its tile. -/
theorem share_congr (transform : u.transform = v.transform) (shown : u.shownAt c = v.shownAt c)
    (found : ∀ tile, home.shifted c.offset = .ok tile → g'.backgroundAt tile = g.backgroundAt tile ∧
      ∀ kind, g'.spriteAt tile kind = g.spriteAt tile kind ∧
        ∀ x, g.spriteAt tile kind = some x → g'.motion x = g.motion x) :
    m.share g' u home c = m.share g v home c := by
  rw [share, share]
  rcases View.place?_of_shownAt shown with ⟨theirs, ours⟩ | ⟨j, i, theirs, ours, clause⟩
  · rw [theirs, ours]
  · rw [theirs, ours]
    dsimp only
    cases named : home.shifted c.offset with
    | error cause => rfl
    | ok tile =>
      obtain ⟨background, sprites⟩ := found tile named
      have commands : u.commands j = v.commands i := by
        have seen : u.shown = v.shown := by
          funext command
          rw [View.shown, View.shown, transform]
        rw [View.commands, View.commands, clause, seen]
      rw [ok_bind, ok_bind, guardAt_congr clause background fun kind => (sprites kind).1]
      cases verdict : m.guardAt g v i tile with
      | fail => rfl
      | pass witness =>
        have motion : witness.bind g'.motion = witness.bind g.motion := by
          cases witness with
          | none => rfl
          | some x =>
            obtain ⟨kind, here⟩ := guardAt_witness verdict
            exact (sprites kind).2 x here
        simp only [errands, commands, motion]

end Matcher
end Playfield
