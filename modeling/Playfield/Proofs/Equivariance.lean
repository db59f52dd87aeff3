import Mathlib.Data.List.Nodup
import Playfield.Proofs.Neighbours

/-!
# Matching turned grids

If around a sprite one grid shows what another shows, mapped by a transform, then a rule seen through the
transform matches on the one grid exactly where the rule as it is matches on the other. The cells are scanned
in another order, so the firings do the same up to the order of the cells; the centre comes first in both, and
the commands of each cell keep their order.
-/
namespace Playfield

variable {ι : Type}

/-- Around a sprite on the tile `p'` the grid `g'` shows what `g` shows around the sprite on `p`, mapped by a
    transform. All tiles that are looked at can be named. -/
structure Grid.Turned (t : Transform) (s : ι) (g : Grid ι) (p : Tile) (g' : Grid ι) (p' : Tile) : Prop where
  home : g.position s = some p
  home' : g'.position s = some p'
  room : p.Roomy
  room' : p'.Roomy
  background : ∀ c ∈ Cell.neighbourhood,
    g'.backgroundAt (p'.shift (t.onOffset c.offset)) = g.backgroundAt (p.shift c.offset)
  sprite : ∀ c ∈ Cell.neighbourhood, ∀ kind,
    g'.spriteAt (p'.shift (t.onOffset c.offset)) kind = g.spriteAt (p.shift c.offset) kind
  motion : g'.motion s = (g.motion s).map t.onHeading
  motions : ∀ c ∈ Cell.neighbourhood, ∀ kind x, g.spriteAt (p.shift c.offset) kind = some x →
    g'.motion x = (g.motion x).map t.onHeading

/-- An errand around `p` mapped by a transform to one around `p'`: its tile, its argument and the motion of its
    target are mapped. -/
def Errand.turned (t : Transform) (p p' : Tile) (e : Errand ι) : Errand ι where
  command := { e.command with arg := t.onArg e.command.inst e.command.arg }
  tile := p'.shift (t.onOffset (p.offsetTo e.tile))
  target := e.target
  motion := e.motion.map t.onHeading

/-- A neighbour mapped by a transform to one around another tile. -/
def Neighbour.turned (t : Transform) (p' : Tile) (n : Neighbour ι) : Neighbour ι :=
  { n with cell := t.image n.cell, tile := p'.shift (t.onOffset n.cell.offset) }

/-- The errands on a tile come before all others. -/
def CentreFirst (home : Tile) (errands : List (Errand ι)) : Prop :=
  errands = errands.filter (·.tile = home) ++ errands.filter (·.tile ≠ home)

/-- The firing `f'` around `p'` does what `f` does around `p`, mapped by a transform. -/
structure Firing.Turned (t : Transform) (p p' : Tile) (f f' : Firing ι) : Prop where
  source : f'.rule = f.rule ∧ f.transform = none ∧ f'.transform = some t
  sprite : f'.sprite = f.sprite
  /-- The same sprites are witnesses. -/
  witnesses : f'.witnesses.Perm f.witnesses
  /-- The same commands are run. -/
  commands : f'.commands.Perm (f.commands.map (.turned t p p'))
  /-- On each tile they are run in the same order. -/
  order : ∀ tile, f'.commands.filter (·.tile = tile) = (f.commands.map (.turned t p p')).filter (·.tile = tile)
  centre : CentreFirst p f.commands
  centre' : CentreFirst p' f'.commands

/-! ### Cells -/

namespace Transform

theorem offset_image (t : Transform) : ∀ c : Cell, c.inWindow → (t.image c).offset = t.onOffset c.offset := by
  cases t <;> exact Cell.forall_inWindow (by decide)

/-- The neighbourhood is mapped onto itself. -/
theorem map_image_neighbourhood (t : Transform) : (Cell.neighbourhood.map t.image).Perm Cell.neighbourhood := by
  cases t <;> decide

theorem distance_image (t : Transform) : ∀ c : Cell, c.inWindow → (t.image c).distance = c.distance := by
  cases t <;> exact Cell.forall_inWindow (by decide)

end Transform

/-! ### Lists -/

/-- Lists of the same members no two of which have the same key agree on each key. -/
theorem filter_eq_of_perm {α κ : Type} [DecidableEq κ] {key : α → κ} {l l' : List α} (same : l.Perm l')
    (distinct : (l.map key).Nodup) (k : κ) : l.filter (key · = k) = l'.filter (key · = k) := by
  have single : (l.filter (key · = k)).length ≤ 1 := by
    have once := List.nodup_iff_count_le_one.mp distinct k
    rw [List.count, List.countP_map, List.countP_eq_length_filter] at once
    exact once
  have parts := same.filter (key · = k)
  generalize l.filter (key · = k) = here at single parts
  match here, single with
  | [], _ => exact (List.nil_perm.mp parts).symm
  | [a], _ => exact List.singleton_perm.mp parts

/-- What is gathered from members under their own keys is found under a key by gathering from the members under
    it. -/
theorem filter_flatMap_key {α β κ : Type} [DecidableEq κ] {key : α → κ} {key' : β → κ} {f : α → List β}
    (own : ∀ a, ∀ b ∈ f a, key' b = key a) (k : κ) (l : List α) :
    (l.flatMap f).filter (key' · = k) = (l.filter (key · = k)).flatMap f := by
  induction l with
  | nil => rfl
  | cons a rest ih =>
    rw [List.flatMap_cons, List.filter_append, ih]
    by_cases here : key a = k
    · have all : (f a).filter (key' · = k) = f a :=
        List.filter_eq_self.mpr fun b member => decide_eq_true ((own a b member).trans here)
      rw [all, List.filter_cons_of_pos (by simpa using here), List.flatMap_cons]
    · have none : (f a).filter (key' · = k) = [] :=
        List.filter_eq_nil_iff.mpr fun b member => by simpa [own a b member] using here
      rw [none, List.filter_cons_of_neg (by simpa using here), List.nil_append]

namespace View

variable {t : Transform} {v : View}

/-- A transform shows at the image of a cell what the rule as it is has at the cell. -/
theorem place?_image {c : Cell} (inside : c.inWindow) :
    place? { v with transform := some t } (t.image c) = place? { v with transform := none } c :=
  congrArg v.rule.find? (t.image_inverse c inside)

end View

namespace Matcher

variable {m : Matcher} {t : Transform} {v : View} {s : ι} {g g' : Grid ι} {p p' : Tile}

theorem guardAt_turned (seen : Grid.Turned t s g p g' p') {c : Cell} (near : c ∈ Cell.neighbourhood) (i : Nat) :
    m.guardAt g' { v with transform := some t } i (p'.shift (t.image c).offset) =
      m.guardAt g { v with transform := none } i (p.shift c.offset) := by
  rw [t.offset_image c (Cell.mem_neighbourhood.mp near).1]
  exact guardAt_congr rfl (seen.background c near) (seen.sprite c near)

theorem bars_turned (seen : Grid.Turned t s g p g' p') {c : Cell} (near : c ∈ Cell.neighbourhood) :
    m.Bars g' { v with transform := some t } p' (t.image c) ↔ m.Bars g { v with transform := none } p c := by
  simp only [Bars, View.place?_image (Cell.mem_neighbourhood.mp near).1, guardAt_turned seen near]

theorem neighbour?_turned (seen : Grid.Turned t s g p g' p') {c : Cell} (near : c ∈ Cell.neighbourhood) :
    m.neighbour? g' { v with transform := some t } p' (t.image c) =
      (m.neighbour? g { v with transform := none } p c).map (.turned t p') := by
  have inside := (Cell.mem_neighbourhood.mp near).1
  rw [neighbour?, neighbour?, View.place?_image inside]
  cases View.place? { v with transform := none } c with
  | none => rfl
  | some i =>
    dsimp only
    rw [guardAt_turned seen near]
    cases m.guardAt g { v with transform := none } i (p.shift c.offset) with
    | fail => rfl
    | pass witness =>
      rw [t.offset_image c inside]
      rfl

theorem around_turned (seen : Grid.Turned t s g p g' p') :
    (m.around g' { v with transform := some t } p').Perm
      ((m.around g { v with transform := none } p).map (.turned t p')) := by
  have images : (Cell.neighbourhood.map t.image).filterMap (m.neighbour? g' { v with transform := some t } p') =
      (m.around g { v with transform := none } p).map (.turned t p') := by
    rw [List.filterMap_map, around, List.map_filterMap]
    exact List.filterMap_congr fun c near => neighbour?_turned seen near
  -- Only the order in which the cells are scanned differs.
  rw [← images]
  exact (t.map_image_neighbourhood.filterMap _).symm

theorem errands_turned (i : Nat) (tile : Tile) {target : Option ι}
    (moved : ∀ x, target = some x → g'.motion x = (g.motion x).map t.onHeading) :
    errands g' { v with transform := some t } i (p'.shift (t.onOffset (p.offsetTo tile))) target =
      (errands g { v with transform := none } i tile target).map (.turned t p p') := by
  have motion : target.bind g'.motion = (target.bind g.motion).map t.onHeading := by
    cases target with
    | none => rfl
    | some x => exact moved x rfl
  rw [errands, errands, motion, View.commands, View.commands]
  show ((v.clause? i).map _ |>.getD []).map _ = (((v.clause? i).map _ |>.getD []).map _).map _
  cases v.clause? i with
  | none => rfl
  | some c =>
    simp only [Option.map_some, Option.getD_some, List.map_map]
    rfl

/-! ### Firings -/

theorem errands_neighbour (seen : Grid.Turned t s g p g' p') {n : Neighbour ι}
    (member : n ∈ m.around g { v with transform := none } p) :
    errands g' { v with transform := some t } (n.turned t p').clause (n.turned t p').tile (n.turned t p').witness =
      (errands g { v with transform := none } n.clause n.tile n.witness).map (.turned t p p') := by
  obtain ⟨near, tile, source⟩ := mem_around member
  have way : p.offsetTo n.tile = n.cell.offset := by rw [tile, p.offsetTo_shift]
  rw [← errands_turned, way]
  · rfl
  · intro x witness
    obtain ⟨kind, found⟩ := source x witness
    rw [tile] at found
    exact seen.motions _ near kind x found

theorem centre_first {centre rest : List (Errand ι)} (here : ∀ e ∈ centre, e.tile = p)
    (there : ∀ e ∈ rest, e.tile ≠ p) :
    CentreFirst p (centre ++ rest) := by
  have none_here : rest.filter (·.tile = p) = [] :=
    List.filter_eq_nil_iff.mpr fun e member => by simpa using there e member
  have all_here : centre.filter (·.tile = p) = centre :=
    List.filter_eq_self.mpr fun e member => by simpa using here e member
  have none_there : centre.filter (·.tile ≠ p) = [] :=
    List.filter_eq_nil_iff.mpr fun e member => by simpa using here e member
  have all_there : rest.filter (·.tile ≠ p) = rest :=
    List.filter_eq_self.mpr fun e member => by simpa using there e member
  rw [CentreFirst, List.filter_append, List.filter_append, none_here, all_here, none_there, all_there, List.append_nil,
    List.nil_append]

theorem centre_first_firing (centre : Option Nat) :
    CentreFirst p (firing g s v p centre (m.around g v p)).commands := by
  refine centre_first ?_ ?_
  · intro e member
    cases centre with
    | none => simp at member
    | some i => exact mem_errands member
  · intro e member
    obtain ⟨n, found, member⟩ := List.mem_flatMap.mp member
    obtain ⟨near, tile, _⟩ := mem_around found
    have away : ∀ c ∈ Cell.neighbourhood, c.offset ≠ Cell.centre.offset := by decide
    rw [mem_errands member, tile]
    intro same
    exact away _ near (p.shift_injective (same.trans p.shift_centre.symm))

theorem errands_centre (seen : Grid.Turned t s g p g' p') (i : Nat) :
    errands g' { v with transform := some t } i p' (some s) =
      (errands g { v with transform := none } i p (some s)).map (.turned t p p') := by
  have home : p'.shift (t.onOffset (p.offsetTo p)) = p' := by
    have still : p.offsetTo p = ⟨0, 0⟩ := by simp [Tile.offsetTo]
    rw [still]
    cases t <;> simp [Transform.onOffset, Tile.shift]
  rw [← errands_turned, home]
  rintro _ ⟨⟩
  exact seen.motion

theorem witnesses_turned :
    (((m.around g v p).map (Neighbour.turned t p')).filter fun n => n.cell.distance ≤ 1).filterMap (·.witness) =
      ((m.around g v p).filter fun n => n.cell.distance ≤ 1).filterMap (·.witness) := by
  have kept : (m.around g v p).filter ((fun n => n.cell.distance ≤ 1) ∘ Neighbour.turned t p') =
      (m.around g v p).filter fun n => n.cell.distance ≤ 1 := by
    refine List.filter_congr fun n member => ?_
    have inside := (Cell.mem_neighbourhood.mp (mem_around member).1).1
    exact congrArg (fun d => decide (d ≤ 1)) (t.distance_image _ inside)
  rw [List.filter_map, kept, List.filterMap_map]
  rfl

/-- The firings of a rule on two grids do the same if they come from neighbours that do. -/
theorem firing_turned (seen : Grid.Turned t s g p g' p') (centre : Option Nat) :
    Firing.Turned t p p'
      (firing g s { v with transform := none } p centre (m.around g { v with transform := none } p))
      (firing g' s { v with transform := some t } p' centre (m.around g' { v with transform := some t } p')) := by
  have neighbours := around_turned (m := m) (v := v) seen
  have first : (centre.map fun i => errands g' { v with transform := some t } i p' (some s)).getD [] =
      ((centre.map fun i => errands g { v with transform := none } i p (some s)).getD []).map (.turned t p p') := by
    cases centre with
    | none => rfl
    | some i => exact errands_centre seen i
  have others : ((m.around g { v with transform := none } p).flatMap fun n =>
        errands g { v with transform := none } n.clause n.tile n.witness).map (.turned t p p') =
      ((m.around g { v with transform := none } p).map (Neighbour.turned t p')).flatMap fun n =>
        errands g' { v with transform := some t } n.clause n.tile n.witness := by
    rw [List.map_flatMap, List.flatMap_map]
    exact List.flatMap_congr fun n member => (errands_neighbour seen member).symm
  constructor
  · exact ⟨rfl, rfl, rfl⟩
  · rfl
  · exact ((neighbours.filter _).filterMap _).trans (.of_eq witnesses_turned)
  · simp only [firing, List.map_append, ← first, others]
    exact (neighbours.flatMap_right _).append_left _
  · intro tile
    -- On a tile there is one neighbour at most, so the order of the neighbours does not show.
    have alone := filter_eq_of_perm neighbours nodup_tiles tile
    have own (n : Neighbour ι) (e : Errand ι)
        (member : e ∈ errands g' { v with transform := some t } n.clause n.tile n.witness) : e.tile = n.tile :=
      mem_errands member
    simp only [firing, List.map_append, ← first, others, List.filter_append]
    rw [filter_flatMap_key own, filter_flatMap_key own, alone]
  · exact centre_first_firing centre
  · exact centre_first_firing centre

/-- What is shown of the grids is matched alike: either a guard fails in both, or the rule fires in both and does
    the same. -/
theorem evaluate_turned (m : Matcher) (v : View) (seen : Grid.Turned t s g p g' p') :
    ∃ x x', m.evaluate g s { v with transform := none } = .ok x ∧
      m.evaluate g' s { v with transform := some t } = .ok x' ∧ Option.Rel (Firing.Turned t p p') x x' := by
  have onto {c : Cell} : c ∈ Cell.neighbourhood ↔ ∃ d ∈ Cell.neighbourhood, t.image d = c := by
    rw [← t.map_image_neighbourhood.mem_iff, List.mem_map]
  by_cases barred : ∃ c ∈ Cell.neighbourhood, m.Bars g { v with transform := none } p c
  · have barred' : ∃ c ∈ Cell.neighbourhood, m.Bars g' { v with transform := some t } p' c := by
      obtain ⟨c, near, bars⟩ := barred
      exact ⟨t.image c, onto.mpr ⟨c, near, rfl⟩, (bars_turned seen near).mpr bars⟩
    exact ⟨none, none, evaluate_barred seen.home seen.room barred, evaluate_barred seen.home' seen.room' barred', .none⟩
  · have clear : ∀ c ∈ Cell.neighbourhood, ¬m.Bars g { v with transform := none } p c :=
      fun c near bars => barred ⟨c, near, bars⟩
    have clear' : ∀ c ∈ Cell.neighbourhood, ¬m.Bars g' { v with transform := some t } p' c := by
      intro c image bars
      obtain ⟨d, near, rfl⟩ := onto.mp image
      exact clear d near ((bars_turned seen near).mp bars)
    have centre :
        View.place? { v with transform := some t } .centre = View.place? { v with transform := none } .centre := by
      have fixed : t.image .centre = .centre := by cases t <;> decide
      rw [← View.place?_image (t := t) (by decide), fixed]
    refine ⟨_, _, evaluate_clear seen.home seen.room clear, evaluate_clear seen.home' seen.room' clear', .some ?_⟩
    rw [centre]
    exact firing_turned seen _

/-- A sprite of the first kind on a tile, and one of the second kind on another that moves in a heading. -/
def pair (here there : Tile) (heading : Heading) : Grid Bool where
  backgroundAt _ := some 0
  spriteAt tile kind := if kind = 1 ∧ tile = there then some true else none
  position sprite := if sprite then some there else some here
  motion sprite := if sprite then some heading else none

/-- A sprite flees from one to its right, which goes on and leaves another behind. -/
def flight : View where
  rule := {
    trigger := .change
    arg := 0
    clauses := [
      { cell := ⟨3, 2⟩
        backgrounds := ⟨5, [0, 0], rfl, by rintro _ b ⟨⟩; decide⟩
        sprites := ⟨5, [4, 0], rfl, by rintro _ b ⟨⟩; decide⟩
        facing := .any
        commands := [.move (.go .right), .spawn ⟨1, some .right⟩] },
      { cell := .centre
        backgrounds := ⟨5, [0, 0], rfl, by rintro _ b ⟨⟩; decide⟩
        sprites := ⟨5, [1, 0], rfl, by rintro _ b ⟨⟩; decide⟩
        facing := .any
        commands := [.move (.go .left)] }]
    symmetry := .one .quarterLeft }
  id := some ⟨0⟩
  transform := none
  kinds := ⟨5, 5⟩

theorem evaluate_flight : ∃ f f', f.commands.length = 3 ∧
    evaluate ⟨⟨5, 5⟩, .second⟩ (pair ⟨5, 5⟩ ⟨6, 5⟩ .right) false flight = .ok (some f) ∧
    evaluate ⟨⟨5, 5⟩, .second⟩ (pair ⟨0, 9⟩ ⟨0, 8⟩ .up) false { flight with transform := some .quarterLeft } =
      .ok (some f') ∧
    Firing.Turned .quarterLeft ⟨5, 5⟩ ⟨0, 9⟩ f f' := by
  have seen : Grid.Turned .quarterLeft false (pair ⟨5, 5⟩ ⟨6, 5⟩ .right) ⟨5, 5⟩ (pair ⟨0, 9⟩ ⟨0, 8⟩ .up) ⟨0, 9⟩ := by
    refine ⟨rfl, rfl, by unfold Tile.Roomy; decide, by unfold Tile.Roomy; decide, fun _ _ => rfl, ?_, rfl, ?_⟩
    · intro c near kind
      have places : ∀ c ∈ Cell.neighbourhood,
          (Tile.shift ⟨0, 9⟩ (Transform.onOffset .quarterLeft c.offset) = ⟨0, 8⟩) =
            (Tile.shift ⟨5, 5⟩ c.offset = ⟨6, 5⟩) := by
        simp only [eq_iff_iff]
        decide
      simp only [pair, places c near]
    · intro c _ kind x found
      have only : x = true := by
        simp only [pair] at found
        split at found
        · exact (Option.some.inj found).symm
        · cases found
      rw [only]
      rfl
  obtain ⟨x, x', fires, fires', related⟩ := evaluate_turned ⟨⟨5, 5⟩, .second⟩ flight seen
  obtain ⟨f, fired, three⟩ : ∃ f, evaluate ⟨⟨5, 5⟩, .second⟩ (pair ⟨5, 5⟩ ⟨6, 5⟩ .right) false flight = .ok (some f) ∧
      f.commands.length = 3 := ⟨_, rfl, rfl⟩
  cases fires.symm.trans fired
  cases related with
  | some turned => exact ⟨f, _, three, fired, fires', turned⟩

end Matcher
end Playfield
