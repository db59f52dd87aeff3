import Playfield.Proofs.Equivariance

/-!
# What a firing does

A match is told at once, without the scan: the guards of all clauses at distance 1 or 2 pass, and what is to be done is
read off the cells one by one. What else a rule asks, at the centre or further out, is never looked at.
-/
namespace Playfield

variable {ι : Type}

namespace View

/-- The clause shown at a cell of the window. -/
def shownAt (v : View) (c : Cell) : Option Clause := (v.place? c).bind v.clause?

/-- The commands shown at a cell of the window, in their order and as they are seen. -/
def orders (v : View) (c : Cell) : List Command := (((v.shownAt c).map Clause.commands).getD []).map v.shown

/-- Two views of the same rule id and transform show the same commands at the centre and the same clauses at the distances 1
    and 2. -/
structure SameAround (v u : View) : Prop where
  id : u.id = v.id
  transform : u.transform = v.transform
  centre : u.orders .centre = v.orders .centre
  around : ∀ c : Cell, c.distance = 1 ∨ c.distance = 2 → u.shownAt c = v.shownAt c

end View

/-- A command for a tile and a target, with the motion that the target has in the grid. -/
def Errand.bound (g : Grid ι) (tile : Tile) (target : Option ι) (command : Command) : Errand ι :=
  ⟨command, tile, target, target.bind g.motion⟩

namespace Matcher

/-- Of each clause shown at the distances 1 and 2 the guard passes. -/
def Clear (m : Matcher) (g : Grid ι) (v : View) (home : Tile) : Prop :=
  ∀ c : Cell, c.distance = 1 ∨ c.distance = 2 → ∀ i, v.place? c = some i →
    ∃ witness, m.guardAt g v i (home.shift c.offset) = .pass witness

/-- What the guard of the clause shown at a cell captures. -/
def captured (m : Matcher) (g : Grid ι) (v : View) (home : Tile) (c : Cell) : Option ι :=
  (v.place? c).bind fun i =>
    match m.guardAt g v i (home.shift c.offset) with
    | .pass witness => witness
    | .fail => none

/-- The firing of a view around a sprite, read off the cells: the commands of the centre for the sprite itself, then those of
    each cell around it, column by column, for the tile of the cell and for what is captured there. -/
def outcome (m : Matcher) (g : Grid ι) (s : ι) (v : View) (home : Tile) : Firing ι where
  rule := v.id
  transform := v.transform
  sprite := s
  witnesses := (Cell.neighbourhood.filter fun c => c.distance = 1).filterMap (m.captured g v home)
  commands :=
    (v.orders .centre).map (.bound g home (some s)) ++
      Cell.neighbourhood.flatMap fun c => (v.orders c).map (.bound g (home.shift c.offset) (m.captured g v home c))

end Matcher

namespace Cell

theorem mem_neighbourhood_iff {c : Cell} : c ∈ neighbourhood ↔ c.distance = 1 ∨ c.distance = 2 := by
  have apart : ∀ c : Cell, c.inWindow → (c.distance = 0 ↔ c = centre) := forall_inWindow (by decide)
  rw [mem_neighbourhood]
  constructor
  · rintro ⟨inside, near, other⟩
    have := mt (apart c inside).mp other
    omega
  · intro near
    have inside : c.inWindow := by
      rw [distance, offset] at near
      rw [inWindow_iff, side]
      dsimp only at near
      omega
    refine ⟨inside, by omega, fun same => ?_⟩
    have := (apart c inside).mpr same
    omega

end Cell

namespace View

variable {v u : View}

theorem place?_eq_some {c : Cell} {i : Nat} (found : v.place? c = some i) : ∃ clause, v.clause? i = some clause := by
  obtain ⟨inside, _⟩ := List.findIdx?_eq_some_iff_getElem.mp found
  exact ⟨_, List.getElem?_eq_getElem inside⟩

/-- Where both views show the same clause, it has a place in both or in none. -/
theorem place?_of_shownAt {c : Cell} (same : u.shownAt c = v.shownAt c) :
    (u.place? c = none ∧ v.place? c = none) ∨
      ∃ j i, u.place? c = some j ∧ v.place? c = some i ∧ u.clause? j = v.clause? i := by
  rw [shownAt, shownAt] at same
  cases theirs : u.place? c with
  | none =>
    cases ours : v.place? c with
    | none => exact .inl ⟨rfl, rfl⟩
    | some i =>
      obtain ⟨clause, found⟩ := place?_eq_some ours
      simp [theirs, ours, found] at same
  | some j =>
    cases ours : v.place? c with
    | none =>
      obtain ⟨clause, found⟩ := place?_eq_some theirs
      simp [theirs, ours, found] at same
    | some i =>
      rw [theirs, ours] at same
      exact .inr ⟨j, i, rfl, rfl, same⟩

theorem orders_of_place? {c : Cell} {i : Nat} (found : v.place? c = some i) : v.orders c = v.commands i := by
  rw [orders, shownAt, found, commands, Option.bind_some]
  cases v.clause? i <;> rfl

theorem orders_of_nowhere {c : Cell} (nowhere : v.place? c = none) : v.orders c = [] := by
  rw [orders, shownAt, nowhere]
  rfl

end View

namespace Matcher

variable {m : Matcher} {g : Grid ι} {v u : View} {s : ι} {home : Tile}

/-! ### Cell by cell -/

theorem captured_eq (c : Cell) : m.captured g v home c = (m.neighbour? g v home c).bind (·.witness) := by
  rw [captured, neighbour?]
  cases v.place? c with
  | none => rfl
  | some i =>
    dsimp only [Option.bind_some]
    cases m.guardAt g v i (home.shift c.offset) <;> rfl

theorem clear_iff : m.Clear g v home ↔ ∀ c ∈ Cell.neighbourhood, ¬m.Bars g v home c := by
  refine forall_congr' fun c => ?_
  rw [Cell.mem_neighbourhood_iff]
  refine imp_congr_right fun _ => ?_
  constructor
  · rintro passes ⟨i, found, fails⟩
    obtain ⟨witness, passed⟩ := passes i found
    cases fails.symm.trans passed
  · intro passes i found
    cases verdict : m.guardAt g v i (home.shift c.offset) with
    | fail => exact absurd ⟨i, found, verdict⟩ passes
    | pass witness => exact ⟨witness, rfl⟩

theorem errands_centre_eq : ((v.place? .centre).map fun i => errands g v i home (some s)).getD [] =
    (v.orders .centre).map (.bound g home (some s)) := by
  cases place : v.place? .centre with
  | none => rw [View.orders_of_nowhere place]; rfl
  | some i => rw [View.orders_of_place? place]; rfl

theorem errands_neighbour_eq {c : Cell} (passes : ¬m.Bars g v home c) :
    (m.neighbour? g v home c).toList.flatMap (fun n => errands g v n.clause n.tile n.witness) =
      (v.orders c).map (.bound g (home.shift c.offset) (m.captured g v home c)) := by
  rw [captured_eq, neighbour?]
  cases place : v.place? c with
  | none => rw [View.orders_of_nowhere place]; rfl
  | some i =>
    rw [View.orders_of_place? place]
    cases verdict : m.guardAt g v i (home.shift c.offset) with
    | fail => exact absurd ⟨i, place, verdict⟩ passes
    | pass witness => simp [verdict, errands, Errand.bound]

/-! ### The firing -/

theorem witnesses_around : ((m.around g v home).filter fun n => n.cell.distance ≤ 1).filterMap (·.witness) =
    (Cell.neighbourhood.filter fun c => c.distance = 1).filterMap (m.captured g v home) := by
  rw [around, List.filterMap_filter, List.filterMap_filterMap, List.filterMap_filter]
  refine List.filterMap_congr fun c near => ?_
  rw [captured_eq]
  have positive := Cell.mem_neighbourhood_iff.mp near
  cases found : m.neighbour? g v home c with
  | none => simp
  | some n =>
    obtain ⟨_, _, rfl, _⟩ := neighbour?_eq_some_iff.mp found
    have same : n.cell.distance ≤ 1 ↔ n.cell.distance = 1 := by omega
    simp [same]

/-- Where no guard fails, the firing is what the cells give. -/
theorem firing_eq_outcome (clear : m.Clear g v home) :
    firing g s v home (v.place? .centre) (m.around g v home) = m.outcome g s v home := by
  have neighbours : (m.around g v home).flatMap (fun n => errands g v n.clause n.tile n.witness) =
      Cell.neighbourhood.flatMap fun c => (v.orders c).map (.bound g (home.shift c.offset) (m.captured g v home c)) := by
    rw [around, List.filterMap_eq_flatMap_toList, List.flatMap_assoc]
    exact List.flatMap_congr fun c near => errands_neighbour_eq (clear_iff.mp clear c near)
  rw [firing, outcome, witnesses_around, errands_centre_eq, neighbours]

theorem exists_evaluate_placed (placed : g.position s = some home) (named : v.Named home) :
    ∃ x, m.evaluate g s v = .ok x ∧ ∀ f, x = some f ↔ m.Clear g v home ∧ f = m.outcome g s v home := by
  by_cases clear : m.Clear g v home
  · refine ⟨_, evaluate_of_scan placed (scan_clear named (fun _ near => near) (clear_iff.mp clear)), fun f => ?_⟩
    rw [Option.map_some, ← around, firing_eq_outcome clear, Option.some_inj, and_iff_right clear, eq_comm]
  · have barred : ∃ c ∈ Cell.neighbourhood, m.Bars g v home c := by simpa [clear_iff] using clear
    refine ⟨_, evaluate_of_scan placed (scan_barred named (fun _ near => near) barred), fun f => ?_⟩
    simp [clear]

end Matcher

/-! ### What is never looked at -/

namespace View.SameAround

variable {v u : View} {g : Grid ι} {home : Tile}

theorem symm (same : v.SameAround u) : u.SameAround v where
  id := same.id.symm
  transform := same.transform.symm
  centre := same.centre.symm
  around c near := (same.around c near).symm

theorem orders (same : v.SameAround u) {c : Cell} (near : c ∈ Cell.neighbourhood) : u.orders c = v.orders c := by
  have shown : u.shown = v.shown := by
    funext command
    rw [View.shown, View.shown, same.transform]
  rw [View.orders, View.orders, same.around c (Cell.mem_neighbourhood_iff.mp near), shown]

theorem named (same : v.SameAround u) (named : v.Named home) : u.Named home := by
  intro c near j found
  rcases place?_of_shownAt (same.around c (Cell.mem_neighbourhood_iff.mp near)) with ⟨nowhere, _⟩ | ⟨_, i, _, ours, _⟩
  · cases nowhere.symm.trans found
  · exact named c near i ours

theorem clear (same : v.SameAround u) {m : Matcher} (clear : m.Clear g v home) : m.Clear g u home := by
  intro c near j found
  rcases place?_of_shownAt (same.around c near) with ⟨nowhere, _⟩ | ⟨k, i, theirs, ours, clause⟩
  · cases nowhere.symm.trans found
  · cases theirs.symm.trans found
    rw [Matcher.guardAt_congr clause rfl fun _ => rfl]
    exact clear c near i ours

theorem captured (same : v.SameAround u) (m : Matcher) {c : Cell} (near : c ∈ Cell.neighbourhood) :
    m.captured g u home c = m.captured g v home c := by
  rw [Matcher.captured, Matcher.captured]
  rcases place?_of_shownAt (same.around c (Cell.mem_neighbourhood_iff.mp near)) with
    ⟨theirs, ours⟩ | ⟨j, i, theirs, ours, clause⟩
  · rw [theirs, ours]
    rfl
  · rw [theirs, ours, Option.bind_some, Option.bind_some, Matcher.guardAt_congr clause rfl fun _ => rfl]

theorem outcome (same : v.SameAround u) (m : Matcher) (s : ι) : m.outcome g s u home = m.outcome g s v home := by
  have witnesses : (Cell.neighbourhood.filter fun c => c.distance = 1).filterMap (m.captured g u home) =
      (Cell.neighbourhood.filter fun c => c.distance = 1).filterMap (m.captured g v home) :=
    List.filterMap_congr fun c member => same.captured m (List.mem_filter.mp member).1
  have neighbours :
      (Cell.neighbourhood.flatMap fun c =>
          (u.orders c).map (Errand.bound g (home.shift c.offset) (m.captured g u home c))) =
        Cell.neighbourhood.flatMap fun c =>
          (v.orders c).map (Errand.bound g (home.shift c.offset) (m.captured g v home c)) :=
    List.flatMap_congr fun c near => by rw [same.orders near, same.captured m near]
  rw [Matcher.outcome, Matcher.outcome, same.id, same.transform, same.centre, witnesses, neighbours]

end View.SameAround

namespace Matcher

variable {m : Matcher} {g : Grid ι} {v : View} {s : ι}

theorem exists_evaluate (named : ∀ home, g.position s = some home → v.Named home) :
    ∃ x, m.evaluate g s v = .ok x ∧
      ∀ f, x = some f ↔ ∃ home, g.position s = some home ∧ m.Clear g v home ∧ f = m.outcome g s v home := by
  cases placed : g.position s with
  | none =>
    refine ⟨none, ?_, by simp⟩
    rw [evaluate, placed]
    rfl
  | some home =>
    obtain ⟨x, evaluated, fires⟩ := exists_evaluate_placed (m := m) placed (named home placed)
    refine ⟨x, evaluated, fun f => ?_⟩
    simp [fires]

/-- Unless a tile that it looks at cannot be named, a match fires exactly where the sprite has a tile and the guards of all
    clauses at distance 1 or 2 pass. What fires is read off the cells, column by column; the guard of the centre and the
    clauses further out never matter. -/
theorem evaluate_fires_iff (m : Matcher) (g : Grid ι) (s : ι) (v : View)
    (named : ∀ home, g.position s = some home → v.Named home) :
    (∀ c, c ∈ Cell.neighbourhood ↔ c.distance = 1 ∨ c.distance = 2) ∧
      Cell.neighbourhood.Pairwise (fun c d => c.col < d.col ∨ c.col = d.col ∧ c.row < d.row) ∧
        ∃ x, m.evaluate g s v = .ok x ∧
          (∀ f, x = some f ↔ ∃ home, g.position s = some home ∧ m.Clear g v home ∧ f = m.outcome g s v home) ∧
            ∀ u, v.SameAround u → m.evaluate g s u = .ok x := by
  obtain ⟨x, evaluated, fires⟩ := exists_evaluate (m := m) named
  refine ⟨fun _ => Cell.mem_neighbourhood_iff, by decide, x, evaluated, fires, fun u same => ?_⟩
  obtain ⟨y, evaluated', fires'⟩ := exists_evaluate (m := m) fun home placed => same.named (named home placed)
  have agree : y = x := by
    -- What is asked of the cells, and what is read off them, is the same for both views.
    refine Option.ext fun f => ?_
    rw [fires, fires']
    refine exists_congr fun home => and_congr_right fun _ => ?_
    rw [same.outcome]
    exact and_congr_left fun _ => ⟨same.symm.clear, same.clear⟩
  rw [evaluated', agree]

/-- A view that shows what `flight` shows, and in a corner a clause that nothing satisfies. -/
def cornered : View :=
  { flight with
    rule := { flight.rule with
      clauses := flight.rule.clauses ++ [
        { cell := ⟨0, 0⟩
          backgrounds := ⟨1, [3], rfl, by rintro _ b ⟨⟩; decide⟩
          sprites := ⟨1, [3], rfl, by rintro _ b ⟨⟩; decide⟩
          facing := .any
          commands := [.move (.go .up)] }] } }

theorem evaluate_cornered : ∃ f, f.witnesses = [true] ∧ f.commands.map Errand.tile = [⟨5, 5⟩, ⟨6, 5⟩, ⟨6, 5⟩] ∧
    evaluate ⟨⟨5, 5⟩, .second⟩ (pair ⟨5, 5⟩ ⟨6, 5⟩ .right) false flight = .ok (some f) ∧
    evaluate ⟨⟨5, 5⟩, .second⟩ (pair ⟨5, 5⟩ ⟨6, 5⟩ .right) false cornered = .ok (some f) := by
  have named : ∀ home, (pair ⟨5, 5⟩ ⟨6, 5⟩ .right).position false = some home → flight.Named home := by
    rintro _ ⟨⟩
    exact named_of_roomy (by unfold Tile.Roomy; decide)
  have same : flight.SameAround cornered := by
    refine ⟨rfl, rfl, rfl, fun c near => ?_⟩
    have shown : ∀ c ∈ Cell.neighbourhood, cornered.shownAt c = flight.shownAt c := by decide
    exact shown c (Cell.mem_neighbourhood_iff.mpr near)
  obtain ⟨_, _, x, evaluated, _, unchanged⟩ :=
    evaluate_fires_iff ⟨⟨5, 5⟩, .second⟩ (pair ⟨5, 5⟩ ⟨6, 5⟩ .right) false flight named
  obtain ⟨f, fired, witnesses, tiles⟩ : ∃ f,
      evaluate ⟨⟨5, 5⟩, .second⟩ (pair ⟨5, 5⟩ ⟨6, 5⟩ .right) false flight = .ok (some f) ∧
        f.witnesses = [true] ∧ f.commands.map Errand.tile = [⟨5, 5⟩, ⟨6, 5⟩, ⟨6, 5⟩] := ⟨_, rfl, rfl, rfl⟩
  cases evaluated.symm.trans fired
  exact ⟨f, witnesses, tiles, fired, unchanged cornered same⟩

end Matcher
end Playfield
