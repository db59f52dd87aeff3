import Playfield.Proofs.Faultless
import Playfield.Proofs.Turning

/-!
# Backgrounds by tile

The backgrounds of a board are kept row by row. Every tile of the board has a place in that row and no two have the same one, so
that the row is a map from tiles to kinds: what a tile is given is found there until it is given another kind, and nothing is
changed anywhere else. Tiles past the edge have no place, and those that are named far out are not mistaken for others.
-/
namespace Playfield.World

variable {w : World} {t u : Tile} {kind : Nat}

/-- No two tiles have the same place. -/
theorem index?_inj {i : Nat} (here : w.index? t = some i) (there : w.index? u = some i) : t = u := by
  rw [← ofPlace_of_index? here, ofPlace_of_index? there]

theorem isSome_index? : (w.index? t).isSome ↔ w.inBounds t := by
  rw [index?]
  split <;> simp [*]

/-- All that a setting can do: it is refused and changes nothing, or it puts a kind at the place of a tile. -/
theorem setBackground_cases (w : World) (t : Tile) (kind : Nat) :
    (¬(w.inBounds t ∧ kind < w.kinds.backgrounds) ∧ w.setBackground t kind = (false, w)) ∨
      (w.inBounds t ∧ kind < w.kinds.backgrounds) ∧ ∃ i, w.index? t = some i ∧
        w.setBackground t kind = (true, { w with backgrounds := w.backgrounds.put i kind }) := by
  rw [← isSome_index?, setBackground]
  cases w.index? t with
  | none => exact .inl ⟨by simp, rfl⟩
  | some i =>
    by_cases known : kind < w.kinds.backgrounds
    · exact .inr ⟨⟨rfl, known⟩, i, rfl, if_pos known⟩
    · exact .inl ⟨fun accepted => known accepted.2, if_neg known⟩

theorem answer_setBackground : (w.setBackground t kind).1 ↔ w.inBounds t ∧ kind < w.kinds.backgrounds := by
  rcases w.setBackground_cases t kind with ⟨refused, same⟩ | ⟨accepted, _, _, put⟩
  · simp [same, refused]
  · simp [put, accepted]

theorem setBackground_of_refused (refused : (w.setBackground t kind).1 = false) : (w.setBackground t kind).2 = w := by
  rcases w.setBackground_cases t kind with ⟨_, same⟩ | ⟨_, _, _, put⟩
  · rw [same]
  · rw [put] at refused
    cases refused

/-- A setting leaves the size of the board and the kinds as they are. -/
theorem index?_setBackground (w : World) (t : Tile) (kind : Nat) :
    (w.setBackground t kind).2.index? = w.index? ∧ (w.setBackground t kind).2.kinds = w.kinds := by
  rcases w.setBackground_cases t kind with ⟨_, same⟩ | ⟨_, _, _, put⟩
  · rw [same]
    exact ⟨rfl, rfl⟩
  · rw [put]
    exact ⟨rfl, rfl⟩

/-- An accepted setting puts a kind at the place of its tile. -/
theorem exists_put (accepted : (w.setBackground t kind).1) : ∃ i, w.index? t = some i ∧
    (w.setBackground t kind).2 = { w with backgrounds := w.backgrounds.put i kind } := by
  rcases w.setBackground_cases t kind with ⟨_, same⟩ | ⟨_, i, placed, put⟩
  · rw [same] at accepted
    cases accepted
  · exact ⟨i, placed, congrArg Prod.snd put⟩

namespace Consistent

/-- The place of a tile is one of the row of kinds. -/
theorem lt_length (c : Consistent w) {i : Nat} (placed : w.index? t = some i) : i < w.backgrounds.length := by
  rw [c.filled]
  exact (index?_eq_some placed).2

/-- What a tile is given is found there, and every other tile keeps its kind. -/
theorem backgroundAt_setBackground (c : Consistent w) (accepted : (w.setBackground t kind).1) (u : Tile) :
    (w.setBackground t kind).2.backgroundAt u = if u = t then some kind else w.backgroundAt u := by
  obtain ⟨i, placed, put⟩ := exists_put accepted
  have kept : (w.setBackground t kind).2.backgroundAt u = (w.index? u).bind (w.backgrounds.put i kind).get? := by
    rw [put]
    rfl
  rw [kept, backgroundAt]
  by_cases here : u = t
  · rw [if_pos here, here, placed, Option.bind_some, Backdrop.get?_put _ c.short (c.lt_length placed), if_pos rfl]
  · rw [if_neg here]
    cases there : w.index? u with
    | none => rfl
    | some j =>
      have apart : i ≠ j := by
        rintro rfl
        exact here (index?_inj there placed)
      rw [Option.bind_some, Option.bind_some, Backdrop.get?_put _ c.short (c.lt_length placed), if_neg apart]

/-- The row of kinds after a setting is the row before it with one kind written over. -/
theorem backgroundList_setBackground (c : Consistent w) {i : Nat} (placed : w.index? t = some i)
    (accepted : (w.setBackground t kind).1) :
    (w.setBackground t kind).2.backgroundList = w.backgroundList.set i kind := by
  obtain ⟨j, also, put⟩ := exists_put accepted
  cases placed.symm.trans also
  rw [put]
  exact Backdrop.toList_put w.backgrounds c.short (c.lt_length placed) kind

theorem isSome_backgroundAt (c : Consistent w) : (w.backgroundAt t).isSome ↔ w.inBounds t := by
  constructor
  · intro shown
    obtain ⟨kind, shown⟩ := Option.isSome_iff_exists.mp shown
    obtain ⟨i, placed, _⟩ := Option.bind_eq_some_iff.mp shown
    exact (index?_eq_some placed).1
  · intro inside
    obtain ⟨kind, shown⟩ := c.exists_backgroundAt inside
    rw [shown]
    rfl

theorem getElem?_backgroundList (c : Consistent w) {i : Nat} (placed : w.index? t = some i) :
    i < w.backgroundList.length ∧ w.backgroundList[i]? = w.backgroundAt t := by
  rw [backgroundList, Backdrop.length_toList, Backdrop.getElem?_toList, backgroundAt, placed]
  exact ⟨c.lt_length placed, rfl⟩

end Consistent

/-! ### Settings one after the other -/

/-- The world after settings of single tiles. -/
def painted (w : World) (strokes : List (Tile × Nat)) : World := strokes.foldl (fun w s => (w.setBackground s.1 s.2).2) w

/-- The kind that the last of some settings to do so gives a tile. -/
def lastStroke (strokes : List (Tile × Nat)) (kinds : Kinds) (t : Tile) : Option Nat :=
  (strokes.reverse.find? fun s => s.1 = t ∧ s.2 < kinds.backgrounds).map (·.2)

theorem lastStroke_cons (s : Tile × Nat) (rest : List (Tile × Nat)) (kinds : Kinds) (t : Tile) :
    lastStroke (s :: rest) kinds t =
      (lastStroke rest kinds t).or (if s.1 = t ∧ s.2 < kinds.backgrounds then some s.2 else none) := by
  rw [lastStroke, lastStroke, List.reverse_cons, List.find?_append]
  by_cases given : s.1 = t ∧ s.2 < kinds.backgrounds
  · cases rest.reverse.find? _ <;> simp [given]
  · cases rest.reverse.find? _ <;> simp [given]

/-- After any settings a tile of the board has the kind that it was given last, or else the one that it had. -/
theorem Consistent.backgroundAt_painted (c : Consistent w) (strokes : List (Tile × Nat)) (inside : w.inBounds t) :
    (w.painted strokes).backgroundAt t = (lastStroke strokes w.kinds t).or (w.backgroundAt t) := by
  induction strokes generalizing w with
  | nil => rfl
  | cons s rest ih =>
    obtain ⟨places, kinds⟩ := w.index?_setBackground s.1 s.2
    have still : (w.setBackground s.1 s.2).2.inBounds t := by rw [← isSome_index?, places, isSome_index?, inside]
    have later := ih (c.setBackground s.1 s.2) still
    rw [show w.painted (s :: rest) = (w.setBackground s.1 s.2).2.painted rest from rfl, later, kinds, lastStroke_cons,
      Option.or_assoc]
    congr 1
    by_cases accepted : (w.setBackground s.1 s.2).1
    · rw [c.backgroundAt_setBackground accepted]
      have known := (answer_setBackground.mp accepted).2
      by_cases here : t = s.1
      · simp [here, known]
      · simp [here, Ne.symm here]
    · rw [setBackground_of_refused (Bool.eq_false_iff.mpr accepted)]
      have never : ¬(s.1 = t ∧ s.2 < w.kinds.backgrounds) := by
        rintro ⟨rfl, known⟩
        exact accepted (answer_setBackground.mpr ⟨inside, known⟩)
      simp [never]

/-! ### The board as a map -/

/-- In a world that is reached, the place of a tile is reckoned without overflow and is one of the row of kinds, in which the
kind of the tile is found and written. A tile has a kind exactly if it is on the board. A setting is accepted exactly on the
board and for a known kind, and then gives this tile the kind and no other tile another; if it is refused nothing changes. So
after any number of settings each tile has the kind that it was given last. -/
theorem backgrounds_by_tile (reached : w.Reachable) :
    (∀ t, w.reckonIndex t = .ok (w.index? t) ∧ ∀ i, w.index? t = some i →
      i < w.backgroundList.length ∧ w.backgroundList[i]? = w.backgroundAt t ∧
      ∀ kind, (w.setBackground t kind).1 = true →
        (w.setBackground t kind).2.backgroundList = w.backgroundList.set i kind) ∧
      (∀ t, (w.backgroundAt t).isSome ↔ w.inBounds t) ∧
      (∀ t kind, (w.setBackground t kind).1 = true ↔ w.inBounds t ∧ kind < w.kinds.backgrounds) ∧
      (∀ t kind, (w.setBackground t kind).1 = true →
        ∀ u, (w.setBackground t kind).2.backgroundAt u = if u = t then some kind else w.backgroundAt u) ∧
      (∀ t kind, (w.setBackground t kind).1 = false → (w.setBackground t kind).2 = w) ∧
      ∀ strokes t, w.inBounds t →
        (w.painted strokes).backgroundAt t = (lastStroke strokes w.kinds t).or (w.backgroundAt t) := by
  have c := reached.consistent
  refine ⟨fun t => ⟨c.reckonIndex t, fun i placed => ?_⟩, fun t => ?_, fun _ _ => answer_setBackground,
    fun t kind accepted u => c.backgroundAt_setBackground accepted u, fun _ _ => setBackground_of_refused,
    fun strokes t inside => c.backgroundAt_painted strokes inside⟩
  · obtain ⟨inside, found⟩ := c.getElem?_backgroundList placed
    exact ⟨inside, found, fun kind accepted => c.backgroundList_setBackground placed accepted⟩
  · exact c.isSome_backgroundAt

/-- The tile past the right edge is not mistaken for the first of the next row. -/
theorem backgrounds_by_tile_edge : ∃ w, new 3 2 0 ⟨2, 1⟩ .standard = .ok w ∧ w.Reachable ∧
    w.reckonIndex ⟨2, 1⟩ = .ok (some 5) ∧ (w.setBackground ⟨3, 0⟩ 1).2 = w ∧
    (w.painted [(⟨2, 1⟩, 1), (⟨3, 0⟩, 1)]).backgroundAt ⟨2, 1⟩ = some 1 ∧
    (w.painted [(⟨2, 1⟩, 1), (⟨3, 0⟩, 1)]).backgroundAt ⟨0, 1⟩ = some 0 := by
  obtain ⟨w, built, place, past, corner, next, shown, kinds⟩ : ∃ w, new 3 2 0 ⟨2, 1⟩ .standard = .ok w ∧
      w.index? ⟨2, 1⟩ = some 5 ∧ (w.setBackground ⟨3, 0⟩ 1).1 = false ∧ w.inBounds ⟨2, 1⟩ ∧ w.inBounds ⟨0, 1⟩ ∧
      w.backgroundAt ⟨0, 1⟩ = some 0 ∧ w.kinds = ⟨2, 1⟩ := ⟨_, rfl, rfl, rfl, rfl, rfl, rfl, rfl⟩
  obtain ⟨places, _, _, _, refused, painted⟩ := backgrounds_by_tile (.new built)
  refine ⟨w, built, .new built, (places _).1.trans (congrArg _ place), refused _ _ past, ?_, ?_⟩
  · rw [painted _ _ corner, kinds]
    rfl
  · rw [painted _ _ next, kinds, shown]
    rfl

end Playfield.World
