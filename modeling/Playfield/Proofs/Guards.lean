import Playfield.Match

/-!
# What a guard asks for

A guard looks at kinds one by one, keeps count of what it has seen and stops at the first kind that breaks a demand. What it
asks for knows no order: no excluded kind is at the tile, every kind that is needed is, and of the kinds of which one is
enough, backgrounds and sprites together, one is. Only the witness hangs on the order of the kinds, and on nothing else.
-/
namespace Playfield

variable {ι : Type}

/-- A kind at which a guard looks. -/
inductive Subject
  | background (kind : Nat)
  | sprite (kind : Nat)

namespace Subject

/-- The project has the kind. -/
def Known (kinds : Kinds) : Subject → Prop
  | background kind => kind < kinds.backgrounds
  | sprite kind => kind < kinds.sprites

/-- What a clause asks of the kind. A kind past the end of the demands is free. -/
def demand (v : View) (i : Nat) : Subject → Demand
  | background kind => (v.background? i kind).getD .free
  | sprite kind => (v.sprite? i kind).getD .free

/-- The kind is found at a tile. -/
def At (g : Grid ι) (tile : Tile) : Subject → Prop
  | background kind => g.backgroundAt tile = some kind
  | sprite kind => ∃ x, g.spriteAt tile kind = some x

/-- What a clause asks of the kind, and what is there. -/
def sighting (g : Grid ι) (v : View) (i : Nat) (tile : Tile) : Subject → Sighting ι
  | background kind => Matcher.background g v i tile kind
  | sprite kind => Matcher.sprite g v i tile kind

end Subject

namespace Matcher

/-- What is at a tile is as a clause asks. -/
structure Admits (m : Matcher) (g : Grid ι) (v : View) (i : Nat) (tile : Tile) : Prop where
  excluded : ∀ k : Subject, k.Known m.kinds → k.demand v i = .excluded → ¬k.At g tile
  needed : ∀ k : Subject, k.Known m.kinds → k.demand v i = m.grouping.allOf → k.At g tile
  /-- If one is enough of some kinds, one is there. -/
  enough : (∃ k : Subject, k.Known m.kinds ∧ k.demand v i = m.grouping.anyOf) →
    ∃ k : Subject, k.Known m.kinds ∧ k.demand v i = m.grouping.anyOf ∧ k.At g tile

/-- The sprite at a tile that a clause captures is that of the lowest kind that it includes in either set and that is
    there. If there is no such kind, none is captured. -/
def Captures (m : Matcher) (g : Grid ι) (v : View) (i : Nat) (tile : Tile) : Option ι → Prop
  | some x => ∃ kind < m.kinds.sprites, ((Subject.sprite kind).demand v i).includes ∧ g.spriteAt tile kind = some x ∧
      ∀ lower < kind, ((Subject.sprite lower).demand v i).includes → g.spriteAt tile lower = none
  | none => ∀ kind < m.kinds.sprites, ((Subject.sprite kind).demand v i).includes → g.spriteAt tile kind = none

end Matcher

/-! ### What has been counted -/

namespace Sighting

theorem breaks_eq_false_iff {s : Sighting ι} {g : Grouping} :
    s.breaks g = false ↔ (s.demand = .excluded → ¬s.present = true) ∧ (s.demand = g.allOf → s.present = true) := by
  rw [breaks]
  cases s.present <;> simp

/-- The sprite that is seen, if its kind is included. -/
def included? (s : Sighting ι) : Option ι := if s.demand.includes then s.sprite else none

end Sighting

namespace Tally

variable (g : Grouping) (t : Tally ι)

/-- What has been seen once all of a list is looked at. -/
def addAll (l : List (Sighting ι)) : Tally ι := l.foldl (fun t s => t.add g s) t

theorem grouped_addAll (l : List (Sighting ι)) :
    (t.addAll g l).grouped = (t.grouped || l.any fun s => s.demand == g.anyOf) := by
  induction l generalizing t with
  | nil => simp [addAll]
  | cons s rest ih => rw [addAll, List.foldl_cons, ← addAll, ih, List.any_cons, ← Bool.or_assoc, add]

theorem met_addAll (l : List (Sighting ι)) :
    (t.addAll g l).met = (t.met || l.any fun s => s.demand == g.anyOf && s.present) := by
  induction l generalizing t with
  | nil => simp [addAll]
  | cons s rest ih => rw [addAll, List.foldl_cons, ← addAll, ih, List.any_cons, ← Bool.or_assoc, add]

/-- The witness is the first of the included sprites. -/
theorem witness_addAll (l : List (Sighting ι)) :
    (t.addAll g l).witness = t.witness.or (l.findSome? Sighting.included?) := by
  induction l generalizing t with
  | nil => simp [addAll]
  | cons s rest ih =>
    rw [addAll, List.foldl_cons, ← addAll, ih, List.findSome?_cons, add, Sighting.included?]
    split
    · cases t.witness <;> cases s.sprite <;> rfl
    · rfl

theorem verdict_eq_pass_iff {t : Tally ι} {witness : Option ι} :
    t.verdict = .pass witness ↔ (t.grouped = true → t.met = true) ∧ t.witness = witness := by
  rw [verdict]
  cases t.grouped <;> cases t.met <;> simp

end Tally

/-- To stop at the first kind that breaks a demand is to look whether any does. -/
theorem judge_eq_verdict (g : Grouping) (t : Tally ι) (l : List (Sighting ι)) :
    judge g t l = if l.any (·.breaks g) then .fail else (t.addAll g l).verdict := by
  induction l generalizing t with
  | nil => rfl
  | cons s rest ih =>
    rw [judge, List.any_cons]
    cases s.breaks g with
    | true => rfl
    | false => exact ih (t.add g s)

theorem judge_eq_pass_iff {g : Grouping} {l : List (Sighting ι)} {witness : Option ι} :
    judge g .start l = .pass witness ↔ (∀ s ∈ l, s.breaks g = false) ∧
      ((∃ s ∈ l, s.demand = g.anyOf) → ∃ s ∈ l, s.demand = g.anyOf ∧ s.present = true) ∧
      l.findSome? Sighting.included? = witness := by
  have passed : (Tally.addAll g .start l).verdict = .pass witness ↔
      ((∃ s ∈ l, s.demand = g.anyOf) → ∃ s ∈ l, s.demand = g.anyOf ∧ s.present = true) ∧
        l.findSome? Sighting.included? = witness := by
    rw [Tally.verdict_eq_pass_iff, Tally.grouped_addAll, Tally.met_addAll, Tally.witness_addAll]
    simp only [Tally.start, Bool.false_or, List.any_eq_true, Bool.and_eq_true, beq_iff_eq, Option.none_or]
  rw [judge_eq_verdict, ← passed]
  by_cases broken : ∃ s ∈ l, s.breaks g = true
  · have fails : ¬∀ s ∈ l, s.breaks g = false := by
      intro whole
      obtain ⟨s, member, breaks⟩ := broken
      rw [whole s member] at breaks
      cases breaks
    rw [if_pos (List.any_eq_true.mpr broken)]
    simp [fails]
  · have whole : ∀ s ∈ l, s.breaks g = false := by simpa using broken
    rw [if_neg (by simpa using whole), and_iff_right whole]

/-! ### The order of the kinds -/

namespace Matcher

variable {m : Matcher} {g : Grid ι} {v : View} {i : Nat} {tile : Tile}

theorem demand_sighting (k : Subject) : (k.sighting g v i tile).demand = k.demand v i := by cases k <;> rfl

theorem present_sighting (k : Subject) : (k.sighting g v i tile).present = true ↔ k.At g tile := by
  cases k with
  | background kind => exact beq_iff_eq
  | sprite kind => exact Option.isSome_iff_exists

/-- All that a guard looks at, the backgrounds first. -/
def sightings (m : Matcher) (g : Grid ι) (v : View) (i : Nat) (tile : Tile) : List (Sighting ι) :=
  (List.range m.kinds.backgrounds).map (background g v i tile) ++ (List.range m.kinds.sprites).map (sprite g v i tile)

theorem mem_sightings {s : Sighting ι} :
    s ∈ m.sightings g v i tile ↔ ∃ k : Subject, k.Known m.kinds ∧ k.sighting g v i tile = s := by
  simp only [sightings, List.mem_append, List.mem_map, List.mem_range]
  constructor
  · rintro (⟨kind, known, rfl⟩ | ⟨kind, known, rfl⟩)
    · exact ⟨.background kind, known, rfl⟩
    · exact ⟨.sprite kind, known, rfl⟩
  · rintro ⟨_ | _, known, rfl⟩
    · exact .inl ⟨_, known, rfl⟩
    · exact .inr ⟨_, known, rfl⟩

theorem exists_sighting {p : Sighting ι → Prop} :
    (∃ s ∈ m.sightings g v i tile, p s) ↔ ∃ k : Subject, k.Known m.kinds ∧ p (k.sighting g v i tile) := by
  simp only [mem_sightings]
  constructor
  · rintro ⟨_, ⟨k, known, rfl⟩, holds⟩
    exact ⟨k, known, holds⟩
  · rintro ⟨k, known, holds⟩
    exact ⟨_, ⟨k, known, rfl⟩, holds⟩

theorem forall_sighting {p : Sighting ι → Prop} :
    (∀ s ∈ m.sightings g v i tile, p s) ↔ ∀ k : Subject, k.Known m.kinds → p (k.sighting g v i tile) := by
  simp only [mem_sightings]
  constructor
  · intro holds k known
    exact holds _ ⟨k, known, rfl⟩
  · rintro holds _ ⟨k, known, rfl⟩
    exact holds k known

theorem admits_iff : m.Admits g v i tile ↔ (∀ s ∈ m.sightings g v i tile, s.breaks m.grouping = false) ∧
    ((∃ s ∈ m.sightings g v i tile, s.demand = m.grouping.anyOf) →
      ∃ s ∈ m.sightings g v i tile, s.demand = m.grouping.anyOf ∧ s.present = true) := by
  simp only [exists_sighting, forall_sighting, Sighting.breaks_eq_false_iff, demand_sighting, present_sighting]
  constructor
  · intro admits
    exact ⟨fun k known => ⟨admits.excluded k known, admits.needed k known⟩, admits.enough⟩
  · rintro ⟨whole, enough⟩
    exact ⟨fun k known => (whole k known).1, fun k known => (whole k known).2, enough⟩

/-- The first value on a range is that of the least number that has one. -/
theorem findSome?_range_eq_some_iff {α : Type} {f : Nat → Option α} {n : Nat} {a : α} :
    (List.range n).findSome? f = some a ↔ ∃ k < n, f k = some a ∧ ∀ j < k, f j = none := by
  induction n with
  | zero => simp
  | succ n ih =>
    have last : [n].findSome? f = f n := by simp
    rw [List.range_succ, List.findSome?_append, Option.or_eq_some_iff, ih, List.findSome?_eq_none_iff, last]
    simp only [List.mem_range]
    constructor
    · rintro (⟨k, less, found, first⟩ | ⟨first, found⟩)
      · exact ⟨k, Nat.lt_succ_of_lt less, found, first⟩
      · exact ⟨n, Nat.lt_succ_self n, found, first⟩
    · rintro ⟨k, less, found, first⟩
      rcases Nat.lt_succ_iff_lt_or_eq.mp less with before | rfl
      · exact .inl ⟨k, before, found, first⟩
      · exact .inr ⟨first, found⟩

/-- Backgrounds are no witnesses. -/
theorem findSome?_sightings : (m.sightings g v i tile).findSome? Sighting.included? =
    (List.range m.kinds.sprites).findSome? fun kind => (sprite g v i tile kind).included? := by
  have unseen : ((List.range m.kinds.backgrounds).map (background g v i tile)).findSome? Sighting.included? = none := by
    refine List.findSome?_eq_none_iff.mpr fun s member => ?_
    obtain ⟨kind, _, rfl⟩ := List.mem_map.mp member
    exact ite_self none
  rw [sightings, List.findSome?_append, unseen, Option.none_or, List.findSome?_map]
  rfl

theorem included?_sprite_eq_some_iff {kind : Nat} {x : ι} : (sprite g v i tile kind).included? = some x ↔
    ((Subject.sprite kind).demand v i).includes = true ∧ g.spriteAt tile kind = some x := by
  show (if _ then _ else _) = _ ↔ _
  rw [Option.ite_none_right_eq_some]
  rfl

theorem included?_sprite_eq_none_iff {kind : Nat} : (sprite g v i tile kind).included? = none ↔
    (((Subject.sprite kind).demand v i).includes = true → g.spriteAt tile kind = none) := by
  show (if _ then _ else _) = _ ↔ _
  rw [ite_eq_right_iff]
  rfl

theorem findSome?_sightings_eq_iff {witness : Option ι} :
    (m.sightings g v i tile).findSome? Sighting.included? = witness ↔ m.Captures g v i tile witness := by
  rw [findSome?_sightings]
  cases witness with
  | none => simp only [List.findSome?_eq_none_iff, List.mem_range, included?_sprite_eq_none_iff, Captures]
  | some x =>
    simp only [findSome?_range_eq_some_iff, included?_sprite_eq_some_iff, included?_sprite_eq_none_iff, Captures, and_assoc]

theorem guardAt_eq_pass_iff {witness : Option ι} :
    m.guardAt g v i tile = .pass witness ↔ m.Admits g v i tile ∧ m.Captures g v i tile witness := by
  rw [guardAt_eq_judge, ← sightings, judge_eq_pass_iff, ← and_assoc, ← admits_iff, findSome?_sightings_eq_iff]

theorem exists_captures (m : Matcher) (g : Grid ι) (v : View) (i : Nat) (tile : Tile) :
    ∃ witness, m.Captures g v i tile witness := ⟨_, findSome?_sightings_eq_iff.mp rfl⟩

/-- On every grid and whatever the clause, a guard passes exactly where what is at the tile is as the clause asks, in
    whatever order it is looked at; then it captures the sprite of the lowest kind that is included and there. -/
theorem guardAt_passes_iff (m : Matcher) (g : Grid ι) (v : View) (i : Nat) (tile : Tile) (witness : Option ι) :
    ((∃ x, m.guardAt g v i tile = .pass x) ↔ m.Admits g v i tile) ∧
      (m.guardAt g v i tile = .pass witness ↔ m.Admits g v i tile ∧ m.Captures g v i tile witness) := by
  refine ⟨?_, guardAt_eq_pass_iff⟩
  simp only [guardAt_eq_pass_iff, exists_and_left]
  exact and_iff_left (m.exists_captures g v i tile)

end Matcher
end Playfield
