import Playfield.Grid
import Playfield.Settings
import Playfield.View

/-!
# Matching

A view is matched around a sprite in two steps. The sprite itself always qualifies: the centre is
what made the rule a candidate, and its commands come first. Then the guards of all neighbours must
pass, in the order of `Cell.neighbourhood`; the first that fails ends the match. A match that
succeeds is a firing: the commands to run, as the view shows them, each with its tile and its
target. Nothing changes until a firing is dispatched.
-/
namespace Playfield

variable {ι : Type}

/-- What a guard asks of a kind at a tile, and what is there. -/
structure Sighting (ι : Type) where
  demand : Demand
  present : Bool
  /-- The sprite of the kind, if the kind is one of sprites. -/
  sprite : Option ι

/-- The outcome of a guard. -/
inductive Verdict (ι : Type)
  | fail
  /-- The guard holds; the first included sprite that is present, if there is one. -/
  | pass (witness : Option ι)
  deriving DecidableEq, Repr

/-- What has been seen of a tile so far. -/
structure Tally (ι : Type) where
  /-- A kind of the set of which one member is enough was asked for. -/
  grouped : Bool
  /-- A member of that set is present. -/
  met : Bool
  witness : Option ι

/-- A command with the tile and the sprite that it acts on. -/
structure Errand (ι : Type) where
  /-- The command as the view shows it. -/
  command : Command
  /-- The tile of the cell that carries the command. -/
  tile : Tile
  /-- The sprite at that cell: the one the rule was matched around, or the witness. -/
  target : Option ι
  /-- The motion of the target when the rule matched. -/
  motion : Option Heading
  deriving DecidableEq, Repr

/-- A view that matched. -/
structure Firing (ι : Type) where
  /-- The stored rule. -/
  rule : Option RuleId
  transform : Option Transform
  sprite : ι
  /-- The witnesses next to the sprite, in the order of the scan. -/
  witnesses : List ι
  commands : List (Errand ι)
  deriving DecidableEq, Repr

/-- A neighbour whose guard passed. -/
structure Neighbour (ι : Type) where
  cell : Cell
  clause : Nat
  tile : Tile
  witness : Option ι

namespace Sighting

/-- Whether what is there breaks the demand on the kind alone. -/
def breaks (s : Sighting ι) (g : Grouping) : Bool :=
  s.demand == .excluded && s.present || s.demand == g.allOf && !s.present

end Sighting

namespace Tally

/-- Nothing has been seen. -/
def start : Tally ι := ⟨false, false, none⟩

/-- What has been seen once a kind is looked at. -/
def add (t : Tally ι) (g : Grouping) (s : Sighting ι) : Tally ι where
  grouped := t.grouped || s.demand == g.anyOf
  met := t.met || s.demand == g.anyOf && s.present
  witness := if s.demand.includes then t.witness.or s.sprite else t.witness

/-- The outcome once every kind has been looked at. -/
def verdict (t : Tally ι) : Verdict ι := if t.grouped && !t.met then .fail else .pass t.witness

end Tally

/-- Looks at kinds one by one, up to the first that breaks a demand. -/
def judge (g : Grouping) : Tally ι → List (Sighting ι) → Verdict ι
  | t, [] => t.verdict
  | t, s :: rest => if s.breaks g then .fail else judge g (t.add g s) rest

/-- A free kind changes nothing. -/
theorem judge_cons_free (g : Grouping) (t : Tally ι) {s : Sighting ι} (free : s.demand = .free)
    (rest : List (Sighting ι)) : judge g t (s :: rest) = judge g t rest := by
  have breaks : s.breaks g = false := by
    cases g <;> rw [Sighting.breaks, free] <;> rfl
  have added : t.add g s = t := by
    have other : (Demand.free == g.anyOf) = false := by cases g <;> rfl
    simp [Tally.add, Demand.includes, free, other]
  rw [judge, breaks, added]
  rfl

/-- Free kinds can be left out. -/
theorem judge_append_free {g : Grouping} {extra : List (Sighting ι)} (free : ∀ s ∈ extra, s.demand = .free)
    (t : Tally ι) (before after : List (Sighting ι)) :
    judge g t (before ++ extra ++ after) = judge g t (before ++ after) := by
  induction before generalizing t with
  | nil =>
    induction extra with
    | nil => rfl
    | cons s extra ih =>
      show judge g t (s :: (extra ++ after)) = _
      rw [judge_cons_free g t (free s List.mem_cons_self)]
      exact ih fun s member => free s (List.mem_cons_of_mem _ member)
  | cons s before ih =>
    show judge g t (s :: (before ++ extra ++ after)) = judge g t (s :: (before ++ after))
    rw [judge, judge]
    split
    · rfl
    · exact ih _

/-- Matches views for given kind counts. -/
structure Matcher where
  kinds : Kinds
  grouping : Grouping
  deriving DecidableEq, Repr

namespace Matcher

/-- A matcher under given settings. -/
def new (kinds : Kinds) (settings : Settings) : Matcher := ⟨kinds, settings.grouping⟩

/-- What a clause asks of a background kind at a tile, and what is there. A kind past the demands of
    the clause is free. -/
def background (g : Grid ι) (v : View) (i : Nat) (tile : Tile) (kind : Nat) : Sighting ι :=
  ⟨(v.background? i kind).getD .free, g.backgroundAt tile == some kind, none⟩

/-- What a clause asks of a sprite kind at a tile, and what is there. -/
def sprite (g : Grid ι) (v : View) (i : Nat) (tile : Tile) (kind : Nat) : Sighting ι :=
  ⟨(v.sprite? i kind).getD .free, (g.spriteAt tile kind).isSome, g.spriteAt tile kind⟩

/-- Checks the guard of a clause at a tile: the backgrounds first, then the sprites. Only kinds on
    which the clause makes demands are looked at. -/
def guardAt (m : Matcher) (g : Grid ι) (v : View) (i : Nat) (tile : Tile) : Verdict ι :=
  judge m.grouping .start
    ((List.range (min (v.backgroundCount i) m.kinds.backgrounds)).map (background g v i tile) ++
      (List.range (min (v.spriteCount i) m.kinds.sprites)).map (sprite g v i tile))

theorem background_free {v : View} {i kind : Nat} (past : v.backgroundCount i ≤ kind) (g : Grid ι) (tile : Tile) :
    (background g v i tile kind).demand = .free := by
  rw [View.backgroundCount] at past
  rw [background, View.background?]
  cases found : v.clause? i with
  | none => rfl
  | some c =>
    have past : c.backgrounds.len ≤ kind := by simpa [found] using past
    simp [Demands.get?, Nat.not_lt.mpr past]

theorem sprite_free {v : View} {i kind : Nat} (past : v.spriteCount i ≤ kind) (g : Grid ι) (tile : Tile) :
    (sprite g v i tile kind).demand = .free := by
  rw [View.spriteCount] at past
  rw [sprite, View.sprite?]
  cases found : v.clause? i with
  | none => rfl
  | some c =>
    have past : c.sprites.len ≤ kind := by simpa [found] using past
    simp [Demands.get?, Nat.not_lt.mpr past]

/-- Kinds up to a limit are the ones up to a smaller limit, and others past that. -/
theorem map_range_min (count limit : Nat) (f : Nat → Sighting ι) :
    ∃ extra : List (Sighting ι), (List.range limit).map f = (List.range (min count limit)).map f ++ extra ∧
      ∀ s ∈ extra, ∃ kind, count ≤ kind ∧ s = f kind := by
  rcases Nat.le_total limit count with small | large
  · exact ⟨[], by simp [Nat.min_eq_right small], by simp⟩
  · obtain ⟨more, rfl⟩ := Nat.exists_eq_add_of_le large
    refine ⟨(List.range more).map fun k => f (count + k), ?_, ?_⟩
    · rw [Nat.min_eq_left large, List.range_add, List.map_append, List.map_map]
      rfl
    · intro s member
      obtain ⟨k, _, rfl⟩ := List.mem_map.mp member
      exact ⟨count + k, Nat.le_add_right _ _, rfl⟩

/-- A guard is checked as if every kind were looked at. -/
theorem guardAt_eq_judge (m : Matcher) (g : Grid ι) (v : View) (i : Nat) (tile : Tile) :
    m.guardAt g v i tile = judge m.grouping .start
      ((List.range m.kinds.backgrounds).map (background g v i tile) ++
        (List.range m.kinds.sprites).map (sprite g v i tile)) := by
  obtain ⟨more, all_backgrounds, past⟩ :=
    map_range_min (v.backgroundCount i) m.kinds.backgrounds (background g v i tile)
  obtain ⟨more', all_sprites, past'⟩ := map_range_min (v.spriteCount i) m.kinds.sprites (sprite g v i tile)
  have free : ∀ s ∈ more, s.demand = .free := by
    intro s member
    obtain ⟨kind, far, rfl⟩ := past s member
    exact background_free far g tile
  have free' : ∀ s ∈ more', s.demand = .free := by
    intro s member
    obtain ⟨kind, far, rfl⟩ := past' s member
    exact sprite_free far g tile
  rw [all_backgrounds, all_sprites, judge_append_free free, ← List.append_assoc]
  have last := judge_append_free (g := m.grouping) free' .start
    ((List.range (min (v.backgroundCount i) m.kinds.backgrounds)).map (background g v i tile) ++
      (List.range (min (v.spriteCount i) m.kinds.sprites)).map (sprite g v i tile)) []
  rw [List.append_nil, List.append_nil] at last
  rw [last, guardAt]

/-- The commands of a clause for a tile and a target. -/
def errands (g : Grid ι) (v : View) (i : Nat) (tile : Tile) (target : Option ι) : List (Errand ι) :=
  (v.commands i).map fun command => ⟨command, tile, target, target.bind g.motion⟩

/-- Checks the guards of the clauses shown at cells around a tile, up to the first that fails;
    `none` if one does. -/
def scan (m : Matcher) (g : Grid ι) (v : View) (home : Tile) : List Cell → Checked (Option (List (Neighbour ι)))
  | [] => return some []
  | cell :: rest => do
    match ← v.clauseAt cell with
    | none => m.scan g v home rest
    | some i =>
      let tile ← home.shifted cell.offset
      match m.guardAt g v i tile with
      | .fail => return none
      | .pass witness => return (← m.scan g v home rest).map (⟨cell, i, tile, witness⟩ :: ·)

/-- The firing of a view around a sprite, from the clause at the centre and the neighbours. -/
def firing (g : Grid ι) (sprite : ι) (v : View) (home : Tile) (centre : Option Nat)
    (around : List (Neighbour ι)) : Firing ι where
  rule := v.id
  transform := v.transform
  sprite := sprite
  witnesses := (around.filter fun n => n.cell.distance ≤ 1).filterMap (·.witness)
  commands :=
    (centre.map fun i => errands g v i home (some sprite)).getD [] ++
      around.flatMap fun n => errands g v n.clause n.tile n.witness

/-- Matches a view around a sprite; `none` if a guard fails or the sprite is gone. -/
def evaluate (m : Matcher) (g : Grid ι) (sprite : ι) (v : View) : Checked (Option (Firing ι)) :=
  match g.position sprite with
  | none => return none
  | some home => do
    let centre ← v.clauseAt .centre
    let around ← m.scan g v home Cell.neighbourhood
    return around.map (firing g sprite v home centre)

end Matcher
end Playfield
