import Playfield.Proofs.Packing
import Playfield.Proofs.Silence

/-!
# Sheets

A sheet is a record taken apart: everything that its bytes say, the bits past the last kind of a family
included. Sheets are written down as the format tells, and whatever is no sheet is no record. A tidy
sheet has no idle entry and clear bits past the last kinds; tidying a sheet keeps its rule up to the idle
clauses, and packing the rule of a sheet gives the bytes of the tidy one.
-/
namespace Playfield.Record

/-- What stands in a record for a clause before the commands, with the demands packed. -/
structure Front (kinds : Kinds) where
  cell : Cell
  inside : cell.inWindow
  backgrounds : List UInt8
  backgrounds_sized : backgrounds.length = Demands.packedLength kinds.backgrounds
  sprites : List UInt8
  sprites_sized : sprites.length = Demands.packedLength kinds.sprites
  facing : Facing
  /-- The announced number of commands. -/
  count : Nat
  few : count ≤ Clause.maxCommands

/-- What stands in a record for a clause. -/
structure Entry (kinds : Kinds) extends Front kinds where
  commands : List Command
  announced : commands.length = count

/-- A record taken apart. -/
structure Sheet (kinds : Kinds) where
  trigger : Trigger
  arg : UInt8
  arg_lt : arg.toNat < 16
  symmetry : Symmetry
  entries : List (Entry kinds)
  few : entries.length ≤ Rule.maxClauses
  distinct : (entries.map (·.cell)).Nodup

variable {kinds : Kinds}

namespace Front

/-- The column and row, the demands, then the facing and the number of commands. -/
def bytes (f : Front kinds) : List UInt8 :=
  Byte.halves f.cell.col f.cell.row ::
    (f.backgrounds ++ (f.sprites ++ [Byte.halves (code f.facing) (.ofNat f.count)]))

def clause (f : Front kinds) : Clause where
  cell := f.cell
  backgrounds := .cleared kinds.backgrounds f.backgrounds f.backgrounds_sized
  sprites := .cleared kinds.sprites f.sprites f.sprites_sized
  facing := f.facing
  commands := []

end Front

namespace Entry

/-- The clause that an entry stands for. -/
def clause (e : Entry kinds) : Clause := { e.toFront.clause with commands := e.commands }

/-- The bytes of the commands, an instruction and an argument each. -/
def commandBytes (e : Entry kinds) : List UInt8 := e.commands.flatMap fun k => [code k.inst, k.arg]

/-- There are no commands, and none of the kinds is asked for anything. -/
def Idle (e : Entry kinds) : Prop :=
  e.commands = [] ∧ Demands.Silent kinds.backgrounds e.backgrounds ∧ Demands.Silent kinds.sprites e.sprites

instance (e : Entry kinds) : Decidable e.Idle := inferInstanceAs (Decidable (_ ∧ _ ∧ _))

/-- The bits past the last kinds are clear. -/
def Padded (e : Entry kinds) : Prop :=
  Demands.Padded kinds.backgrounds e.backgrounds ∧ Demands.Padded kinds.sprites e.sprites

/-- The entry with the bits past the last kinds cleared. -/
def tidy (e : Entry kinds) : Entry kinds :=
  { e with
    backgrounds := Demands.trim kinds.backgrounds e.backgrounds
    backgrounds_sized := (Demands.length_trim ..).trans e.backgrounds_sized
    sprites := Demands.trim kinds.sprites e.sprites
    sprites_sized := (Demands.length_trim ..).trans e.sprites_sized }

theorem isIdle_clause {e : Entry kinds} : e.clause.isIdle ↔ e.Idle := by
  rw [Clause.isIdle, Clause.isVacuous, Bool.and_eq_true, Bool.and_eq_true, List.isEmpty_iff]
  show (e.clause.backgrounds.isVacuous ∧ e.clause.sprites.isVacuous) ∧ e.commands = [] ↔ _
  rw [show e.clause.backgrounds.isVacuous ↔ _ from Demands.isVacuous_cleared e.backgrounds_sized,
    show e.clause.sprites.isVacuous ↔ _ from Demands.isVacuous_cleared e.sprites_sized, and_comm]
  rfl

theorem length_bytes_tidy (e : Entry kinds) : e.tidy.bytes.length = e.bytes.length := by
  simp [Front.bytes, tidy, Demands.length_trim]

theorem tidy_of_padded {e : Entry kinds} (padded : e.Padded) : e.tidy = e := by
  obtain ⟨⟨cell, inside, backgrounds, _, sprites, _, facing, count, few⟩, commands, announced⟩ := e
  simp only [tidy, Demands.trim_of_padded padded.1, Demands.trim_of_padded padded.2]

/-- Only bits past the last kinds are lost. -/
theorem padded_of_bytes_tidy {e : Entry kinds} (same : e.tidy.bytes = e.bytes) : e.Padded := by
  have parts := (List.cons_inj_right _).mp same
  obtain ⟨backgrounds, rest⟩ := List.append_inj parts (Demands.length_trim ..)
  obtain ⟨sprites, _⟩ := List.append_inj rest (Demands.length_trim ..)
  constructor
  · have padded := Demands.padded_trim kinds.backgrounds e.backgrounds
    rwa [show Demands.trim _ _ = _ from backgrounds] at padded
  · have padded := Demands.padded_trim kinds.sprites e.sprites
    rwa [show Demands.trim _ _ = _ from sprites] at padded

theorem clauseBytes_clause (e : Entry kinds) : clauseBytes e.clause = e.tidy.bytes := by
  rw [clauseBytes, show e.clause.commands.length = e.count from e.announced]
  rfl

end Entry

namespace Sheet

/-- The trigger and the argument, the symmetry and the number of entries, what comes before the
    commands of each entry, then the commands of each entry. -/
def bytes (s : Sheet kinds) : List UInt8 :=
  Byte.halves (code s.trigger) s.arg :: Byte.halves (code s.symmetry) (.ofNat s.entries.length) ::
    (s.entries.flatMap (·.bytes) ++ s.entries.flatMap Entry.commandBytes)

/-- The rule that a sheet stands for. -/
def rule (s : Sheet kinds) : Rule where
  trigger := s.trigger
  arg := s.arg
  clauses := s.entries.map Entry.clause
  symmetry := s.symmetry

/-- The sheet without its idle entries, with the bits past the last kinds cleared. -/
def tidy (s : Sheet kinds) : Sheet kinds :=
  { s with
    entries := (s.entries.filter fun e => ¬e.Idle).map Entry.tidy
    few := by
      rw [List.length_map]
      exact Nat.le_trans (List.length_filter_le ..) s.few
    distinct := by
      rw [List.map_map]
      exact s.distinct.sublist (List.filter_sublist.map _) }

variable (s : Sheet kinds)

theorem limited_rule : s.rule.Limited kinds where
  few := by
    rw [rule, List.length_map]
    exact s.few
  inside := List.forall_mem_map.mpr fun e _ => e.inside
  distinct := by
    rw [rule, List.map_map]
    exact s.distinct
  fits := List.forall_mem_map.mpr fun e _ => by simp [Clause.fits, Entry.clause, Front.clause, Demands.cleared]
  commands := List.forall_mem_map.mpr fun e _ => Nat.le_trans (Nat.le_of_eq e.announced) e.few

theorem busy_rule : s.rule.busy = (s.entries.filter fun e => ¬e.Idle).map Entry.clause := by
  show (s.entries.map Entry.clause).filter (fun c => !c.isIdle) = _
  rw [List.filter_map]
  congr 2
  funext e
  rw [Function.comp_apply, Bool.eq_iff_iff, Bool.not_eq_true', decide_eq_true_eq, ← Entry.isIdle_clause,
    Bool.not_eq_true]

theorem layout_rule : layout s.rule.stripped = s.tidy.bytes := by
  have clauses : s.rule.stripped.clauses = (s.entries.filter fun e => ¬e.Idle).map Entry.clause := s.busy_rule
  have fronts (l : List (Entry kinds)) :
      (l.map Entry.clause).flatMap clauseBytes = (l.map Entry.tidy).flatMap (·.bytes) := by
    rw [List.flatMap_map, List.flatMap_map]
    exact congrArg l.flatMap (funext Entry.clauseBytes_clause)
  have commands (l : List (Entry kinds)) : ((l.map Entry.clause).flatMap Clause.commands).flatMap commandBytes =
      (l.map Entry.tidy).flatMap Entry.commandBytes := by
    rw [List.flatMap_map, List.flatMap_map, List.flatMap_assoc]
    rfl
  rw [layout, headerBytes, clauses, fronts, commands, List.length_map]
  show _ = _ :: _ :: _
  rw [show s.tidy.entries.length = _ from List.length_map ..]
  rfl

theorem length_flatMap_tidy {f : Entry kinds → List UInt8} (same : ∀ e, (f e.tidy).length = (f e).length)
    (l : List (Entry kinds)) :
    (((l.filter fun e => ¬e.Idle).map Entry.tidy).flatMap f).length ≤ (l.flatMap f).length := by
  induction l with
  | nil => exact Nat.le_refl _
  | cons e rest ih =>
    by_cases idle : e.Idle
    · simp only [idle, List.filter_cons_of_neg, not_true, decide_false, Bool.false_eq_true, not_false_iff,
        List.flatMap_cons, List.length_append]
      omega
    · simp only [idle, List.filter_cons_of_pos, not_false_iff, decide_true, List.map_cons, List.flatMap_cons,
        List.length_append, same]
      omega

theorem length_bytes_tidy : s.tidy.bytes.length ≤ s.bytes.length := by
  have fronts := length_flatMap_tidy (f := fun e => e.bytes) Entry.length_bytes_tidy s.entries
  have commands := length_flatMap_tidy (f := Entry.commandBytes) (fun _ => rfl) s.entries
  simp only [bytes, List.length_cons, List.length_append]
  exact Nat.succ_le_succ (Nat.succ_le_succ (Nat.add_le_add fronts commands))

theorem length_flatMap_congr {α β : Type} {f g : α → List β} (lengths : ∀ a, (f a).length = (g a).length) (l : List α) :
    (l.flatMap f).length = (l.flatMap g).length := by
  rw [List.length_flatMap, List.length_flatMap]
  simp only [lengths]

theorem eq_of_flatMap_eq {α β : Type} {f g : α → List β} (lengths : ∀ a, (f a).length = (g a).length) {l : List α}
    (same : l.flatMap f = l.flatMap g) : ∀ a ∈ l, f a = g a := by
  induction l with
  | nil => simp
  | cons a rest ih =>
    obtain ⟨first, others⟩ := List.append_inj same (lengths a)
    exact List.forall_mem_cons.mpr ⟨first, ih others⟩

/-- Tidying changes the bytes of a sheet unless it changes nothing. -/
theorem bytes_tidy_eq_iff : s.tidy.bytes = s.bytes ↔ ∀ e ∈ s.entries, ¬e.Idle ∧ e.Padded := by
  have limit : s.entries.length ≤ 15 := s.few
  have fewer : s.tidy.entries.length ≤ s.entries.length := by
    rw [show s.tidy.entries.length = _ from List.length_map ..]
    exact List.length_filter_le ..
  have filtered : s.tidy.entries = (s.entries.filter fun e => ¬e.Idle).map Entry.tidy := rfl
  constructor
  · intro same
    obtain ⟨_, rest⟩ := List.cons.inj same
    obtain ⟨second, rest⟩ := List.cons.inj rest
    -- The number of entries stands in the second byte.
    have count : s.tidy.entries.length = s.entries.length := by
      have low := congrArg (fun b => b.toNat % 16) second
      simp only [Byte.toNat_halves, UInt8.toNat_ofNat'] at low
      omega
    have kept : (s.entries.filter fun e => ¬e.Idle) = s.entries := by
      rw [filtered, List.length_map] at count
      exact List.filter_sublist.eq_of_length count
    rw [filtered, kept] at rest
    rw [List.flatMap_map] at rest
    have fronts := (List.append_inj rest (length_flatMap_congr Entry.length_bytes_tidy _)).1
    intro e member
    have busy : ¬e.Idle := by simpa using List.filter_eq_self.mp kept e member
    exact ⟨busy, Entry.padded_of_bytes_tidy (eq_of_flatMap_eq Entry.length_bytes_tidy fronts e member)⟩
  · intro clean
    have kept : (s.entries.filter fun e => ¬e.Idle) = s.entries :=
      List.filter_eq_self.mpr fun e member => decide_eq_true (clean e member).1
    have tidied : s.tidy.entries = s.entries := by
      rw [filtered, kept]
      exact (List.map_congr_left fun e member => Entry.tidy_of_padded (clean e member).2).trans (List.map_id _)
    rw [bytes, tidied]
    rfl

end Sheet
end Playfield.Record
