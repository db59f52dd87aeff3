import Mathlib.Algebra.Order.BigOperators.Group.List
import Mathlib.Algebra.Order.Ring.Nat
import Playfield.Proofs.Authoring

/-!
# Rules as they are edited

A rule that starts out blank, for a sprite kind or from a record can be edited through any views whatsoever: it keeps the
limits of the format. So it can be packed, if only memory holds it, and its record is read back.
-/
namespace Playfield

/-- The bytes that a clause takes up in memory at least. -/
def Clause.footprint {δ : Type} [Packed δ] (c : Clause δ) : Nat :=
  3 + (Packed.bytes c.backgrounds).length + (Packed.bytes c.sprites).length + 2 * c.commands.length

/-- The bytes that a rule takes up in memory at least. -/
def Rule.footprint {δ : Type} [Packed δ] (r : Rule δ) : Nat := 3 + (r.clauses.map Clause.footprint).sum

/-- The rules that any edits through any views for the kind counts lead to. -/
inductive Rule.Edited (kinds : Kinds) : Rule → Prop
  | blank (trigger : Trigger) (arg : UInt8) : Edited kinds (.blank trigger arg)
  | made {p q : Project} {kind : Nat} {trigger : Trigger} {byte : UInt8} {id : RuleId} {r : Rule} :
      p.kinds = kinds → p.makeRule kind trigger byte = .ok (id, q) → q.rule? id = some r → Edited kinds r
  | decoded {bytes : List UInt8} {r : Rule} :
      bytes.length < Word.full.reach → Record.decode bytes kinds = .ok r → Edited kinds r
  | edited {v w : View} {e : Edit} : Edited kinds v.rule → v.kinds = kinds → e.run v = .ok w → Edited kinds w.rule

theorem RuleBook.get?_push_self {b c : RuleBook} {rule : Rule} {id : RuleId} (pushed : b.push rule = some (id, c)) :
    c.get? id = some rule := by
  obtain ⟨rfl, rfl⟩ := push_eq_some pushed
  simp [get?, IdMap.get?_insert]

theorem Project.rule?_makeRule {p q : Project} {kind : Nat} {trigger : Trigger} {byte : UInt8} {id : RuleId}
    (made : p.makeRule kind trigger byte = .ok (id, q)) :
    ∃ rule, p.draft kind trigger byte = .ok rule ∧ q.rule? id = some rule := by
  obtain ⟨rule, drafted, added⟩ := makeRule_eq_ok made
  exact ⟨rule, drafted, RuleBook.get?_push_self (addRule_eq_ok added).2⟩

namespace Rule

variable {kinds : Kinds} {r : Rule}

/-- Edits through whatever views keep the limits. -/
theorem Edited.authored (edited : r.Edited kinds) : r.Authored kinds := by
  induction edited with
  | blank trigger arg => exact authored_blank kinds trigger arg
  | made same made found =>
    obtain ⟨rule, drafted, there⟩ := Project.rule?_makeRule made
    obtain rfl := Option.some.inj (there.symm.trans found)
    exact same ▸ Project.authored_draft drafted
  | decoded room decoded => exact ⟨Record.limited_of_decode room decoded, Record.counted_of_decode decoded⟩
  | edited _ same ran authored =>
    subst same
    exact Edit.authored authored ran

/-! ### Memory -/

section

variable {δ : Type} [Packed δ]

theorem length_layout (r : Rule δ) : (Record.layout r).length = 2 + (r.clauses.map fun c =>
    (Record.clauseBytes c).length + (c.commands.flatMap Record.commandBytes).length).sum := by
  have split (l : List (Clause δ)) : (l.map fun c =>
      (Record.clauseBytes c).length + (c.commands.flatMap Record.commandBytes).length).sum =
        (l.flatMap Record.clauseBytes).length + ((l.flatMap Clause.commands).flatMap Record.commandBytes).length := by
    induction l with
    | nil => rfl
    | cons c rest ih =>
      simp only [List.map_cons, List.sum_cons, ih, List.flatMap_cons, List.flatMap_append, List.length_append]
      omega
  rw [split, Record.layout, List.length_append, List.length_append]
  rfl

theorem length_clause_le (c : Clause δ) :
    (Record.clauseBytes c).length + (c.commands.flatMap Record.commandBytes).length ≤ c.footprint := by
  rw [Record.length_commandBytes, show Record.commandLength = 2 from rfl, Clause.footprint]
  simp only [Record.clauseBytes, List.length_cons, List.length_append, List.length_nil]
  omega

/-- The record of a rule is shorter than the rule in memory. -/
theorem length_layout_lt (r : Rule δ) : (Record.layout r.stripped).length < r.footprint := by
  rw [length_layout, footprint]
  have each := List.sum_le_sum fun c (_ : c ∈ r.busy) => length_clause_le c
  have fewer : (r.busy.map Clause.footprint).sum ≤ (r.clauses.map Clause.footprint).sum :=
    (List.filter_sublist.map Clause.footprint).sum_le_sum fun _ _ => Nat.zero_le _
  exact Nat.lt_of_le_of_lt (Nat.add_le_add_left (Nat.le_trans each fewer) 2) (by omega)

end

/-- A rule within the limits takes up too much memory only if there are more kinds than any machine could hold. -/
theorem Limited.footprint_lt (limited : r.Limited kinds) (few : kinds.backgrounds + kinds.sprites ≤ 2 ^ 61) :
    r.footprint < Word.full.reach := by
  have each : ∀ n ∈ r.clauses.map Clause.footprint, n ≤ 2 ^ 59 + 13 := by
    intro n member
    obtain ⟨c, there, rfl⟩ := List.mem_map.mp member
    have fits := limited.fits c there
    have commands := limited.commands c there
    simp only [Clause.fits, Bool.and_eq_true, beq_iff_eq] at fits
    rw [Clause.footprint, c.sized.1, c.sized.2, fits.1, fits.2]
    simp only [Demands.packedLength, Clause.maxCommands] at *
    omega
  have total := List.sum_le_card_nsmul _ _ each
  have clauses := limited.few
  rw [List.length_map, nsmul_eq_mul, Nat.cast_id] at total
  have bound : r.clauses.length * (2 ^ 59 + 13) ≤ 15 * (2 ^ 59 + 13) := Nat.mul_le_mul_right _ clauses
  rw [footprint, show Word.full.reach = 9223372036854775808 from rfl]
  omega

/-- Whatever is edited through whatever views, the clauses lie apart and in the window, there are at most fifteen of
    them, and they are sized for the kind counts and have at most four commands. So a rule that memory holds is packed,
    and its record is read back. -/
theorem packs_of_edited (edited : r.Edited kinds) :
    ((r.clauses.map (·.cell)).Nodup ∧ (∀ c ∈ r.clauses, c.cell.inWindow) ∧ r.clauses.length ≤ 15 ∧
      ∀ c ∈ r.clauses, c.commands.length ≤ 4 ∧ c.backgrounds.len = kinds.backgrounds ∧
        c.sprites.len = kinds.sprites) ∧
    (r.footprint < Word.full.reach →
      ∃ bytes, Record.encode r kinds = .ok bytes ∧ Record.decode bytes kinds = .ok r.stored) ∧
    (kinds.backgrounds + kinds.sprites ≤ 2 ^ 61 → r.footprint < Word.full.reach) := by
  have authored := edited.authored
  refine ⟨⟨authored.distinct, authored.inside, authored.few, fun c member => ⟨authored.commands c member, ?_⟩⟩, ?_, ?_⟩
  · simpa [Clause.fits] using authored.fits c member
  · intro held
    have packed := authored.encode_eq (Nat.lt_trans r.length_layout_lt held)
    exact ⟨_, packed, Record.decode_of_encode packed authored.busy_distinct⟩
  · exact authored.footprint_lt

/-- Of four edits only two leave a trace: a turned view makes the clause, which the rule itself then has already, and the
    command past the next one is refused. -/
theorem packs_of_edited_corner : ∃ r, r.Edited ⟨1, 1⟩ ∧ r.clauses.map (fun c => (c.cell, c.commands)) = [(⟨1, 0⟩, [])] ∧
    r.footprint < Word.full.reach ∧
    ∃ bytes, Record.encode r ⟨1, 1⟩ = .ok bytes ∧ Record.decode bytes ⟨1, 1⟩ = .ok r.stored := by
  have made : Edited ⟨1, 1⟩ _ :=
    .edited (v := .through (.blank .change 0) .quarterLeft ⟨1, 1⟩) (e := .clause ⟨0, 3⟩) (.blank ..) rfl rfl
  have again : Edited ⟨1, 1⟩ _ := .edited (v := .base _ ⟨0⟩ ⟨1, 1⟩) (e := .clause ⟨1, 0⟩) made rfl rfl
  have past : Edited ⟨1, 1⟩ _ := .edited (v := .base _ ⟨0⟩ ⟨1, 1⟩) (e := .instruction 0 1 .move) again rfl rfl
  have asked : Edited ⟨1, 1⟩ _ := .edited (v := .through _ .flipRows ⟨1, 1⟩) (e := .sprite 0 0 .included) past rfl rfl
  obtain ⟨_, packs, held⟩ := packs_of_edited asked
  exact ⟨_, asked, rfl, held (by decide), packs (held (by decide))⟩

end Rule
end Playfield
