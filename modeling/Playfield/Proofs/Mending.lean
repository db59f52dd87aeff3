import Playfield.Proofs.Acceptance
import Playfield.RuleBook

/-!
# Tables put in order

Every table of demands can be put in order: it is given as many bytes as it takes, and the bits past the last kind are
cleared. A table that has all of its bytes makes the same demands afterwards, and a record of it reads as the table put in
order. A table that is in order is left as it is.
-/
namespace Playfield

namespace Packed

variable {δ : Type} [Packed δ]

/-- The bits past the last kind are clear. -/
def Padded (d : δ) : Prop := Demands.Padded (len d) (bytes d)

/-- The bytes of a table, cut off or continued with zeros to as many as it takes. -/
def fitted (d : δ) : List UInt8 :=
  ((bytes d).take (Demands.packedLength (len d))).rightpad (Demands.packedLength (len d)) 0

theorem length_fitted (d : δ) : (fitted d).length = Demands.packedLength (len d) := by
  rw [fitted, List.length_rightpad, List.length_take]
  omega

/-- The table put in order. -/
def mend (d : δ) : Demands := .cleared (len d) (fitted d) (length_fitted d)

theorem fitted_of_sized {d : δ} (sized : Sized d) : fitted d = bytes d := by
  rw [fitted, List.take_of_length_le (Nat.le_of_eq sized), List.rightpad, sized, Nat.sub_self]
  exact List.append_nil _

theorem mend_of_sized {d : δ} (sized : Sized d) {n : Nat} (same : len d = n) (enough : (bytes d).length = Demands.packedLength n) :
    mend d = .cleared n (bytes d) enough := by
  subst same
  exact Demands.ext_bytes rfl (congrArg (Demands.trim _) (fitted_of_sized sized))

/-- A byte that the table has is kept. -/
theorem getElem?_fitted {d : δ} {i : Nat} (needed : i < Demands.packedLength (len d)) (there : i < (bytes d).length) :
    (fitted d)[i]? = (bytes d)[i]? := by
  rw [fitted, List.rightpad, List.getElem?_append_left (by rw [List.length_take]; omega), List.getElem?_take_of_lt needed]

/-- A table that is in order keeps its bytes. -/
theorem bytes_mend {d : δ} (sized : Sized d) (padded : Padded d) : (mend d).bytes = bytes d := by
  show Demands.trim (len d) (fitted d) = bytes d
  rw [fitted_of_sized sized]
  exact Demands.trim_of_padded padded

@[simp] theorem mend_demands (d : Demands) : mend d = d := Demands.ext_bytes rfl (bytes_mend (sized d) d.padded)

/-- A demand is looked up in a table as it is in the table put in order, unless its byte is not there. -/
theorem get_cases (d : δ) (kind : Nat) : get d kind = .ok ((mend d).get? kind) ∨
    (kind < len d ∧ (bytes d).length ≤ kind / 4) ∧ get d kind = .error (.outOfRange (kind / 4) (bytes d).length) := by
  rw [get]
  by_cases inside : kind < len d
  · rw [if_pos inside]
    by_cases there : kind / 4 < (bytes d).length
    · have needed : kind / 4 < Demands.packedLength (len d) := by
        rw [Demands.packedLength]
        omega
      have same : (mend d).get? kind = (bytes d)[kind / 4]?.map fun b => Demands.slot b (kind % 4) := by
        rw [← Demands.getElem?_toList, mend, Demands.toList_cleared, List.getElem?_take_of_lt inside,
          Demands.getElem?_flatMap_slots, getElem?_fitted needed there]
      rw [same, List.getElem?_eq_getElem there]
      exact .inl rfl
    · rw [List.getElem?_eq_none (Nat.not_lt.mp there)]
      exact .inr ⟨⟨inside, Nat.not_lt.mp there⟩, rfl⟩
  · have past : (mend d).get? kind = none := if_neg inside
    rw [if_neg inside, past]
    exact .inl rfl

end Packed

section

variable {δ : Type} [Packed δ]

namespace Clause

/-- Both tables of demands of a clause have clear bits past the last kind. -/
def Padded (c : Clause δ) : Prop := Packed.Padded c.backgrounds ∧ Packed.Padded c.sprites

theorem padded (c : Clause) : c.Padded := ⟨c.backgrounds.padded, c.sprites.padded⟩

/-- The clause with its tables put in order. -/
def mend (c : Clause δ) : Clause := ⟨c.cell, Packed.mend c.backgrounds, Packed.mend c.sprites, c.facing, c.commands⟩

@[simp] theorem mend_demands (c : Clause) : c.mend = c := by
  simp [mend]

theorem isIdle_mend {c : Clause δ} (sized : c.Sized) (padded : c.Padded) : c.mend.isIdle = c.isIdle := by
  have same {d : δ} (sized : Packed.Sized d) (padded : Packed.Padded d) :
      Packed.isVacuous (Packed.mend d) = Packed.isVacuous d := by
    rw [Packed.isVacuous, Packed.isVacuous, Packed.bytes_demands, Packed.bytes_mend sized padded]
  rw [isIdle, isIdle, isVacuous, isVacuous, mend, same sized.1 padded.1, same sized.2 padded.2]

end Clause

namespace Rule

/-- The tables of demands of all clauses that are not idle have clear bits past the last kind. -/
def Padded (r : Rule δ) : Prop := ∀ c ∈ r.busy, c.Padded

theorem padded (r : Rule) : r.Padded := fun c _ => c.padded

/-- The rule with its tables put in order. -/
def mend (r : Rule δ) : Rule := ⟨r.trigger, r.arg, r.clauses.map Clause.mend, r.symmetry⟩

@[simp] theorem mend_demands (r : Rule) : r.mend = r := by
  have same : (Clause.mend : Clause → Clause) = id := funext Clause.mend_demands
  rw [mend, same, List.map_id]

/-- The rule that is read from the record of a rule: without its idle clauses, with its tables put in order, and with the
    lowest four bits of its argument. -/
def loaded (r : Rule δ) : Rule := { r.stripped.mend with arg := r.arg % 16 }

theorem find?_mend (r : Rule δ) (cell : Cell) : r.mend.find? cell = r.find? cell := by
  rw [find?, find?, mend, List.findIdx?_map]
  rfl

theorem loaded_eq_stored (r : Rule) : r.loaded = r.stored := by
  rw [loaded, mend_demands]
  rfl

end Rule

/-! ### Records -/

namespace Record

variable {kinds : Kinds}

/-- The entry of a clause that passes its check. -/
def Entry.of (c : Clause δ) (sized : c.Sized) (checked : checkClause kinds c = .ok ()) : Entry kinds where
  cell := c.cell
  inside := (checkClause_eq_ok_iff.mp checked).1
  backgrounds := Packed.bytes c.backgrounds
  backgrounds_sized := by
    rw [sized.1, eq_of_beq ((Bool.and_eq_true _ _).mp (checkClause_eq_ok_iff.mp checked).2.1).1]
  sprites := Packed.bytes c.sprites
  sprites_sized := by
    rw [sized.2, eq_of_beq ((Bool.and_eq_true _ _).mp (checkClause_eq_ok_iff.mp checked).2.1).2]
  facing := c.facing
  count := c.commands.length
  few := (checkClause_eq_ok_iff.mp checked).2.2
  commands := c.commands
  announced := rfl

namespace Entry

variable {c : Clause δ} {sized : c.Sized} {checked : checkClause kinds c = .ok ()}

theorem clause_of : (Entry.of c sized checked).clause = c.mend := by
  obtain ⟨backgrounds, sprites⟩ := (Bool.and_eq_true _ _).mp (checkClause_eq_ok_iff.mp checked).2.1
  rw [Clause.mend, Packed.mend_of_sized sized.1 (eq_of_beq backgrounds) (Entry.of c sized checked).backgrounds_sized,
    Packed.mend_of_sized sized.2 (eq_of_beq sprites) (Entry.of c sized checked).sprites_sized]
  rfl

/-- An entry is in order exactly if its clause is. -/
theorem padded_of : (Entry.of c sized checked).Padded ↔ c.Padded := by
  obtain ⟨backgrounds, sprites⟩ := (Bool.and_eq_true _ _).mp (checkClause_eq_ok_iff.mp checked).2.1
  rw [Entry.Padded, Clause.Padded, Packed.Padded, Packed.Padded, eq_of_beq backgrounds, eq_of_beq sprites]
  rfl

/-- What is in order and not idle is no idle entry. -/
theorem busy_of (busy : ¬c.isIdle) (padded : c.Padded) : ¬(Entry.of c sized checked).Idle := by
  rw [← isIdle_clause, clause_of, Clause.isIdle_mend sized padded]
  exact busy

end Entry

/-- The sheet of a rule whose clauses pass their checks. -/
def Sheet.of (rule : Rule δ) (whole : rule.Sized) (few : rule.busy.length ≤ Rule.maxClauses)
    (checked : ∀ c ∈ rule.busy, checkClause kinds c = .ok ()) (distinct : (rule.busy.map (·.cell)).Nodup) : Sheet kinds where
  trigger := rule.trigger
  arg := rule.arg % 16
  arg_lt := by
    rw [UInt8.toNat_mod]
    exact Nat.mod_lt _ (by decide)
  symmetry := rule.symmetry
  entries := rule.busy.attach.map fun c => .of c.1 (whole c.1 c.2) (checked c.1 c.2)
  few := by
    rw [List.length_map, List.length_attach]
    exact few
  distinct := by
    rw [List.map_map]
    exact (List.attach_map_val (f := fun c : Clause δ => c.cell)).symm ▸ distinct

namespace Sheet

variable {rule : Rule δ} {whole : rule.Sized} {few : rule.busy.length ≤ Rule.maxClauses}
  {checked : ∀ c ∈ rule.busy, checkClause kinds c = .ok ()} {distinct : (rule.busy.map (·.cell)).Nodup}

theorem entries_of : (Sheet.of rule whole few checked distinct).entries =
    rule.busy.attach.map fun c => .of c.1 (whole c.1 c.2) (checked c.1 c.2) := rfl

theorem rule_of : (Sheet.of rule whole few checked distinct).rule = rule.loaded := by
  have clauses : (Sheet.of rule whole few checked distinct).entries.map Entry.clause = rule.busy.map Clause.mend := by
    rw [entries_of, List.map_map]
    simp only [Function.comp_def, Entry.clause_of]
    exact List.attach_map_val
  rw [Sheet.rule, clauses]
  rfl

theorem bytes_of : (Sheet.of rule whole few checked distinct).bytes = layout rule.stripped := by
  have flat (f : Entry kinds → List UInt8) (g : Clause δ → List UInt8)
      (same : ∀ c sized checked, f (Entry.of c sized checked) = g c) :
      (Sheet.of rule whole few checked distinct).entries.flatMap f = rule.busy.flatMap g := by
    rw [entries_of, List.flatMap_def, List.flatMap_def, List.map_map]
    simp only [Function.comp_def, same]
    exact congrArg List.flatten List.attach_map_val
  have length : (Sheet.of rule whole few checked distinct).entries.length = rule.busy.length := by
    rw [entries_of, List.length_map, List.length_attach]
  rw [Sheet.bytes, flat _ clauseBytes fun _ _ _ => rfl, flat _ (fun c => c.commands.flatMap commandBytes) fun _ _ _ => rfl,
    length, layout, List.flatMap_assoc]
  show Byte.halves _ (rule.arg % 16) :: _ = _
  rw [halves_mod]
  rfl

end Sheet

/-- The record of a rule whose clauses lie apart, and whose tables have their bytes, is read back with the tables put in order.
    What is read is packed again, to the same bytes exactly if no bits past the last kinds were set. -/
theorem decode_of_encode_sized {rule : Rule δ} {bytes : List UInt8} (whole : rule.Sized)
    (packed : encode rule kinds = .ok bytes) (distinct : (rule.busy.map (·.cell)).Nodup) :
    decode bytes kinds = .ok rule.loaded ∧
      ∃ again, encode rule.loaded kinds = .ok again ∧ (again = bytes ↔ rule.Padded) := by
  obtain ⟨⟨few, counted, checked, room⟩, rfl⟩ := (encode_eq_ok_iff whole).mp packed
  by_cases some_busy : rule.busy = []
  · -- Nothing was checked of the kind counts, so the sheet cannot be appealed to.
    let bare : Rule := ⟨rule.trigger, rule.arg, [], rule.symmetry⟩
    have layout_bare : layout bare.stripped = layout rule.stripped := by
      rw [layout, layout, headerBytes, headerBytes, Rule.stripped, Rule.stripped, some_busy]
      rfl
    have loaded : rule.loaded = bare.stored := by
      rw [Rule.loaded, Rule.stripped, some_busy]
      rfl
    have packed_bare : encode bare kinds = .ok (layout bare.stripped) :=
      (encode_eq_ok_iff bare.sized).mpr ⟨⟨Nat.zero_le _, absurd rfl, List.forall_mem_nil _, layout_bare.symm ▸ room⟩, rfl⟩
    have none_set : rule.Padded := by
      intro c member
      rw [some_busy] at member
      cases member
    rw [loaded, ← layout_bare]
    exact ⟨decode_of_encode packed_bare List.nodup_nil, _, encode_stored packed_bare, by simp [none_set]⟩
  · obtain ⟨_, accepted, _, again⟩ := decode_accepts (counted some_busy) room
    obtain ⟨tidied, same⟩ := again (.of rule whole few checked distinct) Sheet.bytes_of
    rw [Sheet.rule_of] at tidied same
    refine ⟨(accepted _).mpr ⟨.of rule whole few checked distinct, Sheet.bytes_of, Sheet.rule_of⟩, _, tidied, ?_⟩
    rw [tidied, Except.ok.injEq] at same
    rw [same]
    constructor
    · intro clean c member
      exact Entry.padded_of.mp (clean _ (List.mem_map_of_mem (List.mem_attach _ ⟨c, member⟩))).2
    · intro padded e member
      obtain ⟨⟨c, inside⟩, _, rfl⟩ := List.mem_map.mp member
      have busy : ¬c.isIdle := by simpa using (List.mem_filter.mp inside).2
      exact ⟨Entry.busy_of busy (padded c inside), Entry.padded_of.mpr (padded c inside)⟩

end Record
end
end Playfield
