import Playfield.Proofs.RoundTrip

/-!
# When a rule can be packed

A rule is packed exactly when it keeps the limits of the format and its record is no longer than a
buffer may be. A record keeps the lowest four bits of the argument of a rule and all of the rest
but its idle clauses.
-/
namespace Playfield

theorem Clause.checkKinds_eq_ok_iff {kinds : Kinds} :
    checkKinds kinds = .ok () ↔ kinds.backgrounds + 3 < Word.full.size ∧ kinds.sprites + 3 < Word.full.size := by
  rw [checkKinds, bind_eq_ok]
  constructor
  · rintro ⟨_, backgrounds, rest⟩
    obtain ⟨_, sprites, _⟩ := bind_eq_ok.mp rest
    exact ⟨(Demands.checkedLength_eq_ok_iff.mp backgrounds).1, (Demands.checkedLength_eq_ok_iff.mp sprites).1⟩
  · rintro ⟨backgrounds, sprites⟩
    refine ⟨_, Demands.checkedLength_eq_ok_iff.mpr ⟨backgrounds, rfl⟩, ?_⟩
    rw [Demands.checkedLength_eq_ok_iff.mpr ⟨sprites, rfl⟩]
    rfl

namespace Record

variable {δ : Type} {kinds : Kinds}

/-! ### Sizes -/

theorem clauseLength_eq (counted : Clause.checkKinds kinds = .ok ()) :
    clauseLength kinds =
      .ok (2 + Demands.packedLength kinds.backgrounds + Demands.packedLength kinds.sprites) := by
  obtain ⟨backgrounds, sprites⟩ := Clause.checkKinds_eq_ok_iff.mp counted
  rw [clauseLength, Demands.checkedLength_eq_ok_iff.mpr ⟨backgrounds, rfl⟩, ok_bind,
    Demands.checkedLength_eq_ok_iff.mpr ⟨sprites, rfl⟩]
  rfl

theorem fullLength_eq (counted : Clause.checkKinds kinds = .ok ()) (c : Clause δ) :
    ∃ n, fullLength kinds c = .ok n := by
  rw [fullLength, clauseLength_eq counted]
  exact ⟨_, rfl⟩

variable [Packed δ] {rule : Rule δ} {bytes : List UInt8}

/-- A layout that can be counted has the announced size. -/
theorem size_eq (whole : rule.Sized) (counted : rule.busy ≠ [] → Clause.checkKinds kinds = .ok ())
    (fits : ∀ c ∈ rule.busy, c.fits kinds) (room : (layout rule.stripped).length < Word.full.size) :
    size rule kinds = .ok (layout rule.stripped).length := by
  obtain ⟨lengths, each⟩ : ∃ lengths, rule.busy.mapM (fullLength kinds) = .ok lengths :=
    exists_mapM_eq_ok fun c member => fullLength_eq (counted (List.ne_nil_of_mem member)) c
  have total : lengths.foldr (· + ·) headerLength = (layout rule.stripped).length := by
    rw [sum_fullLength each, length_layout_stripped whole fits]
  rw [size, each, ok_bind, total, unsigned_eq_ok room]

/-! ### Packing -/

theorem checked_of_foldlM {clauses : List (Clause δ)} {t u : Tape} (written : clauses.foldlM (packClause kinds) t = .ok u) :
    ∀ c ∈ clauses, checkClause kinds c = .ok () := by
  induction clauses generalizing t with
  | nil => simp
  | cons c rest ih =>
    rw [List.foldlM_cons] at written
    obtain ⟨_, first, later⟩ := bind_eq_ok.mp written
    obtain ⟨_, checked, _⟩ := bind_eq_ok.mp first
    exact List.forall_mem_cons.mpr ⟨checked, ih later⟩

/-- Every clause of a rule that is packed has passed its check. -/
theorem checked_of_encode (packed : encode rule kinds = .ok bytes) : rule.busy.length ≤ Rule.maxClauses ∧
    (∃ n, size rule kinds = .ok n) ∧ ∀ c ∈ rule.busy, checkClause kinds c = .ok () := by
  rw [encode] at packed
  split at packed
  · cases packed
  · rename_i few
    obtain ⟨n, sized, packed⟩ := bind_eq_ok.mp packed
    obtain ⟨_, _, packed⟩ := bind_eq_ok.mp packed
    -- Four fields are written before the first clause.
    obtain ⟨_, _, packed⟩ := bind_eq_ok.mp packed
    obtain ⟨_, _, packed⟩ := bind_eq_ok.mp packed
    obtain ⟨_, _, packed⟩ := bind_eq_ok.mp packed
    obtain ⟨_, _, packed⟩ := bind_eq_ok.mp packed
    obtain ⟨_, written, _⟩ := bind_eq_ok.mp packed
    exact ⟨Nat.not_lt.mp few, ⟨n, sized⟩, checked_of_foldlM written⟩

/-- A rule whose tables have as many bytes as it takes is packed exactly when it has at most 15 clauses that are not idle,
    each of which lies in the window, is sized for the kind counts and has at most four commands, and its layout is no longer
    than a buffer may be; the record is then the layout. -/
theorem encode_eq_ok_iff (whole : rule.Sized) :
    encode rule kinds = .ok bytes ↔
      (rule.busy.length ≤ Rule.maxClauses ∧ (rule.busy ≠ [] → Clause.checkKinds kinds = .ok ()) ∧
        (∀ c ∈ rule.busy, checkClause kinds c = .ok ()) ∧ (layout rule.stripped).length < Word.full.reach) ∧
      bytes = layout rule.stripped := by
  have limits : Word.full.reach < Word.full.size := by decide
  constructor
  · intro packed
    obtain ⟨few, ⟨n, sized⟩, checked⟩ := checked_of_encode packed
    have fits : ∀ c ∈ rule.busy, c.fits kinds := fun c member => (checkClause_eq_ok_iff.mp (checked c member)).2.1
    have counted : rule.busy ≠ [] → Clause.checkKinds kinds = .ok () := by
      intro some_busy
      obtain ⟨_, plain⟩ := clauseLength_of_size sized some_busy
      exact Clause.checkKinds_eq_ok_iff.mpr (clauseLength_eq_ok plain).1
    rw [encode_eq few sized whole checked, (size_eq_ok sized whole fits).1] at packed
    split at packed
    · rename_i room
      cases packed
      exact ⟨⟨few, counted, checked, room⟩, rfl⟩
    · cases packed
  · rintro ⟨⟨few, counted, checked, room⟩, rfl⟩
    have fits : ∀ c ∈ rule.busy, c.fits kinds := fun c member => (checkClause_eq_ok_iff.mp (checked c member)).2.1
    rw [encode_eq few (size_eq whole counted fits (Nat.lt_trans room limits)) whole checked, if_pos room]

end Record

/-- A rule has at most 15 clauses, which lie in the window and apart, are sized for the kind counts and have at
    most four commands. -/
structure Rule.Limited (kinds : Kinds) (r : Rule) : Prop where
  few : r.clauses.length ≤ maxClauses
  inside : ∀ c ∈ r.clauses, c.cell.inWindow
  distinct : (r.clauses.map (·.cell)).Nodup
  fits : ∀ c ∈ r.clauses, c.fits kinds
  commands : ∀ c ∈ r.clauses, c.commands.length ≤ Clause.maxCommands

/-- A rule that keeps the limits is packed if its layout is no longer than a buffer may be. -/
theorem Rule.Limited.encode_eq {kinds : Kinds} {r : Rule} (limited : r.Limited kinds)
    (counted : r.busy ≠ [] → Clause.checkKinds kinds = .ok ())
    (room : (Record.layout r.stripped).length < Word.full.reach) :
    Record.encode r kinds = .ok (Record.layout r.stripped) := by
  have checked : ∀ c ∈ r.busy, Record.checkClause kinds c = .ok () := by
    intro c member
    have member : c ∈ r.clauses := (List.mem_filter.mp member).1
    exact Record.checkClause_eq_ok_iff.mpr
      ⟨limited.inside c member, limited.fits c member, limited.commands c member⟩
  have few : r.busy.length ≤ maxClauses := Nat.le_trans (List.length_filter_le ..) limited.few
  exact (Record.encode_eq_ok_iff r.sized).mpr ⟨⟨few, counted, checked, room⟩, rfl⟩

theorem Rule.Limited.busy_distinct {kinds : Kinds} {r : Rule} (limited : r.Limited kinds) :
    (r.busy.map (·.cell)).Nodup := limited.distinct.sublist (List.filter_sublist.map _)

/-- The rule as a record keeps it: without its idle clauses, and with the lowest four bits of its argument. -/
def Rule.stored (r : Rule) : Rule := { r.stripped with arg := r.arg % 16 }

theorem Rule.stored_arg_lt (r : Rule) : r.stored.arg.toNat < 16 := by
  show (r.arg % 16).toNat < 16
  rw [UInt8.toNat_mod]
  exact Nat.mod_lt _ (by decide)

theorem Rule.busy_stored (r : Rule) : r.stored.busy = r.busy := r.busy_stripped

theorem Rule.stripped_stored (r : Rule) : r.stored.stripped = r.stored := by
  have busy := r.busy_stored
  rw [stripped, busy]
  rfl

/-- Only an argument of more than four bits is not kept. -/
theorem Rule.stored_of_arg_lt {r : Rule} (small : r.arg.toNat < 16) : r.stored = r.stripped := by
  have same : r.arg % 16 = r.arg := by
    apply UInt8.toNat_inj.mp
    rw [UInt8.toNat_mod]
    exact Nat.mod_eq_of_lt small
  rw [stored, same]
  rfl

namespace Record

/-- The higher bits of the argument are not written. -/
theorem halves_mod (high low : UInt8) : Byte.halves high (low % 16) = Byte.halves high low := by
  apply UInt8.toNat_inj.mp
  rw [Byte.toNat_halves, Byte.toNat_halves, UInt8.toNat_mod]
  exact congrArg _ (Nat.mod_mod _ _)

theorem layout_stored (rule : Rule) : layout rule.stored = layout rule.stripped := by
  have header : headerBytes rule.stored = headerBytes rule.stripped := by
    show [Byte.halves _ (rule.arg % 16), _] = _
    rw [halves_mod]
    rfl
  rw [layout, header]
  rfl

/-- The record of a rule whose clauses lie apart decodes to the rule as it is kept. -/
theorem decode_of_encode {rule : Rule} {kinds : Kinds} {bytes : List UInt8} (packed : encode rule kinds = .ok bytes)
    (distinct : (rule.busy.map (·.cell)).Nodup) : decode bytes kinds = .ok rule.stored := by
  obtain ⟨⟨few, counted, checked, room⟩, rfl⟩ := (encode_eq_ok_iff rule.sized).mp packed
  have limits : Word.full.reach < Word.full.size := by decide
  rw [← layout_stored]
  apply decode_layout
  constructor
  · exact rule.stored_arg_lt
  · exact few
  · exact checked
  · exact distinct
  · intro some_busy
    exact Clause.checkKinds_eq_ok_iff.mp (counted some_busy)
  · rw [layout_stored]
    exact Nat.lt_trans room limits

/-- What a record keeps is packed into the same record. -/
theorem encode_stored {rule : Rule} {bytes : List UInt8} (packed : encode rule kinds = .ok bytes) :
    encode rule.stored kinds = .ok bytes := by
  rw [encode_eq_ok_iff rule.sized] at packed
  rw [encode_eq_ok_iff rule.stored.sized, rule.busy_stored, rule.stripped_stored, layout_stored]
  exact packed

end Record
end Playfield
