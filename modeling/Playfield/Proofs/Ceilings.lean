import Playfield.Proofs.Editing

/-!
# Why a rule is not packed

A rule is not packed if it goes beyond a limit of the format. The tape on which the record is written has the size that was
announced, and that reckons with tables of demands of as many bytes as it takes. Nothing checks the number of bytes of a table
that was read from a document: with too many the encoder writes past the end of its tape, with too few it leaves some of it
unwritten. Where every table has its bytes the limits are the only reason.
-/
namespace Playfield

variable {δ : Type} [Packed δ]

/-- A rule goes beyond a limit of the format: it has more than 15 clauses that are not idle, or one of these lies outside the
    window, is not sized for the kind counts or has more than four commands. -/
def Rule.Exceeds (kinds : Kinds) (r : Rule δ) : Prop :=
  maxClauses < r.busy.length ∨
    ∃ c ∈ r.busy, ¬c.cell.inWindow ∨ ¬c.fits kinds ∨ Clause.maxCommands < c.commands.length

instance (kinds : Kinds) (r : Rule δ) : Decidable (r.Exceeds kinds) :=
  inferInstanceAs (Decidable (_ ∨ ∃ c ∈ r.busy, _))

/-- A fault tells of a limit that a rule goes beyond. -/
inductive Rule.Blames (kinds : Kinds) (r : Rule δ) : Fault → Prop
  | clauses : maxClauses < r.busy.length → Blames kinds r (.tooManyClauses r.busy.length maxClauses)
  | cell {c : Clause δ} : c ∈ r.busy → ¬c.cell.inWindow → Blames kinds r (.clauseOutside c.cell.col c.cell.row)
  | counts {c : Clause δ} : c ∈ r.busy → ¬c.fits kinds → Blames kinds r
      (.clauseMisfit c.cell.col c.cell.row (Packed.len c.backgrounds) (Packed.len c.sprites) kinds.backgrounds kinds.sprites)
  | commands {c : Clause δ} : c ∈ r.busy → Clause.maxCommands < c.commands.length →
      Blames kinds r (.tooManyCommands c.cell.col c.cell.row c.commands.length)

/-- A fault tells of a rule whose bytes are more, or fewer, than the `n` that were announced. -/
inductive Rule.Misfills (n : Nat) (r : Rule δ) : Fault → Prop
  | over : n < (Record.layout r.stripped).length → Misfills n r (.writePastEnd n)
  | under : (Record.layout r.stripped).length < n → Misfills n r .unfilledRecord

namespace Record

variable {kinds : Kinds} {rule : Rule δ} {n : Nat} {cause : Fault}

/-! ### Clauses in turn -/

/-- Clauses are written in turn up to the first that does not pass its check or for which there is no more room. -/
theorem exists_of_foldlM_packClause {clauses : List (Clause δ)} {done : List UInt8}
    (failed : clauses.foldlM (packClause kinds) (.filled done n) = .error cause) :
    (∃ c ∈ clauses, checkClause kinds c = .error cause) ∨
      ∃ passed, passed <+: clauses ∧ (∀ c ∈ passed, checkClause kinds c = .ok ()) ∧
        n < (passed.flatMap clauseBytes).length ∧ cause = .writePastEnd (done.length + n) := by
  -- With every clause that is written there is less room for the others.
  induction clauses generalizing done n with
  | nil => cases failed
  | cons c rest ih =>
    rw [List.foldlM_cons, packClause] at failed
    cases checked : checkClause kinds c with
    | error reason =>
      rw [checked] at failed
      cases failed
      exact .inl ⟨c, List.mem_cons_self, checked⟩
    | ok _ =>
      have written := writes_clause c done n
      dsimp only at written
      rw [checked, ok_bind, written, Tape.put] at failed
      split at failed
      · rename_i room
        rcases ih failed with ⟨d, member, refused⟩ | ⟨passed, ⟨others, rfl⟩, each, past, rfl⟩
        · exact .inl ⟨d, List.mem_cons_of_mem _ member, refused⟩
        · refine .inr ⟨c :: passed, ⟨others, rfl⟩, List.forall_mem_cons.mpr ⟨checked, each⟩, ?_, ?_⟩
          · rw [List.flatMap_cons, List.length_append]
            omega
          · rw [List.length_append]
            congr 1
            omega
      · rename_i full
        cases failed
        refine .inr ⟨[c], ⟨rest, rfl⟩, List.forall_mem_singleton.mpr checked, ?_, rfl⟩
        simpa using full

/-- Once a rule has been counted, what goes wrong is that a clause does not pass its check, or that the bytes of clauses that
    do are too many, or that those of all clauses and commands do not fill the tape. -/
theorem exists_of_encode (few : rule.busy.length ≤ Rule.maxClauses) (sized : size rule kinds = .ok n)
    (room : n < Word.full.reach) (failed : encode rule kinds = .error cause) :
    (∃ c ∈ rule.busy, checkClause kinds c = .error cause) ∨
      (∃ passed, passed <+: rule.busy ∧ (∀ c ∈ passed, checkClause kinds c = .ok ()) ∧
        n < 2 + (passed.flatMap clauseBytes).length ∧ cause = .writePastEnd n) ∨
      ((∀ c ∈ rule.busy, checkClause kinds c = .ok ()) ∧ fill (layout rule.stripped) n = .error cause) := by
  by_cases checked : ∀ c ∈ rule.busy, checkClause kinds c = .ok ()
  · rw [encode_eq_fill few sized checked, if_pos room] at failed
    exact .inr (.inr ⟨checked, failed⟩)
  · obtain ⟨rest, rfl⟩ : ∃ rest, n = rest + 1 + 1 := by
      refine ⟨n - 2, ?_⟩
      rw [(count_of_size sized).1, headerLength]
      omega
    rw [encode, if_neg (Nat.not_lt.mpr few), sized, ok_bind, Tape.checkLength, if_pos room, ok_bind, write_header] at failed
    cases written : rule.busy.foldlM (packClause kinds) (.filled (headerBytes rule.stripped) rest) with
    | ok t => exact absurd (checked_of_foldlM written) checked
    | error reason =>
      rw [written] at failed
      cases failed
      rcases exists_of_foldlM_packClause written with refused | ⟨passed, first, each, past, rfl⟩
      · exact .inl refused
      · refine .inr (.inl ⟨passed, first, each, by omega, ?_⟩)
        rw [Nat.add_comm]
        rfl

/-! ### Faults -/

theorem blames_of_checkClause {c : Clause δ} (member : c ∈ rule.busy) (failed : checkClause kinds c = .error cause) :
    rule.Blames kinds cause := by
  rw [checkClause] at failed
  split at failed
  · rename_i outside
    cases failed
    exact .cell member (by simpa using outside)
  · split at failed
    · rename_i misfit
      cases failed
      exact .counts member (by simpa using misfit)
    · split at failed
      · rename_i many
        cases failed
        exact .commands member many
      · cases failed

theorem not_exceeds_iff : ¬rule.Exceeds kinds ↔
    rule.busy.length ≤ Rule.maxClauses ∧ ∀ c ∈ rule.busy, checkClause kinds c = .ok () := by
  simp only [Rule.Exceeds, checkClause_eq_ok_iff, not_or, not_exists, not_and, not_not, Nat.not_lt]

theorem exceeds_of_blames (blamed : rule.Blames kinds cause) : rule.Exceeds kinds := by
  cases blamed with
  | clauses many => exact .inl many
  | cell member outside => exact .inr ⟨_, member, .inl outside⟩
  | counts member misfit => exact .inr ⟨_, member, .inr (.inl misfit)⟩
  | commands member many => exact .inr ⟨_, member, .inr (.inr many)⟩

theorem misfills_of_fill (failed : fill (layout rule.stripped) n = .error cause) : rule.Misfills n cause := by
  rw [fill] at failed
  split at failed
  · cases failed
  · split at failed
    · rename_i long
      cases failed
      exact .over long
    · cases failed
      exact .under (by omega)

/-- A fault of the encoder tells of a limit of the format or of a buffer that is too long. Otherwise the bytes of clauses that
    passed their checks are too many, or those of all clauses and commands do not fill the tape. -/
theorem cases_of_encode (sized : size rule kinds = .ok n) (failed : encode rule kinds = .error cause) :
    rule.Blames kinds cause ∨ (cause = .bufferTooLong ∧ Word.full.reach ≤ n) ∨
      (∃ passed, passed <+: rule.busy ∧ (∀ c ∈ passed, checkClause kinds c = .ok ()) ∧
        n < 2 + (passed.flatMap clauseBytes).length ∧ cause = .writePastEnd n) ∨
      (∀ c ∈ rule.busy, checkClause kinds c = .ok ()) ∧ fill (layout rule.stripped) n = .error cause := by
  by_cases many : Rule.maxClauses < rule.busy.length
  · rw [encode, if_pos many] at failed
    cases failed
    exact .inl (.clauses many)
  by_cases room : n < Word.full.reach
  · rcases exists_of_encode (Nat.not_lt.mp many) sized room failed with ⟨c, member, refused⟩ | others
    · exact .inl (blames_of_checkClause member refused)
    · exact .inr (.inr others)
  · rw [encode, if_neg many, sized, ok_bind, Tape.checkLength, if_neg room] at failed
    cases failed
    exact .inr (.inl ⟨rfl, Nat.not_lt.mp room⟩)

/-- Without a limit or a buffer to blame, the bytes are not as many as was announced. -/
theorem blames_of_encode (sized : size rule kinds = .ok n) (failed : encode rule kinds = .error cause) :
    rule.Blames kinds cause ∨ rule.Misfills n cause ∨ cause = .bufferTooLong ∧ Word.full.reach ≤ n := by
  rcases cases_of_encode sized failed with blamed | too_long | ⟨passed, ⟨others, busy⟩, _, past, rfl⟩ | ⟨_, failed⟩
  · exact .inl blamed
  · exact .inr (.inr too_long)
  · refine .inr (.inl (.over (Nat.lt_of_lt_of_le past ?_)))
    rw [layout, show rule.stripped.clauses = rule.busy from rfl, ← busy]
    simp only [headerBytes, List.flatMap_append, List.length_append, List.length_cons, List.length_nil]
    omega
  · exact .inr (.inl (misfills_of_fill failed))

/-- Where every table has as many bytes as it takes, so do the clauses that pass their checks. -/
theorem blames_of_encode_sized (sized : size rule kinds = .ok n) (whole : rule.Sized)
    (failed : encode rule kinds = .error cause) :
    rule.Blames kinds cause ∨ cause = .bufferTooLong ∧ Word.full.reach ≤ n := by
  have fits {c : Clause δ} (checked : checkClause kinds c = .ok ()) : c.fits kinds := (checkClause_eq_ok_iff.mp checked).2.1
  rcases cases_of_encode sized failed with blamed | too_long | ⟨passed, first, each, past, rfl⟩ | ⟨checked, failed⟩
  · exact .inl blamed
  · exact .inr too_long
  · have length := length_flatMap_clauseBytes (fun c member => whole c (first.subset member)) fun c member =>
      fits (each c member)
    have fewer := Nat.mul_le_mul_right
      (2 + Demands.packedLength kinds.backgrounds + Demands.packedLength kinds.sprites) first.length_le
    rw [(count_of_size sized).1, length, headerLength] at past
    omega
  · rw [fill, if_pos (size_eq_ok sized whole fun c member => fits (checked c member)).1.symm] at failed
    cases failed

/-- Idle clauses are never looked at. -/
theorem encode_stripped (rule : Rule δ) (kinds : Kinds) : encode rule.stripped kinds = encode rule kinds := by
  rw [encode, encode, size, size, rule.busy_stripped]
  rfl

theorem encode_of_not_exceeds (sized : size rule kinds = .ok n) (held : rule.footprint < Word.full.reach)
    (keeps : ¬rule.Exceeds kinds) (filled : (layout rule.stripped).length = n) :
    encode rule kinds = .ok (layout rule.stripped) := by
  obtain ⟨few, checked⟩ := not_exceeds_iff.mp keeps
  have room : n < Word.full.reach := filled ▸ Nat.lt_trans rule.length_layout_lt held
  rw [encode_eq_fill few sized checked, if_pos room, fill, if_pos filled]

/-- A rule that is packed keeps the limits, and its bytes are as many as was announced. -/
theorem keeps_of_encode {bytes : List UInt8} (sized : size rule kinds = .ok n) (packed : encode rule kinds = .ok bytes) :
    ¬rule.Exceeds kinds ∧ (layout rule.stripped).length = n := by
  obtain ⟨few, _, checked⟩ := checked_of_encode packed
  refine ⟨not_exceeds_iff.mpr ⟨few, checked⟩, ?_⟩
  rw [encode_eq_fill few sized checked, fill] at packed
  split at packed
  · split at packed
    · assumption
    · split at packed <;> cases packed
  · cases packed

theorem encode_faults_iff_sized (sized : size rule kinds = .ok n) (whole : rule.Sized)
    (held : rule.footprint < Word.full.reach) :
    ((∃ cause, encode rule kinds = .error cause) ↔ rule.Exceeds kinds) ∧
      (¬rule.Exceeds kinds → ∃ bytes, encode rule kinds = .ok bytes ∧ bytes.length = n) := by
  have packs (keeps : ¬rule.Exceeds kinds) : ∃ bytes, encode rule kinds = .ok bytes ∧ bytes.length = n := by
    have fits : ∀ c ∈ rule.busy, c.fits kinds := fun c member =>
      (checkClause_eq_ok_iff.mp ((not_exceeds_iff.mp keeps).2 c member)).2.1
    have filled := (size_eq_ok sized whole fits).1.symm
    exact ⟨_, encode_of_not_exceeds sized held keeps filled, filled⟩
  refine ⟨⟨?_, fun exceeds => ?_⟩, packs⟩
  · rintro ⟨cause, failed⟩
    by_contra keeps
    obtain ⟨bytes, packed, _⟩ := packs keeps
    cases packed.symm.trans failed
  · cases packed : encode rule kinds with
    | error cause => exact ⟨cause, rfl⟩
    | ok bytes => exact absurd exceeds (keeps_of_encode sized packed).1

/-- A rule whose size can be counted, and which memory holds, is packed unless it goes beyond a limit of the format or its
    tables of demands do not have the bytes that were counted on. Whatever the rule is, a fault tells of one of these, or of a
    size that no buffer can have. If the tables of the clauses that are not idle have as many bytes as it takes, only the limits
    are left: then the tape has no part in any fault, and the record has the size that was announced. -/
theorem encode_faults_iff (sized : size rule kinds = .ok n) :
    (rule.footprint < Word.full.reach →
      ((∃ cause, encode rule kinds = .error cause) ↔ rule.Exceeds kinds ∨ (layout rule.stripped).length ≠ n) ∧
        (¬rule.Exceeds kinds → (layout rule.stripped).length = n → encode rule kinds = .ok (layout rule.stripped))) ∧
      (∀ cause, encode rule kinds = .error cause →
        rule.Blames kinds cause ∨ rule.Misfills n cause ∨ cause = .bufferTooLong ∧ Word.full.reach ≤ n) ∧
      (rule.Sized →
        (rule.footprint < Word.full.reach →
          ((∃ cause, encode rule kinds = .error cause) ↔ rule.Exceeds kinds) ∧
            (¬rule.Exceeds kinds → ∃ bytes, encode rule kinds = .ok bytes ∧ bytes.length = n)) ∧
        ∀ cause, encode rule kinds = .error cause →
          rule.Blames kinds cause ∨ cause = .bufferTooLong ∧ Word.full.reach ≤ n) ∧
      n = 2 + rule.busy.length * (2 + (kinds.backgrounds + 3) / 4 + (kinds.sprites + 3) / 4) +
        2 * (rule.busy.flatMap Clause.commands).length ∧
      encode rule.stripped kinds = encode rule kinds := by
  refine ⟨fun held => ⟨⟨?_, fun reason => ?_⟩, encode_of_not_exceeds sized held⟩, fun cause failed =>
    blames_of_encode sized failed, fun whole => ⟨encode_faults_iff_sized sized whole, fun cause failed =>
      blames_of_encode_sized sized whole failed⟩, (count_of_size sized).1, encode_stripped rule kinds⟩
  · rintro ⟨cause, failed⟩
    by_contra neither
    rw [not_or, not_not] at neither
    cases (encode_of_not_exceeds sized held neither.1 neither.2).symm.trans failed
  · cases packed : encode rule kinds with
    | error cause => exact ⟨cause, rfl⟩
    | ok bytes =>
      obtain ⟨keeps, filled⟩ := keeps_of_encode sized packed
      exact reason.elim (absurd · keeps) (absurd filled)

/-- A rule with a clause that asks for nothing and lies outside the window. -/
def stray : Rule := { halt with clauses := halt.clauses.modify 0 fun c => { c with cell := ⟨9, 9⟩ } }

/-- A rule with a clause that has too many commands. -/
def crowd : Rule := { halt with clauses := halt.clauses.modify 1 fun c => { c with commands := .replicate 5 (.move .stop) } }

/-- A rule as documents may have it, whose only clause includes the only sprite kind in a table of given bytes. -/
def misprint (bytes : List UInt8) : Rule RawDemands where
  trigger := .change
  arg := 0
  clauses := [⟨.centre, ⟨1, [0]⟩, ⟨1, bytes⟩, .any, [.move .stop]⟩]
  symmetry := .none

theorem encode_faults_crowd : ∃ bytes cause, encode stray ⟨1, 1⟩ = .ok bytes ∧ bytes.length = 8 ∧
    encode crowd ⟨1, 1⟩ = .error cause ∧ crowd.Blames ⟨1, 1⟩ cause ∧
    ∃ cause, encode (misprint [1, 2]) ⟨1, 1⟩ = .error cause ∧ (misprint [1, 2]).Misfills 8 cause := by
  obtain ⟨_, _, packs, _⟩ := encode_faults_iff (show size stray ⟨1, 1⟩ = .ok 8 from rfl)
  obtain ⟨bytes, packed, length⟩ := ((packs stray.sized).1 (by decide)).2 (by decide)
  obtain ⟨_, _, faults, _⟩ := encode_faults_iff (show size crowd ⟨1, 1⟩ = .ok 16 from rfl)
  obtain ⟨faults, blames⟩ := faults crowd.sized
  obtain ⟨cause, failed⟩ := (faults (by decide)).1.mpr (by decide)
  obtain ⟨misprints, others, _⟩ := encode_faults_iff (show size (misprint [1, 2]) ⟨1, 1⟩ = .ok 8 from rfl)
  obtain ⟨other, refused⟩ := (misprints (by decide)).1.mpr (.inr (by decide))
  refine ⟨bytes, cause, packed, length, failed, (blames cause failed).resolve_right fun too_long => ?_, other, refused, ?_⟩
  · exact absurd too_long.2 (by decide)
  · rcases others other refused with blamed | misfilled | too_long
    · exact absurd (exceeds_of_blames blamed) (by decide)
    · exact misfilled
    · exact absurd too_long.2 (by decide)

/-- With a byte too many the record is written past its end, with one too few it is left unfilled. No limit of the format is
    exceeded. -/
theorem encode_misprint :
    size (misprint [1, 2]) ⟨1, 1⟩ = .ok 8 ∧ ¬(misprint [1, 2]).Exceeds ⟨1, 1⟩ ∧ (misprint [1, 2]).footprint < Word.full.reach ∧
      encode (misprint [1, 2]) ⟨1, 1⟩ = .error (.writePastEnd 8) ∧
    size (misprint []) ⟨1, 1⟩ = .ok 8 ∧ ¬(misprint []).Exceeds ⟨1, 1⟩ ∧ (misprint []).footprint < Word.full.reach ∧
      encode (misprint []) ⟨1, 1⟩ = .error .unfilledRecord :=
  ⟨rfl, by decide, by decide, rfl, rfl, by decide, by decide, rfl⟩

end Record
end Playfield
