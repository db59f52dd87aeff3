import Playfield.Proofs.Tapes
import Playfield.Record

/-!
# The layout of records

The bytes of a record are written down here without a tape. Whatever passes the checks of the
encoder is written as its layout, which has the announced size, so writing never runs past the
end and never leaves anything unwritten.
-/
namespace Playfield

/-- Both tables of demands of a clause have as many bytes as it takes. -/
def Clause.Sized {δ : Type} [Packed δ] (c : Clause δ) : Prop := Packed.Sized c.backgrounds ∧ Packed.Sized c.sprites

instance {δ : Type} [Packed δ] (c : Clause δ) : Decidable c.Sized := inferInstanceAs (Decidable (_ ∧ _))

theorem Clause.sized (c : Clause) : c.Sized := ⟨c.backgrounds.sized, c.sprites.sized⟩

namespace Rule

variable {δ : Type} [Packed δ]

/-- The rule without its idle clauses. -/
def stripped (r : Rule δ) : Rule δ := { r with clauses := r.busy }

theorem busy_stripped (r : Rule δ) : r.stripped.busy = r.busy := by
  show r.busy.filter _ = r.busy
  rw [busy, List.filter_filter]
  simp

/-- The tables of demands of all clauses that are not idle have as many bytes as it takes. -/
def Sized (r : Rule δ) : Prop := ∀ c ∈ r.busy, c.Sized

instance (r : Rule δ) : Decidable r.Sized := inferInstanceAs (Decidable (∀ c ∈ r.busy, c.Sized))

theorem sized (r : Rule) : r.Sized := fun c _ => c.sized

end Rule

namespace Demands

theorem checkedLength_eq_ok_iff {kinds n : Nat} :
    checkedLength kinds = .ok n ↔ kinds + 3 < Word.full.size ∧ n = packedLength kinds := by
  rw [checkedLength, bind_eq_ok]
  constructor
  · rintro ⟨m, counted, done⟩
    obtain ⟨fits, rfl⟩ := unsigned_eq_ok_iff.mp counted
    exact ⟨fits, (pure_eq_ok.mp done).symm⟩
  · rintro ⟨fits, rfl⟩
    exact ⟨kinds + 3, unsigned_eq_ok fits, rfl⟩

end Demands

namespace Tape

/-- A tape of which the last `n` bytes are yet to be written. -/
def filled (done : List UInt8) (n : Nat) : Tape := between done (List.replicate n 0)

theorem blank_eq_filled (n : Nat) : blank n = filled [] n := rfl

theorem filled_succ (done : List UInt8) (n : Nat) : filled done (n + 1) = between done (0 :: List.replicate n 0) := rfl

theorem exhausted_filled (done : List UInt8) (n : Nat) : (filled done n).exhausted = (n == 0) := by
  rw [filled, exhausted_between]
  cases n <;> rfl

/-- The tape once bytes are written to it, which it must have room for. -/
def put (bytes done : List UInt8) (n : Nat) : Checked Tape :=
  if bytes.length ≤ n then .ok (filled (done ++ bytes) (n - bytes.length))
  else .error (.writePastEnd (done.length + n))

/-- What is done to a tape is that these bytes are written. -/
def Writes (write : Tape → Checked Tape) (bytes : List UInt8) : Prop :=
  ∀ done n, write (filled done n) = put bytes done n

namespace Writes

variable {write next : Tape → Checked Tape} {bytes others : List UInt8}

theorem andThen (first : Writes write bytes) (second : Writes next others) :
    Writes (fun t => write t >>= next) (bytes ++ others) := by
  intro done n
  show write (filled done n) >>= next = _
  rw [first done n, put, put]
  by_cases room : bytes.length ≤ n
  · rw [if_pos room, ok_bind, second, put]
    by_cases rest : others.length ≤ n - bytes.length
    · rw [if_pos rest, if_pos (by rw [List.length_append]; omega), List.append_assoc, List.length_append, Nat.sub_sub]
    · rw [if_neg rest, if_neg (by rw [List.length_append]; omega), List.length_append]
      congr 2
      omega
  · rw [if_neg room, if_neg (by rw [List.length_append]; omega)]
    rfl

/-- Items that are each written as their bytes are written one after the other. -/
theorem foldlM {α : Type} {write : Tape → α → Checked Tape} {bytes : α → List UInt8} {l : List α}
    (each : ∀ a ∈ l, Writes (fun t => write t a) (bytes a)) : Writes (fun t => l.foldlM write t) (l.flatMap bytes) := by
  induction l with
  | nil =>
    intro done n
    simp [put, pure, Except.pure]
  | cons a rest ih =>
    obtain ⟨here, each⟩ := List.forall_mem_cons.mp each
    exact here.andThen (ih each)

end Writes

theorem writes_bytes (bytes : List UInt8) : Writes (writeBytes bytes) bytes := by
  intro done n
  rw [put]
  split
  · rename_i room
    obtain ⟨rest, rfl⟩ := Nat.exists_eq_add_of_le room
    rw [filled, ← List.replicate_append_replicate, Nat.add_sub_cancel_left]
    exact writeBytes_between List.length_replicate
  · rename_i short
    have past : ¬done.length + bytes.length ≤ (filled done n).bytes.length := by simp [filled, between, short]
    rw [writeBytes, filled, aligned_between, byteOffset_between, if_pos rfl, ← filled, if_neg past]
    simp [filled, between]

/-- Nothing is written past the end. -/
theorem writeField_filled_zero (done : List UInt8) (value : UInt8) {width : Nat} (positive : 1 ≤ width) (small : width ≤ 8) :
    (filled done 0).writeField value width = .error (.writePastEnd done.length) := by
  rw [writeField, filled, below_between positive small, ok_bind, byteOffset_between]
  simp [between, throw, throwThe, MonadExceptOf.throw]

theorem writes_halves (high low : UInt8) :
    Writes (fun t => t.writeField high 4 >>= fun t => t.writeField low 4) [Byte.halves high low] := by
  intro done n
  dsimp only
  cases n with
  | zero =>
    rw [writeField_filled_zero done high (by decide) (by decide)]
    rfl
  | succ n =>
    rw [filled_succ, writeField_high, ok_bind, writeField_low, Byte.putField_halves]
    simp [put, filled]

theorem writes_whole (value : UInt8) : Writes (fun t => t.writeField value 8) [value] := by
  intro done n
  dsimp only
  cases n with
  | zero => exact writeField_filled_zero done value (by decide) (by decide)
  | succ n =>
    rw [filled_succ, writeField_whole]
    simp [put, filled]

end Tape

namespace Record

variable {δ : Type} [Packed δ] {rule : Rule δ} {kinds : Kinds} {n : Nat}

/-- The bytes of a clause without its commands. -/
def clauseBytes (c : Clause δ) : List UInt8 :=
  Byte.halves c.cell.col c.cell.row ::
    (Packed.bytes c.backgrounds ++
      (Packed.bytes c.sprites ++ [Byte.halves (code c.facing) (.ofNat c.commands.length)]))

/-- The bytes of a command. -/
def commandBytes (k : Command) : List UInt8 := [code k.inst, k.arg]

/-- The bytes before the first clause. -/
def headerBytes (rule : Rule δ) : List UInt8 :=
  [Byte.halves (code rule.trigger) rule.arg, Byte.halves (code rule.symmetry) (.ofNat rule.clauses.length)]

/-- The bytes of a rule with all its clauses. -/
def layout (rule : Rule δ) : List UInt8 :=
  headerBytes rule ++ (rule.clauses.flatMap clauseBytes ++
    (rule.clauses.flatMap Clause.commands).flatMap commandBytes)

/-! ### Sizes -/

theorem length_clauseBytes {c : Clause δ} (sized : c.Sized) (fits : c.fits kinds) :
    (clauseBytes c).length =
      2 + Demands.packedLength kinds.backgrounds + Demands.packedLength kinds.sprites := by
  obtain ⟨backgrounds, sprites⟩ := (Bool.and_eq_true _ _).mp fits
  rw [beq_iff_eq] at backgrounds sprites
  obtain ⟨first, second⟩ := sized
  rw [Packed.Sized, backgrounds] at first
  rw [Packed.Sized, sprites] at second
  simp only [clauseBytes, List.length_cons, List.length_append, List.length_nil, first, second]
  omega

theorem length_commandBytes (commands : List Command) :
    (commands.flatMap commandBytes).length = commandLength * commands.length := by
  induction commands with
  | nil => rfl
  | cons k rest ih =>
    rw [List.flatMap_cons, List.length_append, ih, List.length_cons, Nat.mul_succ, Nat.add_comm]
    rfl

theorem clauseLength_eq_ok (counted : clauseLength kinds = .ok n) :
    (kinds.backgrounds + 3 < Word.full.size ∧ kinds.sprites + 3 < Word.full.size) ∧
      n = 2 + Demands.packedLength kinds.backgrounds + Demands.packedLength kinds.sprites := by
  obtain ⟨b, backgrounds, counted⟩ := bind_eq_ok.mp counted
  obtain ⟨s, sprites, done⟩ := bind_eq_ok.mp counted
  obtain ⟨few, rfl⟩ := Demands.checkedLength_eq_ok_iff.mp backgrounds
  obtain ⟨also, rfl⟩ := Demands.checkedLength_eq_ok_iff.mp sprites
  exact ⟨⟨few, also⟩, (pure_eq_ok.mp done).symm⟩

omit [Packed δ] in
theorem fullLength_eq_ok {c : Clause δ} (counted : fullLength kinds c = .ok n) :
    n = 2 + Demands.packedLength kinds.backgrounds + Demands.packedLength kinds.sprites +
      commandLength * c.commands.length := by
  obtain ⟨m, plain, done⟩ := bind_eq_ok.mp counted
  rw [← (clauseLength_eq_ok plain).2]
  exact (pure_eq_ok.mp done).symm

omit [Packed δ] in
/-- The announced size of clauses and their commands hangs on nothing but their numbers and those of the kinds. -/
theorem sum_fullLength {clauses : List (Clause δ)} {lengths : List Nat}
    (counted : clauses.mapM (fullLength kinds) = .ok lengths) (start : Nat) :
    lengths.foldr (· + ·) start = start +
      clauses.length * (2 + Demands.packedLength kinds.backgrounds + Demands.packedLength kinds.sprites) +
        commandLength * (clauses.flatMap Clause.commands).length := by
  induction clauses generalizing lengths with
  | nil =>
    cases pure_eq_ok.mp counted
    simp
  | cons c rest ih =>
    rw [List.mapM_cons] at counted
    obtain ⟨n, first, counted⟩ := bind_eq_ok.mp counted
    obtain ⟨others, later, done⟩ := bind_eq_ok.mp counted
    cases pure_eq_ok.mp done
    rw [List.foldr_cons, ih later, fullLength_eq_ok first, List.flatMap_cons, List.length_append, List.length_cons,
      Nat.succ_mul, Nat.mul_add commandLength]
    omega

theorem count_of_size (sized : size rule kinds = .ok n) :
    n = headerLength +
      rule.busy.length * (2 + Demands.packedLength kinds.backgrounds + Demands.packedLength kinds.sprites) +
        commandLength * (rule.busy.flatMap Clause.commands).length ∧ n < Word.full.size := by
  obtain ⟨lengths, counted, added⟩ := bind_eq_ok.mp sized
  obtain ⟨room, rfl⟩ := unsigned_eq_ok_iff.mp added
  exact ⟨sum_fullLength counted headerLength, room⟩

theorem length_flatMap_clauseBytes {clauses : List (Clause δ)} (sized : ∀ c ∈ clauses, c.Sized)
    (fits : ∀ c ∈ clauses, c.fits kinds) :
    (clauses.flatMap clauseBytes).length =
      clauses.length * (2 + Demands.packedLength kinds.backgrounds + Demands.packedLength kinds.sprites) := by
  rw [List.length_flatMap,
    List.map_congr_left fun c member => length_clauseBytes (sized c member) (fits c member), List.map_const',
    List.sum_replicate_nat]

/-- The layout of clauses that fit has the announced size. -/
theorem length_layout_stripped (whole : rule.Sized) (fits : ∀ c ∈ rule.busy, c.fits kinds) :
    (layout rule.stripped).length = headerLength +
      rule.busy.length * (2 + Demands.packedLength kinds.backgrounds + Demands.packedLength kinds.sprites) +
        commandLength * (rule.busy.flatMap Clause.commands).length := by
  rw [layout, List.length_append, List.length_append, length_commandBytes, ← Nat.add_assoc,
    show rule.stripped.clauses = rule.busy from rfl, length_flatMap_clauseBytes whole fits]
  rfl

theorem size_eq_ok (sized : size rule kinds = .ok n) (whole : rule.Sized) (fits : ∀ c ∈ rule.busy, c.fits kinds) :
    n = (layout rule.stripped).length ∧ n < Word.full.size := by
  rw [length_layout_stripped whole fits]
  exact count_of_size sized

/-! ### Writing -/

theorem checkClause_eq_ok_iff {c : Clause δ} :
    checkClause kinds c = .ok () ↔ c.cell.inWindow ∧ c.fits kinds ∧ c.commands.length ≤ Clause.maxCommands := by
  rw [checkClause]
  by_cases inside : c.cell.inWindow
  · by_cases fits : c.fits kinds
    · by_cases few : Clause.maxCommands < c.commands.length
      · simp [inside, fits, few]
      · simp [inside, fits, few, Nat.not_lt.mp few]
    · simp [inside, fits]
  · simp [inside]

theorem writes_clause (c : Clause δ) : Tape.Writes (fun t => writeClause t c) (clauseBytes c) := by
  have parts := (Tape.writes_halves c.cell.col c.cell.row).andThen ((Tape.writes_bytes (Packed.bytes c.backgrounds)).andThen
    ((Tape.writes_bytes (Packed.bytes c.sprites)).andThen
      (Tape.writes_halves (code c.facing) (.ofNat c.commands.length))))
  intro done n
  rw [clauseBytes, ← List.singleton_append, ← parts done n]
  simp only [writeClause, bind_assoc]

/-- A clause that passes its check is written. -/
theorem writes_packClause {c : Clause δ} (checked : checkClause kinds c = .ok ()) :
    Tape.Writes (fun t => packClause kinds t c) (clauseBytes c) := by
  intro done n
  rw [← writes_clause c done n]
  simp only [packClause, checked, ok_bind]

theorem writes_command (k : Command) : Tape.Writes (fun t => writeCommand t k) (commandBytes k) :=
  (Tape.writes_whole (code k.inst)).andThen (Tape.writes_whole k.arg)

/-- The header is written before the clauses. -/
theorem write_header {β : Type} (rule : Rule δ) (rest : Nat) (write : Tape → Checked β) :
    (do
      let t ← (Tape.blank (rest + 1 + 1)).writeField (code rule.trigger) 4
      let t ← t.writeField rule.arg 4
      let t ← t.writeField (code rule.symmetry) 4
      let t ← t.writeField (.ofNat rule.busy.length) 4
      write t) = write (.filled (headerBytes rule.stripped) rest) := by
  rw [Tape.blank_eq_filled, Tape.filled_succ, List.replicate_succ, Tape.writeField_high, ok_bind, Tape.writeField_low,
    ok_bind, Tape.writeField_high, ok_bind, Tape.writeField_low, ok_bind, Byte.putField_halves, Byte.putField_halves]
  rfl

/-- What becomes of bytes that are written to a buffer of `n` bytes, which they should fill. -/
def fill (bytes : List UInt8) (n : Nat) : Checked (List UInt8) :=
  if bytes.length = n then .ok bytes else if n < bytes.length then .error (.writePastEnd n) else .error .unfilledRecord

/-- After its checks the encoder writes the layout of the rule to a buffer of the announced size. -/
theorem encode_eq_fill (few : rule.busy.length ≤ Rule.maxClauses) (sized : size rule kinds = .ok n)
    (checked : ∀ c ∈ rule.busy, checkClause kinds c = .ok ()) :
    encode rule kinds = if n < Word.full.reach then fill (layout rule.stripped) n else .error .bufferTooLong := by
  obtain ⟨rest, rfl⟩ : ∃ rest, n = rest + 1 + 1 := by
    refine ⟨n - 2, ?_⟩
    rw [(count_of_size sized).1, headerLength]
    omega
  let body := rule.busy.flatMap clauseBytes ++ (rule.busy.flatMap Clause.commands).flatMap commandBytes
  have written : (rule.busy.foldlM (packClause kinds) (.filled (headerBytes rule.stripped) rest) >>= fun t =>
      (rule.busy.flatMap Clause.commands).foldlM writeCommand t) = Tape.put body (headerBytes rule.stripped) rest :=
    (Tape.Writes.foldlM fun c member => writes_packClause (checked c member)).andThen
      (Tape.Writes.foldlM fun k _ => writes_command k) _ _
  have length : (layout rule.stripped).length = body.length + 1 + 1 := by
    rw [layout, List.length_append, Nat.add_comm]
    rfl
  rw [encode, if_neg (Nat.not_lt.mpr few), sized, ok_bind, Tape.checkLength]
  split
  · rw [ok_bind, write_header, ← bind_assoc, written, Tape.put, fill, length]
    rcases Nat.lt_trichotomy body.length rest with short | rfl | long
    · rw [if_pos (by omega), if_neg (by omega), if_neg (by omega), ok_bind, Tape.exhausted_filled]
      simp [throw, throwThe, MonadExceptOf.throw]
      omega
    · rw [if_pos (Nat.le_refl _), if_pos rfl, ok_bind, Nat.sub_self, Tape.exhausted_filled]
      simp [Tape.filled, Tape.between, pure, Except.pure]
      rfl
    · rw [if_neg (by omega), if_neg (by omega), if_pos (by omega), Nat.add_comm]
      rfl
  · rfl

/-- After its checks the encoder writes the layout of a rule whose tables have as many bytes as it takes, and nothing can go
    wrong any more. -/
theorem encode_eq (few : rule.busy.length ≤ Rule.maxClauses) (sized : size rule kinds = .ok n) (whole : rule.Sized)
    (checked : ∀ c ∈ rule.busy, checkClause kinds c = .ok ()) :
    encode rule kinds =
      if n < Word.full.reach then .ok (layout rule.stripped) else .error .bufferTooLong := by
  have fits : ∀ c ∈ rule.busy, c.fits kinds := fun c member => (checkClause_eq_ok_iff.mp (checked c member)).2.1
  rw [encode_eq_fill few sized checked, fill, if_pos (size_eq_ok sized whole fits).1.symm]

end Record
end Playfield
