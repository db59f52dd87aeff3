import Playfield.Proofs.Layout

/-!
# Round trips through records

What the layout of a rule says is what the decoder reads: byte by byte, clause by clause, then the
commands of each clause.
-/
namespace Playfield

namespace Demands

/-- Clearing bits that are clear changes nothing. -/
theorem trim_of_padded {len : Nat} {bytes : List UInt8} (padded : Padded len bytes) : trim len bytes = bytes := by
  rw [trim]
  split
  · rfl
  · rfl
  · rename_i last found part
    have small := padded part last found
    have cleared : clearFrom last (len % 4) = last := by
      apply UInt8.toNat_inj.mp
      have zero : Bits.weight 0 = 1 := rfl
      rw [clearFrom, Byte.toNat_field, Bits.get, zero, Nat.div_one, Nat.mod_eq_of_lt small]
    obtain ⟨front, rfl⟩ := List.getLast?_eq_some_iff.mp found
    rw [cleared, List.dropLast_concat]

theorem ofBytes_bytes {d : Demands} (counted : d.len + 3 < Word.full.size) : ofBytes d.bytes d.len = .ok d := by
  have length := checkedLength_eq_ok_iff.mpr ⟨counted, rfl⟩
  rw [ofBytes, length, ok_bind, dif_pos d.sized]
  exact congrArg Except.ok (ext_bytes rfl (trim_of_padded d.padded))

end Demands

theorem code_lt {α : Type} [Vocabulary α] (a : α) : (code a).toNat < (Vocabulary.words : List α).length := by
  have found := Vocabulary.words_code a
  exact (List.getElem?_eq_some_iff.mp found).1

namespace Record

variable {α β : Type} {before after : List UInt8} {b : UInt8}

theorem reading_bind {x : Reading α} {f : α → Reading β} {t u : Tape} {a : α} (first : x t = .ok (a, u)) :
    (x >>= f) t = f a u := by
  show (x t >>= fun r => f r.1 r.2) = f a u
  rw [first, ok_bind]

theorem reading_pure (a : α) (t : Tape) : (pure a : Reading α) t = .ok (a, t) := rfl

theorem reading_lift {x : Checked α} {a : α} (value : x = .ok a) (t : Tape) :
    (liftM x : Reading α) t = .ok (a, t) := by
  rw [value]
  rfl

/-! ### Words -/

theorem readWord_of_field [Vocabulary α] {field : RecordField} {width : Nat} {t u : Tape} {a : α}
    (read : readField width t = .ok (code a, u)) : readWord field width t = .ok (a, u) := by
  rw [readWord, reading_bind read, ofCode?_code]
  rfl

theorem readWord_high [Vocabulary α] (field : RecordField) {a : α} (coded : (code a).toNat < 16) (low : UInt8) :
    readWord field 4 (.between before (Byte.halves (code a) low :: after)) =
      .ok (a, .amid before (Byte.halves (code a) low) after) := by
  apply readWord_of_field
  rw [readField, Tape.readField_high, Byte.field_halves_high coded]

theorem readField_low (high : UInt8) {low : UInt8} (small : low.toNat < 16) :
    readField 4 (.amid before (Byte.halves high low) after) =
      .ok (low, .between (before ++ [Byte.halves high low]) after) := by
  rw [readField, Tape.readField_low, Byte.field_halves_low high small]

theorem readField_high {high : UInt8} (small : high.toNat < 16) (low : UInt8) :
    readField 4 (.between before (Byte.halves high low :: after)) =
      .ok (high, .amid before (Byte.halves high low) after) := by
  rw [readField, Tape.readField_high, Byte.field_halves_high small]

/-! ### Clauses -/

/-- A clause as it is read before its commands. -/
def Head.of (c : Clause) : Head := ⟨{ c with commands := [] }, c.commands.length⟩

theorem readDemands_between {d : Demands} (counted : d.len + 3 < Word.full.size)
    (room : before.length + d.bytes.length < Word.full.size) :
    readDemands d.len (.between before (d.bytes ++ after)) = .ok (d, .between (before ++ d.bytes) after) := by
  have length := Demands.checkedLength_eq_ok_iff.mpr ⟨counted, rfl⟩
  have bytes : readBytes (Demands.packedLength d.len) (.between before (d.bytes ++ after)) =
      .ok (d.bytes, .between (before ++ d.bytes) after) := by
    rw [← d.sized]
    exact Tape.readBytes_between room
  rw [readDemands, reading_bind (reading_lift length _), reading_bind bytes]
  exact reading_lift (Demands.ofBytes_bytes counted) _

theorem readCell_between {heads : List Head} {c : Cell} (inside : c.inWindow)
    (new : ∀ h ∈ heads, h.clause.cell ≠ c) :
    readCell heads (.between before (Byte.halves c.col c.row :: after)) =
      .ok (c, .between (before ++ [Byte.halves c.col c.row]) after) := by
  obtain ⟨col, row⟩ := Cell.inWindow_iff.mp inside
  have col_lt : c.col.toNat < 16 := Nat.lt_trans col (by decide)
  have row_lt : c.row.toNat < 16 := Nat.lt_trans row (by decide)
  have fresh : (heads.any fun h => h.clause.cell == c) = false := by simpa using new
  rw [readCell, reading_bind (readField_high col_lt c.row), reading_bind (readField_low c.col row_lt)]
  simp only [inside, Bool.not_true, Bool.false_eq_true, ↓reduceIte, fresh]
  rfl

theorem readCount_amid (high : UInt8) {count : Nat} (few : count ≤ Clause.maxCommands) :
    readCount (.amid before (Byte.halves high (.ofNat count)) after) =
      .ok (count, .between (before ++ [Byte.halves high (.ofNat count)]) after) := by
  have limit : count ≤ 4 := few
  have value : (UInt8.ofNat count).toNat = count := by
    rw [UInt8.toNat_ofNat']
    omega
  rw [readCount, reading_bind (readField_low high (by omega)), value, if_neg (Nat.not_lt.mpr few)]
  rfl

/-- What the encoder checks of a clause is what the decoder needs to read it. -/
theorem readHead_between {kinds : Kinds} {heads : List Head} {c : Clause} (checked : checkClause kinds c = .ok ())
    (counted : kinds.backgrounds + 3 < Word.full.size ∧ kinds.sprites + 3 < Word.full.size)
    (new : ∀ h ∈ heads, h.clause.cell ≠ c.cell) (room : before.length + (clauseBytes c).length < Word.full.size) :
    readHead kinds heads (.between before (clauseBytes c ++ after)) =
      .ok (.of c, .between (before ++ clauseBytes c) after) := by
  obtain ⟨inside, fits, few⟩ := checkClause_eq_ok_iff.mp checked
  obtain ⟨backgrounds, sprites⟩ := (Bool.and_eq_true _ _).mp fits
  rw [beq_iff_eq, Packed.len_demands] at backgrounds sprites
  rw [← backgrounds, ← sprites] at counted
  simp only [clauseBytes, Packed.bytes_demands, List.length_cons, List.length_append, List.length_nil] at room
  have facing : (code c.facing).toNat < 16 := Nat.lt_trans (code_lt c.facing) (by decide)
  have shape : clauseBytes c ++ after = Byte.halves c.cell.col c.cell.row :: (c.backgrounds.bytes ++
      (c.sprites.bytes ++ Byte.halves (code c.facing) (.ofNat c.commands.length) :: after)) := by
    simp [clauseBytes]
  rw [readHead, shape, reading_bind (readCell_between inside new), ← backgrounds, ← sprites,
    reading_bind (readDemands_between counted.1 (by simp; omega)),
    reading_bind (readDemands_between counted.2 (by simp; omega)),
    reading_bind (readWord_high .facing facing _), reading_bind (readCount_amid _ few)]
  simp [reading_pure, Head.of, clauseBytes]

theorem readHeads_between {kinds : Kinds} {clauses : List Clause} {heads : List Head}
    (checked : ∀ c ∈ clauses, checkClause kinds c = .ok ())
    (counted : clauses ≠ [] → kinds.backgrounds + 3 < Word.full.size ∧ kinds.sprites + 3 < Word.full.size)
    (distinct : (heads.map (·.clause.cell) ++ clauses.map (·.cell)).Nodup)
    (room : before.length + (clauses.flatMap clauseBytes).length < Word.full.size) :
    readHeads kinds clauses.length heads (.between before (clauses.flatMap clauseBytes ++ after)) =
      .ok (heads ++ clauses.map .of, .between (before ++ clauses.flatMap clauseBytes) after) := by
  induction clauses generalizing before heads with
  | nil => simp [readHeads, reading_pure]
  | cons c rest ih =>
    have sizes := counted (List.cons_ne_nil _ _)
    rw [List.flatMap_cons, List.length_append] at room
    have new : ∀ h ∈ heads, h.clause.cell ≠ c.cell := by
      obtain ⟨_, _, apart⟩ := List.nodup_append.mp distinct
      intro h member
      exact apart _ (List.mem_map_of_mem member) _ (by simp)
    have first : readHead kinds heads (.between before (clauseBytes c ++ (rest.flatMap clauseBytes ++ after))) =
        .ok (.of c, .between (before ++ clauseBytes c) (rest.flatMap clauseBytes ++ after)) :=
      readHead_between (checked c List.mem_cons_self) sizes new (by omega)
    have others : readHeads kinds rest.length (heads ++ [.of c])
          (.between (before ++ clauseBytes c) (rest.flatMap clauseBytes ++ after)) =
        .ok (heads ++ [.of c] ++ rest.map .of,
          .between (before ++ clauseBytes c ++ rest.flatMap clauseBytes) after) := by
      refine ih (fun a member => checked a (List.mem_cons_of_mem _ member)) (fun _ => sizes) ?_ ?_
      · simpa [Head.of] using distinct
      · rw [List.length_append]
        omega
    rw [List.length_cons, readHeads, List.flatMap_cons, List.append_assoc, reading_bind first, others]
    simp

/-! ### Commands -/

theorem readCommands_between (commands : List Command) :
    readCommands commands.length (.between before (commands.flatMap commandBytes ++ after)) =
      .ok (commands, .between (before ++ commands.flatMap commandBytes) after) := by
  induction commands generalizing before with
  | nil => simp [readCommands, reading_pure]
  | cons k rest ih =>
    have inst : readWord .instruction 8 (.between before (commandBytes k ++ (rest.flatMap commandBytes ++ after))) =
        .ok (k.inst, .between (before ++ [code k.inst]) (k.arg :: (rest.flatMap commandBytes ++ after))) :=
      readWord_of_field Tape.readField_whole
    have arg : readField 8 (.between (before ++ [code k.inst]) (k.arg :: (rest.flatMap commandBytes ++ after))) =
        .ok (k.arg, .between (before ++ [code k.inst] ++ [k.arg]) (rest.flatMap commandBytes ++ after)) :=
      Tape.readField_whole
    rw [List.length_cons, readCommands, List.flatMap_cons, List.append_assoc, reading_bind inst, reading_bind arg,
      reading_bind ih]
    simp [reading_pure, commandBytes]

theorem finish_of (c : Clause) :
    finish (.of c) (.between before (c.commands.flatMap commandBytes ++ after)) =
      .ok (c, .between (before ++ c.commands.flatMap commandBytes) after) := by
  rw [finish, Head.of, reading_bind (readCommands_between c.commands)]
  rfl

theorem mapM_finish (clauses : List Clause) :
    (clauses.map Head.of).mapM finish
        (.between before ((clauses.flatMap Clause.commands).flatMap commandBytes ++ after)) =
      .ok (clauses, .between (before ++ (clauses.flatMap Clause.commands).flatMap commandBytes) after) := by
  induction clauses generalizing before with
  | nil => simp [reading_pure]
  | cons c rest ih =>
    rw [List.map_cons, List.mapM_cons, List.flatMap_cons, List.flatMap_append, List.append_assoc,
      reading_bind (finish_of c), reading_bind ih]
    simp [reading_pure]

/-! ### Records -/

/-- A rule that keeps the limits of the format, and the record of which can be counted. -/
structure Packable (rule : Rule) (kinds : Kinds) : Prop where
  arg : rule.arg.toNat < 16
  few : rule.clauses.length ≤ Rule.maxClauses
  checked : ∀ c ∈ rule.clauses, checkClause kinds c = .ok ()
  distinct : (rule.clauses.map (·.cell)).Nodup
  counted : rule.clauses ≠ [] → kinds.backgrounds + 3 < Word.full.size ∧ kinds.sprites + 3 < Word.full.size
  room : (layout rule).length < Word.full.size

theorem readRule_layout {rule : Rule} {kinds : Kinds} (packable : Packable rule kinds) :
    readRule kinds (.between [] (layout rule)) = .ok (rule, .between (layout rule) []) := by
  have limit : rule.clauses.length ≤ 15 := packable.few
  have count : (UInt8.ofNat rule.clauses.length).toNat = rule.clauses.length := by
    rw [UInt8.toNat_ofNat']
    omega
  have trigger : (code rule.trigger).toNat < 16 := Nat.lt_trans (code_lt rule.trigger) (by decide)
  have symmetry : (code rule.symmetry).toNat < 16 := Nat.lt_trans (code_lt rule.symmetry) (by decide)
  have length := packable.room
  rw [layout, List.length_append, List.length_append] at length
  have heads : readHeads kinds rule.clauses.length [] (.between (headerBytes rule) (rule.clauses.flatMap clauseBytes ++
        (rule.clauses.flatMap Clause.commands).flatMap commandBytes)) =
      .ok ([] ++ rule.clauses.map .of, .between (headerBytes rule ++ rule.clauses.flatMap clauseBytes)
        ((rule.clauses.flatMap Clause.commands).flatMap commandBytes)) :=
    readHeads_between packable.checked packable.counted packable.distinct (by omega)
  have clauses : (rule.clauses.map Head.of).mapM finish (.between (headerBytes rule ++ rule.clauses.flatMap clauseBytes)
        ((rule.clauses.flatMap Clause.commands).flatMap commandBytes ++ [])) =
      .ok (rule.clauses, .between (headerBytes rule ++ rule.clauses.flatMap clauseBytes ++
        (rule.clauses.flatMap Clause.commands).flatMap commandBytes) []) := mapM_finish rule.clauses
  rw [List.append_nil, List.append_assoc] at clauses
  rw [readRule, layout, headerBytes, List.cons_append, List.cons_append, List.nil_append,
    reading_bind (readWord_high .trigger trigger _), reading_bind (readField_low _ packable.arg),
    reading_bind (readWord_high .symmetry symmetry _), reading_bind (readField_low _ (by omega)), count]
  rw [headerBytes] at heads clauses
  rw [List.nil_append, List.singleton_append, reading_bind heads, List.nil_append, reading_bind clauses]
  rfl

/-- A rule that is laid out in full is read back. -/
theorem decode_layout {rule : Rule} {kinds : Kinds} (packable : Packable rule kinds) :
    decode (layout rule) kinds = .ok rule := by
  have read := readRule_layout packable
  rw [decode, StateT.run, Tape.ofBytes_eq_between, read, ok_bind]
  simp [Tape.exhausted_between, pure, Except.pure]

theorem clauseLength_of_size {δ : Type} [Packed δ] {rule : Rule δ} {kinds : Kinds} {n : Nat} (sized : size rule kinds = .ok n)
    (some_busy : rule.busy ≠ []) : ∃ length, clauseLength kinds = .ok length := by
  obtain ⟨c, rest, busy⟩ := List.exists_cons_of_ne_nil some_busy
  obtain ⟨lengths, counted, _⟩ := bind_eq_ok.mp sized
  obtain ⟨_, full⟩ := mem_mapM_eq_ok counted c (by rw [busy]; exact List.mem_cons_self)
  obtain ⟨length, plain, _⟩ := bind_eq_ok.mp full
  exact ⟨length, plain⟩

/-- The record of a rule decodes to the rule without its idle clauses, which are never checked. The record has
    the announced size, and is written unless no buffer can be as long. -/
theorem decode_encode {rule : Rule} {kinds : Kinds} {n : Nat} (sized : size rule kinds = .ok n)
    (arg : rule.arg.toNat < 16) (few : rule.busy.length ≤ Rule.maxClauses)
    (inside : ∀ c ∈ rule.busy, c.cell.inWindow) (distinct : (rule.busy.map (·.cell)).Nodup)
    (fits : ∀ c ∈ rule.busy, c.fits kinds) (commands : ∀ c ∈ rule.busy, c.commands.length ≤ Clause.maxCommands) :
    ∃ bytes, bytes.length = n ∧ decode bytes kinds = .ok { rule with clauses := rule.busy } ∧
      encode rule kinds = if n < Word.full.reach then .ok bytes else .error .bufferTooLong := by
  have checked : ∀ c ∈ rule.busy, checkClause kinds c = .ok () := by
    intro c member
    exact checkClause_eq_ok_iff.mpr ⟨inside c member, fits c member, commands c member⟩
  obtain ⟨length, room⟩ := size_eq_ok sized rule.sized fits
  have counted : rule.busy ≠ [] → kinds.backgrounds + 3 < Word.full.size ∧ kinds.sprites + 3 < Word.full.size := by
    intro some_busy
    obtain ⟨_, plain⟩ := clauseLength_of_size sized some_busy
    exact (clauseLength_eq_ok plain).1
  have packable : Packable rule.stripped kinds := ⟨arg, few, checked, distinct, counted, length ▸ room⟩
  exact ⟨layout rule.stripped, length.symm, decode_layout packable, encode_eq few sized rule.sized checked⟩

/-- A rule that stops every sprite of the only kind, and a clause that asks for nothing. -/
def halt : Rule where
  trigger := .change
  arg := 0
  clauses := [
    { cell := ⟨2, 1⟩
      backgrounds := ⟨1, [0], rfl, by rintro _ b ⟨⟩; decide⟩
      sprites := ⟨1, [0], rfl, by rintro _ b ⟨⟩; decide⟩
      facing := .moving
      commands := [] },
    { cell := .centre
      backgrounds := ⟨1, [0], rfl, by rintro _ b ⟨⟩; decide⟩
      sprites := ⟨1, [1], rfl, by rintro _ b ⟨⟩; decide⟩
      facing := .any
      commands := [.move .stop] }]
  symmetry := .turns

theorem decode_encode_halt : ∃ bytes, encode halt ⟨1, 1⟩ = .ok bytes ∧
    decode bytes ⟨1, 1⟩ = .ok { halt with clauses := halt.clauses.drop 1 } := by
  obtain ⟨bytes, _, decoded, encoded⟩ := @decode_encode halt ⟨1, 1⟩ 8 rfl (by decide) (by decide) (by decide)
    (by decide) (by decide) (by decide)
  exact ⟨bytes, encoded, decoded⟩

end Record
end Playfield
