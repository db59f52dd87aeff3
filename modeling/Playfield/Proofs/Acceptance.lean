import Mathlib.Data.List.Forall2
import Playfield.Proofs.Grammar
import Playfield.Proofs.Sheets

/-!
# What is accepted as a record

A row of bytes is decoded exactly if it is a sheet, and then to the rule of the sheet; every other row is
refused and none leads to a fault. The rule keeps all limits of the format, and its record is the tidy sheet.
-/
namespace Playfield.Record

variable {kinds : Kinds} {α : Type}

/-! ### Words and demands -/

theorem reads_word [Vocabulary α] (field : RecordField) :
    Reads (readWord field 8 : Reading α) fun a w => w = [code a] := by
  unfold readWord
  refine (Reads.byte.bind (G := fun b a w => b = code a ∧ w = []) ?_).congr fun a w => ?_
  · intro b _ _
    cases known : (ofCode? b : Option α) with
    | none =>
      refine (Reads.refuse _).congr fun a w => ?_
      simp [← ofCode?_eq_some_iff, known]
    | some a =>
      refine (Reads.pure a).congr fun a' w => ?_
      rw [← ofCode?_eq_some_iff, known, Option.some_inj, eq_comm]
  · constructor
    · rintro ⟨_, _, _, rfl, rfl, rfl, rfl⟩
      rfl
    · rintro rfl
      exact ⟨code a, [code a], [], rfl, rfl, rfl, rfl⟩

theorem reads_demands {len : Nat} (counted : len + 3 < Word.full.size) : Reads (readDemands len) fun d w =>
    ∃ sized : w.length = Demands.packedLength len, d = .cleared len w sized := by
  have few : Demands.packedLength len ≤ Word.full.reach := by
    simp only [Word.size, Word.reach, Demands.packedLength] at counted ⊢
    omega
  refine Reads.lift (Demands.checkedLength_eq_ok_iff.mpr ⟨counted, rfl⟩) ?_
  have all : Reads (readBytes (Demands.packedLength len) >>= fun bytes => liftM (Demands.ofBytes bytes len)) fun d w =>
      ∃ bytes u v, w = u ++ v ∧ (u = bytes ∧ u.length = Demands.packedLength len) ∧
        ∃ sized : bytes.length = Demands.packedLength len, d = .cleared len bytes sized ∧ v = [] := by
    refine (Reads.bytes few).bind ?_
    rintro bytes _ ⟨rfl, sized⟩
    rw [Demands.ofBytes_eq counted sized]
    refine (Reads.pure _).congr fun d w => ?_
    simp [sized]
  refine all.congr fun d w => ?_
  constructor
  · rintro ⟨_, _, _, rfl, ⟨rfl, _⟩, sized, rfl, rfl⟩
    simp [sized]
  · rintro ⟨sized, rfl⟩
    exact ⟨w, w, [], by simp, ⟨rfl, sized⟩, sized, rfl, rfl⟩

/-! ### Entries -/

/-- The clause of a front, and the number of commands for which it waits. -/
def Front.head (f : Front kinds) : Head := ⟨f.clause, f.count⟩

theorem reads_cell (before : List Head) : Reads (readCell before) fun c w =>
    (c.inWindow ∧ ∀ h ∈ before, h.clause.cell ≠ c) ∧ w = [Byte.halves c.col c.row] := by
  have next (col row : UInt8) : Reads
      (if !(Cell.mk col row).inWindow then refuse (.cellOutside col row)
        else if before.any fun h => h.clause.cell == Cell.mk col row then refuse (.duplicateClause col row)
        else pure (Cell.mk col row))
      fun c w => ((Cell.mk col row).inWindow ∧ ∀ h ∈ before, h.clause.cell ≠ Cell.mk col row) ∧
        c = Cell.mk col row ∧ w = [] := by
    refine (Reads.guard (Reads.guard (Reads.pure _))).congr fun c w => ?_
    simp [and_assoc]
  have all := Reads.halves some (fun _ => .trailing 0) fun col row _ => next col row
  refine all.congr fun c w => ?_
  constructor
  · rintro ⟨col, row, _, _, _, _, known, rfl, accepted, rfl, rfl⟩
    cases known
    exact ⟨accepted, rfl⟩
  · rintro ⟨accepted, rfl⟩
    obtain ⟨col, row⟩ := Cell.inWindow_iff.mp accepted.1
    exact ⟨c.col, c.row, c.col, [], Nat.lt_trans col (by decide), Nat.lt_trans row (by decide), rfl, rfl, accepted,
      rfl, rfl⟩

/-- The facing and the number of commands share a byte. -/
theorem reads_facing (make : Facing → Nat → α) :
    Reads (readWord .facing 4 >>= fun facing => readCount >>= fun count => pure (make facing count)) fun a w =>
      ∃ facing count, count ≤ Clause.maxCommands ∧ w = [Byte.halves (code facing) (.ofNat count)] ∧
        a = make facing count := by
  have next (facing : Facing) (count : UInt8) : Reads
      ((if Clause.maxCommands < count.toNat then refuse (.invalid .commandCount count) else pure count.toNat) >>=
        fun count => pure (make facing count))
      fun a w => ∃ n, (¬Clause.maxCommands < count.toNat ∧ n = count.toNat ∧ w = []) ∧ a = make facing n :=
    (Reads.guard (Reads.pure _)).map
  have all := Reads.halves ofCode? (.invalid .facing) fun facing count _ => next facing count
  simp only [readWord, readCount, bind_assoc]
  refine all.congr fun a w => ?_
  constructor
  · rintro ⟨high, low, facing, _, _, _, known, rfl, _, ⟨few, rfl, rfl⟩, rfl⟩
    rw [ofCode?_eq_some_iff] at known
    subst known
    exact ⟨facing, low.toNat, Nat.not_lt.mp few, by rw [UInt8.ofNat_toNat], rfl⟩
  · rintro ⟨facing, count, few, rfl, rfl⟩
    have limit : count ≤ 4 := few
    have value : (UInt8.ofNat count).toNat = count := by
      rw [UInt8.toNat_ofNat']
      omega
    exact ⟨code facing, .ofNat count, facing, [], Nat.lt_trans (code_lt facing) (by decide), by omega, ofCode?_code _,
      rfl, count, ⟨by rw [value]; exact Nat.not_lt.mpr few, value.symm, rfl⟩, rfl⟩

theorem reads_head (counted : Clause.checkKinds kinds = .ok ()) (before : List Head) :
    Reads (readHead kinds before) fun h w => ∃ f : Front kinds,
      (∀ earlier ∈ before, earlier.clause.cell ≠ f.cell) ∧ h = f.head ∧ w = f.bytes := by
  obtain ⟨backgrounds, sprites⟩ := Clause.checkKinds_eq_ok_iff.mp counted
  have all := (reads_cell before).bind fun {cell _} _ => (reads_demands backgrounds).bind fun {backgrounds _} _ =>
    (reads_demands sprites).bind fun {sprites _} _ =>
      reads_facing fun facing count => (⟨⟨cell, backgrounds, sprites, facing, []⟩, count⟩ : Head)
  refine all.congr fun h w => ?_
  constructor
  · rintro ⟨cell, _, _, rfl, ⟨⟨inside, new⟩, rfl⟩, _, b, _, rfl, ⟨b_sized, rfl⟩, _, s, _, rfl, ⟨s_sized, rfl⟩,
      facing, count, few, rfl, rfl⟩
    exact ⟨⟨cell, inside, b, b_sized, s, s_sized, facing, count, few⟩, new, rfl, rfl⟩
  · rintro ⟨f, new, rfl, rfl⟩
    exact ⟨f.cell, _, _, rfl, ⟨⟨f.inside, new⟩, rfl⟩, _, f.backgrounds, _, rfl, ⟨f.backgrounds_sized, rfl⟩, _,
      f.sprites, _, rfl, ⟨f.sprites_sized, rfl⟩, f.facing, f.count, f.few, rfl, rfl⟩

theorem reads_heads (counted : Clause.checkKinds kinds = .ok ()) (n : Nat) (before : List Head) :
    Reads (readHeads kinds n before) fun heads w => ∃ fronts : List (Front kinds), fronts.length = n ∧
      (fronts.map (·.cell)).Nodup ∧ (∀ f ∈ fronts, ∀ earlier ∈ before, earlier.clause.cell ≠ f.cell) ∧
      heads = before ++ fronts.map Front.head ∧ w = fronts.flatMap Front.bytes := by
  -- The heads that were read before are those from which the cells of all later ones must differ.
  induction n generalizing before with
  | zero =>
    refine (Reads.pure before).congr fun heads w => ?_
    simp [List.length_eq_zero_iff]
  | succ n ih =>
    refine ((reads_head counted before).bind fun _ => ih _).congr fun heads w => ?_
    constructor
    · rintro ⟨_, _, _, rfl, ⟨f, new, rfl, rfl⟩, fronts, rfl, apart, later, rfl, rfl⟩
      refine ⟨f :: fronts, rfl, ?_, ?_, by rw [List.append_assoc]; rfl, rfl⟩
      · refine List.nodup_cons.mpr ⟨?_, apart⟩
        intro again
        obtain ⟨g, member, same⟩ := List.mem_map.mp again
        exact later g member f.head (List.mem_append_right _ (List.mem_singleton_self _)) same.symm
      · refine List.forall_mem_cons.mpr ⟨new, fun g member earlier known => ?_⟩
        exact later g member earlier (List.mem_append_left _ known)
    · rintro ⟨fronts, length, apart, later, rfl, rfl⟩
      obtain ⟨f, fronts, rfl⟩ := List.exists_cons_of_length_eq_add_one length
      obtain ⟨new, apart⟩ := List.nodup_cons.mp apart
      obtain ⟨fresh, later⟩ := List.forall_mem_cons.mp later
      refine ⟨f.head, _, _, rfl, ⟨f, fresh, rfl, rfl⟩, fronts, Nat.succ.inj length, apart, ?_, ?_, rfl⟩
      · intro g member earlier known
        rcases List.mem_append.mp known with known | only
        · exact later g member earlier known
        · rw [List.mem_singleton.mp only]
          exact fun same => new (List.mem_map.mpr ⟨g, member, same.symm⟩)
      · rw [List.append_assoc]
        rfl

/-! ### Commands -/

theorem reads_commands (n : Nat) : Reads (readCommands n) fun commands w =>
    commands.length = n ∧ w = commands.flatMap commandBytes := by
  induction n with
  | zero =>
    refine (Reads.pure []).congr fun commands w => ?_
    constructor
    · rintro ⟨rfl, rfl⟩
      exact ⟨rfl, rfl⟩
    · rintro ⟨none, rfl⟩
      cases List.length_eq_zero_iff.mp none
      exact ⟨rfl, rfl⟩
  | succ n ih =>
    have inst : Reads (readWord .instruction 8 : Reading Instruction) fun inst w => w = [code inst] := reads_word _
    have all := inst.bind fun {inst _} _ => Reads.byte.bind fun {arg _} _ =>
      ih.map (f := fun rest => Command.mk inst arg :: rest)
    refine all.congr fun commands w => ?_
    constructor
    · rintro ⟨inst, _, _, rfl, rfl, arg, _, _, rfl, rfl, rest, ⟨rfl, rfl⟩, rfl⟩
      exact ⟨rfl, rfl⟩
    · rintro ⟨length, rfl⟩
      obtain ⟨k, rest, rfl⟩ := List.exists_cons_of_length_eq_add_one length
      rw [List.flatMap_cons]
      exact ⟨k.inst, [code k.inst], _, rfl, rfl, k.arg, [k.arg], _, rfl, rfl, rest, ⟨Nat.succ.inj length, rfl⟩, rfl⟩

/-- The clause has the commands for which the head waits. -/
def Head.Awaits (h : Head) (c : Clause) : Prop :=
  c.commands.length = h.count ∧ c = { h.clause with commands := c.commands }

theorem reads_finish (h : Head) : Reads (finish h) fun c w => h.Awaits c ∧ w = c.commands.flatMap commandBytes := by
  refine (reads_commands h.count).map.congr fun c w => ?_
  constructor
  · rintro ⟨commands, ⟨announced, rfl⟩, rfl⟩
    exact ⟨⟨announced, rfl⟩, rfl⟩
  · rintro ⟨⟨announced, same⟩, rfl⟩
    exact ⟨c.commands, ⟨announced, rfl⟩, same⟩

theorem reads_clauses (heads : List Head) : Reads (heads.mapM finish) fun clauses w =>
    List.Forall₂ Head.Awaits heads clauses ∧ w = clauses.flatMap fun c => c.commands.flatMap commandBytes := by
  induction heads with
  | nil =>
    refine (Reads.pure []).congr fun clauses w => ?_
    rw [List.forall₂_nil_left_iff]
    constructor
    · rintro ⟨rfl, rfl⟩
      exact ⟨rfl, rfl⟩
    · rintro ⟨rfl, rfl⟩
      exact ⟨rfl, rfl⟩
  | cons h rest ih =>
    rw [List.mapM_cons]
    refine ((reads_finish h).bind fun _ => ih.map).congr fun clauses w => ?_
    constructor
    · rintro ⟨c, _, _, rfl, ⟨own, rfl⟩, others, ⟨all, rfl⟩, rfl⟩
      exact ⟨.cons own all, rfl⟩
    · rintro ⟨all, rfl⟩
      obtain ⟨c, others, own, each, rfl⟩ := List.forall₂_cons_left_iff.mp all
      exact ⟨c, _, _, rfl, ⟨own, rfl⟩, others, ⟨each, rfl⟩, rfl⟩

/-- Heads that have their commands are entries. -/
theorem forall₂_awaits_iff {fronts : List (Front kinds)} {clauses : List Clause} :
    List.Forall₂ Head.Awaits (fronts.map Front.head) clauses ↔
      ∃ entries : List (Entry kinds), entries.map (·.toFront) = fronts ∧ entries.map Entry.clause = clauses := by
  induction fronts generalizing clauses with
  | nil =>
    rw [List.map_nil, List.forall₂_nil_left_iff]
    constructor
    · rintro rfl
      exact ⟨[], rfl, rfl⟩
    · rintro ⟨entries, none, rfl⟩
      rw [List.map_eq_nil_iff.mp none, List.map_nil]
  | cons f rest ih =>
    rw [List.map_cons, List.forall₂_cons_left_iff]
    constructor
    · rintro ⟨c, others, ⟨announced, same⟩, all, rfl⟩
      obtain ⟨entries, rfl, rfl⟩ := ih.mp all
      exact ⟨⟨f, c.commands, announced⟩ :: entries, rfl, congrArg (· :: _) same.symm⟩
    · rintro ⟨entries, fronts, rfl⟩
      obtain ⟨e, entries, rfl, rfl, rfl⟩ := List.map_eq_cons_iff.mp fronts
      exact ⟨e.clause, _, ⟨e.announced, rfl⟩, ih.mpr ⟨entries, rfl, rfl⟩, rfl⟩

/-! ### Rules -/

/-- What is read as a rule is a sheet. -/
theorem reads_rule (counted : Clause.checkKinds kinds = .ok ()) :
    Reads (readRule kinds) fun r w => ∃ s : Sheet kinds, s.rule = r ∧ s.bytes = w := by
  have body (trigger : Trigger) (arg : UInt8) (symmetry : Symmetry) (count : UInt8) :=
    (reads_heads counted count.toNat []).bind fun {heads _} _ =>
      (reads_clauses heads).map (f := fun clauses => Rule.mk trigger arg clauses symmetry)
  have all := Reads.halves ofCode? (.invalid .trigger) fun trigger arg _ =>
    Reads.halves ofCode? (.invalid .symmetry) fun symmetry count _ => body trigger arg symmetry count
  simp only [readRule, readWord, bind_assoc]
  refine all.congr fun r w => ?_
  constructor
  · rintro ⟨_, arg, trigger, _, _, arg_lt, trigger_known, rfl, _, count, symmetry, _, _, count_lt, symmetry_known, rfl,
      _, _, _, rfl, ⟨fronts, length, apart, _, rfl, rfl⟩, clauses, ⟨finished, rfl⟩, rfl⟩
    rw [ofCode?_eq_some_iff] at trigger_known symmetry_known
    subst trigger_known symmetry_known
    obtain ⟨entries, rfl, rfl⟩ := forall₂_awaits_iff.mp finished
    rw [List.length_map] at length
    rw [List.map_map] at apart
    have few : entries.length ≤ Rule.maxClauses := by
      show _ ≤ 15
      omega
    have value : UInt8.ofNat entries.length = count := by rw [length, UInt8.ofNat_toNat]
    refine ⟨⟨trigger, arg, arg_lt, symmetry, entries, few, apart⟩, rfl, ?_⟩
    rw [← value, List.flatMap_map, List.flatMap_map]
    rfl
  · rintro ⟨s, rfl, rfl⟩
    have few : s.entries.length ≤ 15 := s.few
    have value : (UInt8.ofNat s.entries.length).toNat = s.entries.length := by
      rw [UInt8.toNat_ofNat']
      omega
    refine ⟨code s.trigger, s.arg, s.trigger, _, Nat.lt_trans (code_lt s.trigger) (by decide), s.arg_lt, ofCode?_code _,
      rfl, code s.symmetry, .ofNat s.entries.length, s.symmetry, _, Nat.lt_trans (code_lt s.symmetry) (by decide),
      by omega, ofCode?_code _, rfl, _, _, _, rfl,
      ⟨s.entries.map (·.toFront), ?_, ?_, by simp, rfl, ?_⟩, s.entries.map Entry.clause, ⟨?_, ?_⟩, rfl⟩
    · rw [List.length_map, value]
    · rw [List.map_map]
      exact s.distinct
    · rw [List.flatMap_map]
    · exact forall₂_awaits_iff.mpr ⟨s.entries, rfl, rfl⟩
    · rw [List.flatMap_map]
      rfl

/-- A row of bytes that is no longer than a buffer may be is decoded to a rule exactly if it is a sheet of the rule. -/
theorem decode_eq_ok_iff (counted : Clause.checkKinds kinds = .ok ()) {bytes : List UInt8}
    (room : bytes.length < Word.full.reach) {r : Rule} :
    decode bytes kinds = .ok r ↔ ∃ s : Sheet kinds, s.bytes = bytes ∧ s.rule = r := by
  have room' : ([] : List UInt8).length + bytes.length < Word.full.reach := by simpa using room
  rw [decode, StateT.run, Tape.ofBytes_eq_between, bind_eq_ok, Prod.exists]
  constructor
  · rintro ⟨r', t, read, rest⟩
    obtain ⟨w, rest', rfl, ⟨s, rfl, rfl⟩, rfl⟩ := ((reads_rule counted).eq_ok_iff room').mp read
    dsimp only at rest
    rw [Tape.exhausted_between] at rest
    split at rest
    · rename_i ended
      cases rest
      rw [List.isEmpty_iff.mp ended, List.append_nil]
      exact ⟨s, rfl, rfl⟩
    · cases rest
  · rintro ⟨s, rfl, rfl⟩
    refine ⟨s.rule, _, ((reads_rule counted).eq_ok_iff room').mpr ⟨s.bytes, [], by simp, ⟨s, rfl, rfl⟩, rfl⟩, ?_⟩
    simp [Tape.exhausted_between, pure, Except.pure]

theorem decode_faultless (counted : Clause.checkKinds kinds = .ok ()) {bytes : List UInt8}
    (room : bytes.length < Word.full.reach) (cause : Fault) : decode bytes kinds ≠ .error (.fault cause) := by
  have room' : ([] : List UInt8).length + bytes.length < Word.full.reach := by simpa using room
  have faultless := (reads_rule counted).faultless room' cause
  rw [decode, StateT.run, Tape.ofBytes_eq_between]
  cases ran : readRule kinds (.between [] bytes) with
  | error other =>
    rintro ⟨⟩
    exact faultless ran
  | ok read =>
    rw [ok_bind]
    dsimp only
    split
    · rintro ⟨⟩
    · rintro ⟨⟩

/-! ### Kinds that cannot be counted -/

theorem counted_of_readDemands {len : Nat} {t : Tape} {r : Demands × Tape} (read : readDemands len t = .ok r) :
    len + 3 < Word.full.size := by
  obtain ⟨_, _, counted, _⟩ := reading_bind_eq_ok.mp read
  cases length : Demands.checkedLength len with
  | error cause =>
    rw [length] at counted
    cases counted
  | ok n => exact (Demands.checkedLength_eq_ok_iff.mp length).1

theorem counted_of_readHead {before : List Head} {t : Tape} {r : Head × Tape} (read : readHead kinds before t = .ok r) :
    Clause.checkKinds kinds = .ok () := by
  obtain ⟨_, _, _, read⟩ := reading_bind_eq_ok.mp read
  obtain ⟨_, _, backgrounds, read⟩ := reading_bind_eq_ok.mp read
  obtain ⟨_, _, sprites, _⟩ := reading_bind_eq_ok.mp read
  exact Clause.checkKinds_eq_ok_iff.mpr ⟨counted_of_readDemands backgrounds, counted_of_readDemands sprites⟩

/-- Only rules without clauses are decoded for kind counts of which the bytes cannot be counted. -/
theorem counted_of_decode {bytes : List UInt8} {r : Rule} (decoded : decode bytes kinds = .ok r)
    (some_clause : r.clauses ≠ []) : Clause.checkKinds kinds = .ok () := by
  obtain ⟨⟨rule, _⟩, read, ended⟩ := bind_eq_ok.mp decoded
  obtain ⟨_, _, _, read⟩ := reading_bind_eq_ok.mp read
  obtain ⟨_, _, _, read⟩ := reading_bind_eq_ok.mp read
  obtain ⟨_, _, _, read⟩ := reading_bind_eq_ok.mp read
  obtain ⟨count, _, _, read⟩ := reading_bind_eq_ok.mp read
  obtain ⟨heads, _, first, read⟩ := reading_bind_eq_ok.mp read
  obtain ⟨clauses, _, second, read⟩ := reading_bind_eq_ok.mp read
  cases read
  match number : count.toNat with
  | 0 =>
    rw [number] at first
    cases first
    cases second
    dsimp only at ended
    split at ended
    · cases ended
      exact absurd rfl some_clause
    · cases ended
  | n + 1 =>
    rw [number] at first
    obtain ⟨_, _, head, _⟩ := reading_bind_eq_ok.mp first
    exact counted_of_readHead head

/-- A decoded rule keeps all limits. -/
theorem limited_of_decode {bytes : List UInt8} {r : Rule} (room : bytes.length < Word.full.reach)
    (decoded : decode bytes kinds = .ok r) : r.Limited kinds := by
  by_cases counted : Clause.checkKinds kinds = .ok ()
  · obtain ⟨s, _, rfl⟩ := (decode_eq_ok_iff counted room).mp decoded
    exact s.limited_rule
  · have none : r.clauses = [] := by
      by_contra some_clause
      exact counted (counted_of_decode decoded some_clause)
    constructor <;> simp [none]

/-! ### Acceptance -/

/-- For kind counts of which the bytes can be counted and a row of bytes no longer than a buffer may be, decoding does
    not fault, and it comes to a rule exactly if the bytes are a sheet of the rule. The rule then keeps all limits,
    and is packed to the tidy sheet; that is the same row of bytes exactly if no entry is idle and all bits past the
    last kinds are clear. -/
theorem decode_accepts (counted : Clause.checkKinds kinds = .ok ()) {bytes : List UInt8}
    (room : bytes.length < Word.full.reach) :
    (∀ cause, decode bytes kinds ≠ .error (.fault cause)) ∧
    (∀ r, decode bytes kinds = .ok r ↔ ∃ s : Sheet kinds, s.bytes = bytes ∧ s.rule = r) ∧
    (∀ r, decode bytes kinds = .ok r → r.Limited kinds ∧ r.arg.toNat < 16) ∧
    ∀ s : Sheet kinds, s.bytes = bytes → encode s.rule kinds = .ok s.tidy.bytes ∧
      (encode s.rule kinds = .ok bytes ↔ ∀ e ∈ s.entries, ¬e.Idle ∧ e.Padded) := by
  have accepted (r : Rule) := decode_eq_ok_iff (r := r) counted room
  refine ⟨decode_faultless counted room, accepted, ?_, ?_⟩
  · intro r decoded
    obtain ⟨s, _, rfl⟩ := (accepted r).mp decoded
    exact ⟨s.limited_rule, s.arg_lt⟩
  · rintro s rfl
    have short : (layout s.rule.stripped).length < Word.full.reach := by
      rw [s.layout_rule]
      exact Nat.lt_of_le_of_lt s.length_bytes_tidy room
    have packed := s.limited_rule.encode_eq (fun _ => counted) short
    rw [s.layout_rule] at packed
    refine ⟨packed, ?_⟩
    rw [packed, Except.ok.injEq]
    exact s.bytes_tidy_eq_iff

/-- A sheet with an idle entry, and with set bits past the only background and the only sprite. -/
def untidy : Sheet ⟨1, 1⟩ where
  trigger := .change
  arg := 5
  arg_lt := by decide
  symmetry := .turns
  entries := [
    { cell := ⟨2, 1⟩
      inside := by decide
      backgrounds := [4]
      backgrounds_sized := rfl
      sprites := [16]
      sprites_sized := rfl
      facing := .moving
      count := 0
      few := by decide
      commands := []
      announced := rfl },
    { cell := .centre
      inside := by decide
      backgrounds := [8]
      backgrounds_sized := rfl
      sprites := [17]
      sprites_sized := rfl
      facing := .any
      count := 1
      few := by decide
      commands := [.move .stop]
      announced := rfl }]
  few := by decide
  distinct := by decide

theorem decode_untidy : decode untidy.bytes ⟨1, 1⟩ = .ok untidy.rule ∧
    encode untidy.rule ⟨1, 1⟩ = .ok untidy.tidy.bytes ∧ encode untidy.rule ⟨1, 1⟩ ≠ .ok untidy.bytes := by
  obtain ⟨_, accepted, _, packed⟩ := @decode_accepts ⟨1, 1⟩ rfl untidy.bytes (by decide)
  obtain ⟨tidy, same⟩ := packed untidy rfl
  refine ⟨(accepted _).mpr ⟨untidy, rfl, rfl⟩, tidy, fun packed => ?_⟩
  exact (same.mp packed _ List.mem_cons_self).1 (by decide)

end Playfield.Record
