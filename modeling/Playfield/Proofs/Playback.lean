import Playfield.Proofs.RoundTrip

/-!
# Playback

Fields of any widths and runs of whole bytes are written to a tape one after the other, over whatever it holds. Each changes
the bits it takes up and no others, also where it shares a byte with its neighbours. So reading the tape in the same order
and with the same lengths plays back what was written, and ends where the writing did.
-/
namespace Playfield

/-! ### Fields bit by bit -/

theorem Bits.get_succ (n low width : Nat) :
    get n low (width + 1) = get n low width + weight width * get n (low + width) 1 := by
  have double : weight (width + 1) = weight width * weight 1 := weight_add width 1
  rw [get, get, get, double, Nat.mod_mul, Nat.div_div_eq_div_mul, weight_add]

theorem Bits.get_congr {n m low width : Nat} (same : ∀ j < width, get n (low + j) 1 = get m (low + j) 1) :
    get n low width = get m low width := by
  induction width with
  | zero =>
    have one : weight 0 = 1 := rfl
    simp [get, one, Nat.mod_one]
  | succ width ih =>
    rw [get_succ n, get_succ m, ih fun j less => same j (by omega), same width (by omega)]

/-- A field is known by its bits. -/
theorem Byte.field_congr {b c : UInt8} {low width : Nat}
    (same : ∀ j < width, field b (low + j) 1 = field c (low + j) 1) : field b low width = field c low width := by
  refine UInt8.toNat_inj.mp ?_
  rw [toNat_field, toNat_field]
  refine Bits.get_congr fun j less => ?_
  rw [← toNat_field, ← toNat_field, same j less]

namespace Tape

/-! ### Bits of a row of bytes -/

/-- A bit of a row of bytes, counted from the highest bit of the first byte. -/
def bit? (bytes : List UInt8) (i : Nat) : Option UInt8 := bytes[i / 8]?.map fun b => Byte.field b (7 - i % 8) 1

/-- Two rows of bytes have the same bits from one position to another. -/
def AgreeOn (start stop : Nat) (l m : List UInt8) : Prop := ∀ i, start ≤ i → i < stop → bit? l i = bit? m i

variable {l m : List UInt8} {start stop : Nat}

theorem AgreeOn.trans {n : List UInt8} (first : AgreeOn start stop l m) (next : AgreeOn start stop m n) :
    AgreeOn start stop l n := fun i low high => (first i low high).trans (next i low high)

theorem AgreeOn.mono {start' stop' : Nat} (agree : AgreeOn start stop l m) (low : start ≤ start') (high : stop' ≤ stop) :
    AgreeOn start' stop' l m := fun i above below => agree i (by omega) (by omega)

/-- Rows that have the same bits from a position on have the same field there. -/
theorem AgreeOn.field {b c : UInt8} {width : Nat} (agree : AgreeOn start (start + width) l m)
    (inside : start % 8 + width ≤ 8) (found : l[start / 8]? = some b) (also : m[start / 8]? = some c) :
    Byte.field b (8 - start % 8 - width) width = Byte.field c (8 - start % 8 - width) width := by
  refine Byte.field_congr fun j less => ?_
  -- The bits of a field are counted from below, those of a row of bytes from above.
  have here := agree (start + (width - 1 - j)) (by omega) (by omega)
  have byte : (start + (width - 1 - j)) / 8 = start / 8 := by omega
  have place : 7 - (start + (width - 1 - j)) % 8 = 8 - start % 8 - width + j := by omega
  simpa [bit?, byte, place, found, also] using here

theorem AgreeOn.byte {k : Nat} (agree : AgreeOn (8 * k) (8 * k + 8) l m) (inside : k < l.length) (within : k < m.length) :
    l[k]? = m[k]? := by
  have place : 8 * k % 8 = 0 := by omega
  have byte : 8 * k / 8 = k := by omega
  have whole : Byte.field l[k] (8 - 8 * k % 8 - 8) 8 = Byte.field m[k] (8 - 8 * k % 8 - 8) 8 :=
    agree.field (by omega) (by rw [byte, List.getElem?_eq_getElem inside]) (by rw [byte, List.getElem?_eq_getElem within])
  rw [place] at whole
  rw [List.getElem?_eq_getElem inside, List.getElem?_eq_getElem within, ← Byte.field_whole l[k], ← Byte.field_whole m[k]]
  exact congrArg some whole

/-! ### Entries -/

/-- What is written to a tape in one go, or read from it. -/
inductive Entry
  /-- The lowest `width` bits of a value. -/
  | field (value : UInt8) (width : Nat)
  /-- Whole bytes. -/
  | block (bytes : List UInt8)
  deriving DecidableEq, Repr

/-- How much of a tape an entry takes up. -/
inductive Extent
  | field (width : Nat)
  | block (count : Nat)
  deriving DecidableEq, Repr

/-- The tape, if its position can be kept in a full word. -/
def reckoned (t : Tape) : Checked Tape := do
  let _ ← unsigned .full t.bit
  return t

namespace Entry

def extent : Entry → Extent
  | field _ width => .field width
  | block bytes => .block bytes.length

/-- The entry with no more of a value than is written of it. -/
def reduced : Entry → Entry
  | field value width => field (.ofNat (value.toNat % Bits.weight width)) width
  | block bytes => block bytes

/-- The number of bits of an entry. -/
def size : Entry → Nat
  | field _ width => width
  | block bytes => 8 * bytes.length

/-- Writes an entry. -/
def write : Entry → Tape → Checked Tape
  | field value width, t => do (← t.writeField value width).reckoned
  | block bytes, t => do (← t.writeBytes bytes).reckoned

end Entry

/-- Reads an entry. -/
def Extent.read : Extent → Tape → Except (Failure RecordError) (Entry × Tape)
  | field width, t => do
    let (value, u) ← t.readField width
    return (.field value width, ← u.reckoned)
  | block count, t => do
    let (bytes, u) ← t.readBytes count
    return (.block bytes, ← u.reckoned)

/-- Writes entries one after the other. -/
def writeAll (entries : List Entry) (t : Tape) : Checked Tape := entries.foldlM (fun t e => e.write t) t

/-- Reads entries one after the other. -/
def readAll (extents : List Extent) : Record.Reading (List Entry) := extents.mapM Extent.read

/-- A bit is one of those that entries take up when they are written from a position on. -/
def Covers : Nat → List Entry → Nat → Prop
  | _, [], _ => False
  | start, e :: rest, i => (start ≤ i ∧ i < start + e.size) ∨ Covers (start + e.size) rest i

/-! ### One entry -/

theorem reckoned_eq_ok_iff {t u : Tape} : t.reckoned = .ok u ↔ t.bit < Word.full.size ∧ t = u := by
  rw [reckoned, bind_eq_ok]
  constructor
  · rintro ⟨bit, counted, done⟩
    exact ⟨(unsigned_eq_ok_iff.mp counted).1, pure_eq_ok.mp done⟩
  · rintro ⟨counted, rfl⟩
    exact ⟨t.bit, unsigned_eq_ok counted, rfl⟩

theorem below_eq_ok_iff {t : Tape} {width low : Nat} :
    t.below width = .ok low ↔ (1 ≤ width ∧ t.bit % 8 + width ≤ 8) ∧ low = 8 - t.bit % 8 - width := by
  rw [below]
  by_cases known : 1 ≤ width ∧ width ≤ 8
  · rw [if_pos known]
    by_cases inside : t.bit % 8 + width ≤ 8
    · simp [known, inside, eq_comm]
    · simp [inside]
  · have never : ¬(1 ≤ width ∧ t.bit % 8 + width ≤ 8) := by omega
    simp [known, never]

theorem writeField_eq_ok_iff {t u : Tape} {value : UInt8} {width : Nat} : t.writeField value width = .ok u ↔
    (1 ≤ width ∧ t.bit % 8 + width ≤ 8) ∧ t.bit / 8 < t.bytes.length ∧
      u = ⟨t.bytes.modify (t.bit / 8) fun b => Byte.putField b (8 - t.bit % 8 - width) width value, t.bit + width⟩ := by
  rw [writeField, bind_eq_ok]
  constructor
  · rintro ⟨low, fits, done⟩
    obtain ⟨inside, rfl⟩ := below_eq_ok_iff.mp fits
    split at done
    · rename_i room
      exact ⟨inside, room, (pure_eq_ok.mp done).symm⟩
    · cases done
  · rintro ⟨fits, room, rfl⟩
    exact ⟨_, below_eq_ok_iff.mpr ⟨fits, rfl⟩, if_pos room⟩

theorem writeBytes_eq_ok_iff {t u : Tape} {bytes : List UInt8} : t.writeBytes bytes = .ok u ↔
    t.bit % 8 = 0 ∧ t.bit / 8 + bytes.length ≤ t.bytes.length ∧
      u = ⟨t.bytes.take (t.bit / 8) ++ bytes ++ t.bytes.drop (t.bit / 8 + bytes.length), 8 * (t.bit / 8 + bytes.length)⟩ := by
  rw [writeBytes, aligned, byteOffset]
  by_cases boundary : t.bit % 8 = 0
  · by_cases room : t.bit / 8 + bytes.length ≤ t.bytes.length
    · simp [boundary, room, eq_comm]
    · simp [boundary, room]
  · simp [boundary]

/-- What one entry does to a tape: it takes up the bits from the old position to the new one, keeps all others, and can be
    read back from any row of bytes that has these bits. -/
structure Entry.Written (e : Entry) (t u : Tape) : Prop where
  position : u.bit = t.bit + e.size
  length : u.bytes.length = t.bytes.length
  others : ∀ i, i < t.bit ∨ u.bit ≤ i → bit? u.bytes i = bit? t.bytes i
  reads : ∀ bytes, bytes.length = u.bytes.length → AgreeOn t.bit u.bit bytes u.bytes →
    e.extent.read ⟨bytes, t.bit⟩ = .ok (e.reduced, ⟨bytes, u.bit⟩)

theorem written_field {t u : Tape} {value : UInt8} {width : Nat} (written : t.writeField value width = .ok u)
    (counted : u.bit < Word.full.size) : (Entry.field value width).Written t u := by
  obtain ⟨⟨positive, inside⟩, room, rfl⟩ := writeField_eq_ok_iff.mp written
  refine ⟨rfl, List.length_modify .., fun i outside => ?_, fun bytes length agree => ?_⟩
  · dsimp only at outside
    rw [bit?, bit?, List.getElem?_modify]
    by_cases here : t.bit / 8 = i / 8
    · have kept (b : UInt8) : Byte.field (Byte.putField b (8 - t.bit % 8 - width) width value) (7 - i % 8) 1 =
          Byte.field b (7 - i % 8) 1 := Byte.field_putField (by omega) (by omega) b value
      simp [here, Function.comp_def, kept]
    · simp [here]
  · rw [List.length_modify] at length
    have fits : below ⟨bytes, t.bit⟩ width = .ok (8 - t.bit % 8 - width) := below_eq_ok_iff.mpr ⟨⟨positive, inside⟩, rfl⟩
    have found : bytes[t.bit / 8]? = some bytes[t.bit / 8] := List.getElem?_eq_getElem _
    have same := agree.field inside found (by rw [List.getElem?_modify_eq, List.getElem?_eq_getElem room]; rfl)
    have kept : Byte.field bytes[t.bit / 8] (8 - t.bit % 8 - width) width = .ofNat (value.toNat % Bits.weight width) := by
      rw [same, Byte.field, ← Byte.toNat_field, Byte.toNat_field_putField (by omega)]
    have moved : reckoned ⟨bytes, t.bit + width⟩ = .ok ⟨bytes, t.bit + width⟩ := reckoned_eq_ok_iff.mpr ⟨counted, rfl⟩
    simp [Entry.extent, Extent.read, readField, fits, byteOffset, found, kept, moved, Entry.reduced]

/-- A row of bytes with others in place of some. -/
theorem getElem?_splice {α : Type} {l block : List α} {start : Nat} (room : start + block.length ≤ l.length) (k : Nat) :
    (l.take start ++ block ++ l.drop (start + block.length))[k]? =
      if start ≤ k ∧ k < start + block.length then block[k - start]? else l[k]? := by
  have taken : (l.take start).length = start := List.length_take_of_le (by omega)
  by_cases before : k < start
  · have outside : ¬(start ≤ k ∧ k < start + block.length) := by omega
    rw [if_neg outside, List.append_assoc, List.getElem?_append_left (by omega), List.getElem?_take_of_lt before]
  · rw [List.append_assoc, List.getElem?_append_right (by omega), taken]
    by_cases within : k < start + block.length
    · rw [if_pos ⟨by omega, within⟩, List.getElem?_append_left (by omega)]
    · have behind : start + block.length + (k - start - block.length) = k := by omega
      rw [if_neg (by omega), List.getElem?_append_right (by omega), List.getElem?_drop, behind]

theorem written_block {t u : Tape} {block : List UInt8} (written : t.writeBytes block = .ok u)
    (counted : u.bit < Word.full.size) : (Entry.block block).Written t u := by
  obtain ⟨boundary, room, rfl⟩ := writeBytes_eq_ok_iff.mp written
  dsimp only at counted
  have length : (t.bytes.take (t.bit / 8) ++ block ++ t.bytes.drop (t.bit / 8 + block.length)).length = t.bytes.length := by
    simp
    omega
  refine ⟨?_, length, fun i outside => ?_, fun bytes same agree => ?_⟩
  · show 8 * (t.bit / 8 + block.length) = t.bit + 8 * block.length
    omega
  · dsimp only at outside
    rw [bit?, bit?, getElem?_splice room, if_neg (by omega)]
  · dsimp only at same agree
    have read : (bytes.drop (t.bit / 8)).take block.length = block := by
      refine List.ext_getElem? fun k => ?_
      by_cases inside : k < block.length
      · have near : AgreeOn (8 * (t.bit / 8 + k)) (8 * (t.bit / 8 + k) + 8) bytes _ := agree.mono (by omega) (by omega)
        rw [List.getElem?_take_of_lt inside, List.getElem?_drop, near.byte (by omega) (by omega), getElem?_splice room,
          if_pos ⟨by omega, by omega⟩, Nat.add_sub_cancel_left]
      · rw [List.getElem?_take_eq_none (by omega), List.getElem?_eq_none (by omega)]
    have boundary : aligned ⟨bytes, t.bit⟩ = true := by simp [aligned, boundary]
    have few : t.bit / 8 + block.length < Word.full.size := by omega
    have enough : t.bit / 8 + block.length ≤ bytes.length := by omega
    have moved : reckoned ⟨bytes, 8 * (t.bit / 8 + block.length)⟩ = .ok ⟨bytes, 8 * (t.bit / 8 + block.length)⟩ :=
      reckoned_eq_ok_iff.mpr ⟨counted, rfl⟩
    simp [Entry.extent, Extent.read, readBytes, boundary, byteOffset, unsigned_eq_ok few, enough, read, moved, Entry.reduced]

theorem Entry.written {e : Entry} {t u : Tape} (written : e.write t = .ok u) : e.Written t u := by
  cases e with
  | field value width =>
    obtain ⟨v, wrote, moved⟩ := bind_eq_ok.mp written
    obtain ⟨counted, rfl⟩ := reckoned_eq_ok_iff.mp moved
    exact written_field wrote counted
  | block bytes =>
    obtain ⟨v, wrote, moved⟩ := bind_eq_ok.mp written
    obtain ⟨counted, rfl⟩ := reckoned_eq_ok_iff.mp moved
    exact written_block wrote counted

/-! ### Entries one after the other -/

theorem writeAll_cons {e : Entry} {rest : List Entry} {t u : Tape} :
    writeAll (e :: rest) t = .ok u ↔ ∃ v, e.write t = .ok v ∧ writeAll rest v = .ok u := by
  rw [writeAll, List.foldlM_cons, bind_eq_ok]
  rfl

theorem Covers.start_le {entries : List Entry} {start i : Nat} (covered : Covers start entries i) : start ≤ i := by
  induction entries generalizing start with
  | nil => cases covered
  | cons e rest ih =>
    rcases covered with ⟨low, _⟩ | later
    · exact low
    · exact Nat.le_trans (Nat.le_add_right ..) (ih later)

/-- Writing changes only the bits that the entries take up. -/
theorem bit?_writeAll {entries : List Entry} {t u : Tape} (written : writeAll entries t = .ok u) :
    u.bytes.length = t.bytes.length ∧ ∀ i, ¬Covers t.bit entries i → bit? u.bytes i = bit? t.bytes i := by
  induction entries generalizing t with
  | nil =>
    cases pure_eq_ok.mp written
    exact ⟨rfl, fun _ _ => rfl⟩
  | cons e rest ih =>
    obtain ⟨v, first, later⟩ := writeAll_cons.mp written
    have wrote := Entry.written first
    obtain ⟨length, kept⟩ := ih later
    refine ⟨length.trans wrote.length, fun i outside => ?_⟩
    have position := wrote.position
    rw [Covers, not_or, ← position] at outside
    rw [kept i outside.2, wrote.others i (by omega)]

/-- What was written is read from any row of bytes that has the bits in which it was written. -/
theorem readAll_of_writeAll {entries : List Entry} {t u : Tape} (written : writeAll entries t = .ok u) {bytes : List UInt8}
    (length : bytes.length = u.bytes.length) (agree : AgreeOn t.bit u.bit bytes u.bytes) :
    t.bit ≤ u.bit ∧ readAll (entries.map Entry.extent) ⟨bytes, t.bit⟩ = .ok (entries.map Entry.reduced, ⟨bytes, u.bit⟩) := by
  induction entries generalizing t with
  | nil =>
    cases pure_eq_ok.mp written
    exact ⟨Nat.le_refl _, rfl⟩
  | cons e rest ih =>
    obtain ⟨v, first, later⟩ := writeAll_cons.mp written
    have wrote := Entry.written first
    obtain ⟨same, kept⟩ := bit?_writeAll later
    have position := wrote.position
    obtain ⟨forward, others⟩ := ih later (agree.mono (by omega) (Nat.le_refl _))
    -- What is written later lies behind the first entry, so that the bits of that one are still there.
    have still : AgreeOn t.bit v.bit u.bytes v.bytes := fun i _ before =>
      kept i fun covered => absurd covered.start_le (by omega)
    have here : e.extent.read ⟨bytes, t.bit⟩ = .ok (e.reduced, ⟨bytes, v.bit⟩) :=
      wrote.reads bytes (length.trans same) ((agree.mono (Nat.le_refl _) forward).trans still)
    refine ⟨by omega, ?_⟩
    rw [List.map_cons, List.map_cons, readAll, List.mapM_cons, Record.reading_bind here]
    exact Record.reading_bind others

/-! ### Reading in place -/

/-- Work on a tape in place. What has been done to the tape stays done, also if the work fails later on. -/
abbrev Handling := ExceptT (Failure RecordError) (StateM Tape)

namespace Handling

variable {α β : Type}

/-- What the work comes to, and the tape as it leaves it. -/
def perform (h : Handling α) (t : Tape) : Except (Failure RecordError) α × Tape := h.run.run t

/-- A request that looks at nothing but its arguments. -/
def answer (x : Checked α) : Handling α := ExceptT.mk (pure (Failure.lift x))

/-- Moves to a position, which is kept in a full word. -/
def moveTo (bit : Nat) : Handling Unit := do
  let bit ← answer (unsigned .full bit)
  modify fun t => { t with bit := bit }

theorem perform_get_bind (f : Tape → Handling α) (t : Tape) :
    ((get : Handling Tape) >>= f).perform t = (f t).perform t := rfl

theorem perform_answer_bind (x : Checked α) (f : α → Handling β) (t : Tape) : (answer x >>= f).perform t =
    match x with
    | .ok a => (f a).perform t
    | .error cause => (.error (.fault cause), t) := by
  cases x <;> rfl

theorem perform_moveTo (bit : Nat) (a : α) (t : Tape) : (do moveTo bit; return a : Handling α).perform t =
    match reckoned { t with bit := bit } with
    | .ok u => (.ok a, u)
    | .error cause => (.error (.fault cause), t) := by
  rw [moveTo, bind_assoc, perform_answer_bind, reckoned]
  by_cases counted : bit < Word.full.size
  · rw [unsigned_eq_ok counted]
    rfl
  · rw [unsigned_eq_overflow (Nat.not_lt.mp counted)]
    rfl

end Handling

/-- Reads an entry in place. -/
def Extent.play : Extent → Handling Entry
  | field width => do
    let t ← get
    let low ← Handling.answer (t.below width)
    match t.bytes[t.byteOffset]? with
    | none => throw (.refused (.truncated t.byteOffset))
    | some b =>
      Handling.moveTo (t.bit + width)
      return .field (Byte.field b low width) width
  | block count => do
    let t ← get
    if t.aligned then
      let stop ← Handling.answer (unsigned .full (t.byteOffset + count))
      if t.bytes.length < stop then throw (.refused (.truncated t.bytes.length))
      Handling.moveTo (8 * stop)
      return .block ((t.bytes.drop t.byteOffset).take count)
    else throw (.fault (.unalignedRead t.bit))

/-- A reading that fails in place leaves the tape as it was, and any other leaves what it answers with. -/
theorem perform_play (x : Extent) (t : Tape) : x.play.perform t =
    match x.read t with
    | .ok (e, u) => (.ok e, u)
    | .error cause => (.error cause, t) := by
  cases x with
  | field width =>
    rw [Extent.play, Handling.perform_get_bind, Handling.perform_answer_bind, Extent.read, readField]
    cases t.below width with
    | error cause => rfl
    | ok low =>
      cases t.bytes[t.byteOffset]? with
      | none => rfl
      | some b =>
        refine (Handling.perform_moveTo _ _ t).trans ?_
        simp only [lift_ok, ok_bind, pure_bind]
        cases reckoned _ <;> rfl
  | block count =>
    rw [Extent.play, Handling.perform_get_bind, Extent.read, readBytes]
    cases t.aligned with
    | false => rfl
    | true =>
      simp only [↓reduceIte]
      rw [Handling.perform_answer_bind]
      cases unsigned .full (t.byteOffset + count) with
      | error cause => rfl
      | ok stop =>
        by_cases room : t.bytes.length < stop
        · have short : ¬stop ≤ t.bytes.length := by omega
          simp only [lift_ok, ok_bind, room, short, ↓reduceIte]
          rfl
        · have enough : stop ≤ t.bytes.length := by omega
          simp only [lift_ok, ok_bind, room, enough, ↓reduceIte]
          refine (Handling.perform_moveTo _ _ t).trans ?_
          simp only [pure_bind]
          cases reckoned _ <;> rfl

/-- Entries that were written one after the other from the start of a tape are played back: reading as many bits and bytes in the
same order gives each value as far as it was written and each block of bytes as it was, and ends where the writing ended. The
bits that no entry takes up are those that were there before. A reading that fails leaves the tape where it was. -/
theorem played_back {buffer : List UInt8} {entries : List Entry} {t : Tape}
    (written : writeAll entries (ofBytes buffer) = .ok t) :
    readAll (entries.map Entry.extent) (ofBytes t.bytes) = .ok (entries.map Entry.reduced, t) ∧
      (t.bytes.length = buffer.length ∧ ∀ i, ¬Covers 0 entries i → bit? t.bytes i = bit? buffer i) ∧
      ∀ (x : Extent) (u : Tape), x.play.perform u =
        match x.read u with
        | .ok (e, v) => (.ok e, v)
        | .error cause => (.error cause, u) :=
  ⟨(readAll_of_writeAll written rfl fun _ _ _ => rfl).2, bit?_writeAll written, perform_play⟩

/-- Fields of three, five and two bits with a byte between them. -/
def scraps : List Entry := [.field 171 3, .field 1 5, .block [18], .field 6 2]

/-- The entries end within the third byte of four. The rest of it and the fourth stay, and no whole byte can be read there. -/
theorem played_back_scraps : writeAll scraps (ofBytes [255, 170, 85, 15]) = .ok ⟨[97, 18, 149, 15], 18⟩ ∧
    readAll [.field 3, .field 5, .block 1, .field 2] (ofBytes [97, 18, 149, 15]) =
      .ok ([.field 3 3, .field 1 5, .block [18], .field 2 2], ⟨[97, 18, 149, 15], 18⟩) ∧
    bit? [97, 18, 149, 15] 19 = bit? [255, 170, 85, 15] 19 ∧
    (Extent.block 1).play.perform ⟨[97, 18, 149, 15], 18⟩ =
      (.error (.fault (.unalignedRead 18)), ⟨[97, 18, 149, 15], 18⟩) := by
  have written : writeAll scraps (ofBytes [255, 170, 85, 15]) = .ok ⟨[97, 18, 149, 15], 18⟩ := rfl
  obtain ⟨read, ⟨_, kept⟩, failed⟩ := played_back written
  refine ⟨written, read, kept 19 ?_, failed (.block 1) _⟩
  simp [Covers, scraps, Entry.size]

end Tape
end Playfield
