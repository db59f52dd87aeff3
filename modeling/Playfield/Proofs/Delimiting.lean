import Playfield.Proofs.Grammar

/-!
# Where a record ends

A reading goes forward: what it makes of the bytes that it passes does not hang on those behind, and for want of bytes it
is refused just where the tape ends. So the bytes of a record say where it ends. Cut short it is truncated, and with
anything behind it the rest is left over.
-/
namespace Playfield.Record

variable {α β : Type}

/-- How a reading ends on a tape, beside how it ends with more bytes behind the tape. -/
inductive Onward (bytes extra : List UInt8) :
    Except (Failure RecordError) (α × Tape) → Except (Failure RecordError) (α × Tape) → Prop
  /-- The tape is too short. -/
  | short {y : Except (Failure RecordError) (α × Tape)} :
      Onward bytes extra (.error (.refused (.truncated bytes.length))) y
  | failed (cause : Failure RecordError) : Onward bytes extra (.error cause) (.error cause)
  | read (a : α) {bit : Nat} (inside : bit ≤ 8 * bytes.length) :
      Onward bytes extra (.ok (a, ⟨bytes, bit⟩)) (.ok (a, ⟨bytes ++ extra, bit⟩))

/-- A reading that goes forward. -/
def Forward (x : Reading α) : Prop :=
  ∀ (bytes extra : List UInt8) (bit : Nat), bit ≤ 8 * bytes.length →
    Onward bytes extra (x ⟨bytes, bit⟩) (x ⟨bytes ++ extra, bit⟩)

namespace Forward

/-! ### Readings put together -/

theorem pure (a : α) : Forward (Pure.pure a) := fun _ _ _ inside => .read a inside

theorem refuse (reason : RecordError) : Forward (Record.refuse reason : Reading α) := fun _ _ _ _ => .failed _

theorem lift (y : Checked α) : Forward (liftM y : Reading α) := by
  intro bytes extra bit inside
  cases y with
  | error cause => exact .failed _
  | ok a => exact .read a inside

theorem bind {x : Reading α} {f : α → Reading β} (first : Forward x) (next : ∀ a, Forward (f a)) :
    Forward (x >>= f) := by
  intro bytes extra bit inside
  generalize alone : x ⟨bytes, bit⟩ = r, more : x ⟨bytes ++ extra, bit⟩ = s
  have step := first bytes extra bit inside
  rw [alone, more] at step
  cases step with
  | short =>
    rw [reading_bind_error alone]
    exact .short
  | failed cause =>
    rw [reading_bind_error alone, reading_bind_error more]
    exact .failed cause
  | read a inside =>
    rw [reading_bind alone, reading_bind more]
    exact next a bytes extra _ inside

theorem mapM {f : α → Reading β} (each : ∀ a, Forward (f a)) (l : List α) : Forward (l.mapM f) := by
  induction l with
  | nil => exact pure []
  | cons a rest ih =>
    rw [List.mapM_cons]
    exact (each a).bind fun b => ih.bind fun bs => pure (b :: bs)

/-! ### Fields and bytes -/

theorem field (width : Nat) : Forward (readField width) := by
  intro bytes extra bit inside
  have below : (⟨bytes ++ extra, bit⟩ : Tape).below width = (⟨bytes, bit⟩ : Tape).below width := rfl
  simp only [readField, Tape.readField, below, Tape.byteOffset]
  cases fits : (⟨bytes, bit⟩ : Tape).below width with
  | error cause => exact .failed _
  | ok low =>
    have narrow : bit % 8 + width ≤ 8 := by
      simp only [Tape.below] at fits
      split at fits
      · split at fits
        · assumption
        · cases fits
      · cases fits
    simp only [lift_ok, ok_bind]
    by_cases here : bit / 8 < bytes.length
    · rw [List.getElem?_append_left here, List.getElem?_eq_getElem here]
      exact .read _ (by omega)
    · -- The position is not past the end, so it is the end.
      have ended : bit / 8 = bytes.length := by omega
      rw [ended, List.getElem?_eq_none (Nat.le_refl _)]
      exact .short

theorem bytes (count : Nat) : Forward (readBytes count) := by
  intro bytes extra bit inside
  have aligned : (⟨bytes ++ extra, bit⟩ : Tape).aligned = (⟨bytes, bit⟩ : Tape).aligned := rfl
  simp only [readBytes, Tape.readBytes, aligned, Tape.byteOffset]
  by_cases boundary : (⟨bytes, bit⟩ : Tape).aligned
  · rw [if_pos boundary, if_pos boundary]
    cases counted : unsigned .full (bit / 8 + count) with
    | error cause => exact .failed _
    | ok stop =>
      obtain ⟨_, rfl⟩ := unsigned_eq_ok_iff.mp counted
      simp only [lift_ok, ok_bind]
      by_cases enough : bit / 8 + count ≤ bytes.length
      · have taken : ((bytes ++ extra).drop (bit / 8)).take count = (bytes.drop (bit / 8)).take count := by
          rw [List.drop_append_of_le_length (by omega), List.take_append_of_le_length (by simp; omega)]
        have longer : bit / 8 + count ≤ (bytes ++ extra).length := by simp; omega
        rw [if_pos enough, if_pos longer, taken]
        exact .read _ (by omega)
      · rw [if_neg enough]
        exact .short
  · rw [if_neg boundary, if_neg boundary]
    exact .failed _

/-! ### Records -/

theorem word [Vocabulary α] (name : RecordField) (width : Nat) : Forward (readWord name width : Reading α) := by
  refine (field width).bind fun b => ?_
  split
  · exact pure _
  · exact refuse _

theorem demands (len : Nat) : Forward (readDemands len) :=
  (lift _).bind fun n => (bytes n).bind fun b => lift (Demands.ofBytes b len)

theorem cell (before : List Head) : Forward (readCell before) := by
  refine (field 4).bind fun col => (field 4).bind fun row => ?_
  dsimp only
  split
  · exact refuse _
  · split
    · exact refuse _
    · exact pure _

theorem count : Forward readCount := by
  refine (field 4).bind fun n => ?_
  split
  · exact refuse _
  · exact pure _

theorem head (kinds : Kinds) (before : List Head) : Forward (readHead kinds before) :=
  (cell before).bind fun _ => (demands _).bind fun _ => (demands _).bind fun _ => (word .facing 4).bind fun _ =>
    count.bind fun _ => pure _

theorem heads (kinds : Kinds) (n : Nat) (before : List Head) : Forward (readHeads kinds n before) := by
  induction n generalizing before with
  | zero => exact pure before
  | succ n ih => exact (head kinds before).bind fun h => ih (before ++ [h])

theorem commands (n : Nat) : Forward (readCommands n) := by
  induction n with
  | zero => exact pure []
  | succ n ih =>
    exact (word .instruction 8).bind fun inst => (field 8).bind fun arg => ih.bind fun rest => pure (⟨inst, arg⟩ :: rest)

theorem finish (h : Head) : Forward (Record.finish h) := (commands h.count).bind fun _ => pure _

theorem rule (kinds : Kinds) : Forward (readRule kinds) :=
  (word .trigger 4).bind fun _ => (field 4).bind fun _ => (word .symmetry 4).bind fun _ => (field 4).bind fun _ =>
    (heads kinds _ []).bind fun _ => (mapM finish _).bind fun _ => pure _

end Forward

variable {kinds : Kinds} {r : Rule}

/-- A record is read to its last bit. -/
theorem readRule_of_decode {bytes : List UInt8} (decoded : decode bytes kinds = .ok r) :
    ∃ bit, readRule kinds ⟨bytes, 0⟩ = .ok (r, ⟨bytes, bit⟩) ∧ 8 * bytes.length ≤ bit := by
  obtain ⟨⟨rule, t⟩, read, ended⟩ := bind_eq_ok.mp decoded
  have read : readRule kinds ⟨bytes, 0⟩ = .ok (rule, t) := read
  have step := Forward.rule kinds bytes [] 0 (Nat.zero_le _)
  generalize readRule kinds ⟨bytes ++ [], 0⟩ = s at step
  rw [read] at step
  cases step with
  | read _ inside =>
    dsimp only at ended
    split at ended
    · rename_i exhausted
      cases ended
      exact ⟨_, read, by simpa [Tape.exhausted] using exhausted⟩
    · cases ended

/-- A record that is cut short is truncated where it was cut. -/
theorem decode_cut {front rest : List UInt8} (decoded : decode (front ++ rest) kinds = .ok r) (missing : rest ≠ []) :
    decode front kinds = .error (.refused (.truncated front.length)) := by
  obtain ⟨bit, read, far⟩ := readRule_of_decode decoded
  have step := Forward.rule kinds front rest 0 (Nat.zero_le _)
  generalize alone : readRule kinds ⟨front, 0⟩ = s at step
  rw [read] at step
  cases step with
  | short =>
    rw [decode, StateT.run, Tape.ofBytes, alone]
    rfl
  | read _ inside =>
    -- What is read of the part in front ends there, but the record goes on.
    have some_byte := List.length_pos_iff.mpr missing
    rw [List.length_append] at far
    omega

/-- Whatever is put behind a record is left over. -/
theorem decode_continued {bytes extra : List UInt8} (decoded : decode bytes kinds = .ok r) (more : extra ≠ []) :
    decode (bytes ++ extra) kinds = .error (.refused (.trailing extra.length)) := by
  obtain ⟨bit, read, far⟩ := readRule_of_decode decoded
  have step := Forward.rule kinds bytes extra 0 (Nat.zero_le _)
  generalize longer : readRule kinds ⟨bytes ++ extra, 0⟩ = s at step
  rw [read] at step
  cases step with
  | read _ inside =>
    have bit_eq : bit = 8 * bytes.length := by omega
    have some_byte := List.length_pos_iff.mpr more
    have goes_on : ¬8 * (bytes ++ extra).length ≤ bit := by
      rw [List.length_append]
      omega
    have left : (bytes ++ extra).length - (bit + 7) / 8 = extra.length := by
      rw [List.length_append]
      omega
    rw [decode, StateT.run, Tape.ofBytes, longer, ok_bind]
    simp only [Tape.exhausted, goes_on, Tape.remaining, left, decide_false]
    rfl

/-- A record says where it ends. Each shorter row of bytes is truncated at its own length, and each longer one has as many
    bytes too many as it is longer; so no record begins another. -/
theorem decode_delimits {bytes : List UInt8} (decoded : decode bytes kinds = .ok r) :
    (∀ n < bytes.length, decode (bytes.take n) kinds = .error (.refused (.truncated n))) ∧
    (∀ extra ≠ [], decode (bytes ++ extra) kinds = .error (.refused (.trailing extra.length))) ∧
    ∀ other s, decode other kinds = .ok s → bytes <+: other → other = bytes ∧ s = r := by
  refine ⟨?_, fun extra more => decode_continued decoded more, ?_⟩
  · intro n less
    have split : bytes.take n ++ bytes.drop n = bytes := List.take_append_drop ..
    have missing : bytes.drop n ≠ [] := by simpa using less
    rw [← split] at decoded
    have cut := decode_cut decoded missing
    rwa [List.length_take_of_le (Nat.le_of_lt less)] at cut
  · rintro _ s also ⟨extra, rfl⟩
    by_cases more : extra = []
    · rw [more, List.append_nil] at also ⊢
      exact ⟨rfl, Except.ok.inj (also.symm.trans decoded)⟩
    · rw [decode_continued decoded more] at also
      cases also

/-- A record for five kinds of backgrounds and one kind of sprites, cut between two halves of its demands and followed by
    a byte that would be a record's first. -/
theorem decode_delimits_gate : ∃ r, decode [0x12, 0x01, 0x22, 0x41, 0x02, 0x01, 0x61, 0x00, 0x04] ⟨5, 1⟩ = .ok r ∧
    decode [0x12, 0x01, 0x22, 0x41] ⟨5, 1⟩ = .error (.refused (.truncated 4)) ∧
    decode [0x12, 0x01, 0x22, 0x41, 0x02, 0x01, 0x61, 0x00, 0x04, 0x12] ⟨5, 1⟩ = .error (.refused (.trailing 1)) := by
  obtain ⟨r, decoded⟩ : ∃ r, decode [0x12, 0x01, 0x22, 0x41, 0x02, 0x01, 0x61, 0x00, 0x04] ⟨5, 1⟩ = .ok r := ⟨_, rfl⟩
  obtain ⟨cut, continued, _⟩ := decode_delimits decoded
  exact ⟨r, decoded, cut 4 (by decide), continued [0x12] (by decide)⟩

end Playfield.Record
