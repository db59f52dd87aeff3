import Playfield.Proofs.RoundTrip

/-!
# Readings and forms

A form says which bytes stand for a value. A reading keeps to a form if, between two bytes of any tape, it
takes in exactly the bytes of the form, refuses all others and never faults. Readings that keep to forms
are put together to readings that keep to longer forms, so that what a reader accepts can be told without
looking at tapes.
-/
namespace Playfield

namespace Byte

/-- A byte is made of its halves. -/
theorem halves_field (b : UInt8) : halves (field b 4 4) (field b 0 4) = b := by
  have small := b.toNat_lt
  apply UInt8.toNat_inj.mp
  rw [toNat_halves, toNat_field_high, toNat_field_low]
  omega

theorem toNat_field_high_lt (b : UInt8) : (field b 4 4).toNat < 16 := by
  have small := b.toNat_lt
  rw [toNat_field_high]
  omega

theorem toNat_field_low_lt (b : UInt8) : (field b 0 4).toNat < 16 := by
  rw [toNat_field_low]
  exact Nat.mod_lt _ (by decide)

end Byte

namespace Record

variable {α β γ : Type} {before after : List UInt8}

/-- The bytes that stand for values. -/
abbrev Form (α : Type) := α → List UInt8 → Prop

/-- Between two bytes of a tape that is no longer than a buffer may be, the reading takes in the bytes of the
    form. -/
structure Reads (x : Reading α) (form : Form α) : Prop where
  faultless : ∀ {before after}, before.length + after.length < Word.full.reach →
    ∀ cause, x (.between before after) ≠ .error (.fault cause)
  eq_ok_iff : ∀ {before after}, before.length + after.length < Word.full.reach → ∀ {a t},
    x (.between before after) = .ok (a, t) ↔
      ∃ w rest, after = w ++ rest ∧ form a w ∧ t = .between (before ++ w) rest

theorem reading_bind_eq_ok {x : Reading α} {f : α → Reading β} {t : Tape} {r : β × Tape} :
    (x >>= f) t = .ok r ↔ ∃ a u, x t = .ok (a, u) ∧ f a u = .ok r := by
  show (x t >>= fun s => f s.1 s.2) = .ok r ↔ _
  rw [bind_eq_ok, Prod.exists]

theorem reading_bind_error {x : Reading α} {f : α → Reading β} {t : Tape} {cause : Failure RecordError}
    (first : x t = .error cause) : (x >>= f) t = .error cause := by
  show (x t >>= fun s => f s.1 s.2) = .error cause
  rw [first]
  rfl

/-- At its end a tape is refused. -/
theorem readField_end {width : Nat} (positive : 1 ≤ width) (small : width ≤ 8) :
    readField width (.between before []) = .error (.refused (.truncated before.length)) := by
  rw [readField, Tape.readField, Tape.below_between positive small, Tape.byteOffset_between]
  simp [Tape.between, throw, throwThe, MonadExceptOf.throw]

theorem readBytes_enough {count : Nat} (room : before.length + after.length < Word.full.reach)
    (enough : count ≤ after.length) : readBytes count (.between before after) =
      .ok (after.take count, .between (before ++ after.take count) (after.drop count)) := by
  have length : (after.take count).length = count := List.length_take_of_le enough
  have fits : before.length + (after.take count).length < Word.full.size := by
    rw [length]
    simp only [Word.reach, Word.size] at room ⊢
    omega
  have parts : after = after.take count ++ after.drop count := (List.take_append_drop ..).symm
  have read : readBytes (after.take count).length (.between before (after.take count ++ after.drop count)) = _ :=
    Tape.readBytes_between fits
  rwa [← parts, length] at read

-- Neither the tape nor the bytes asked for reach past half the numbers of a word, so their sum fits the word.
theorem readBytes_short {count : Nat} (few : count ≤ Word.full.reach)
    (room : before.length + after.length < Word.full.reach) (short : after.length < count) :
    readBytes count (.between before after) = .error (.refused (.truncated (before.length + after.length))) := by
  have fits : before.length + count < Word.full.size := by
    simp only [Word.reach, Word.size] at few room ⊢
    omega
  have past : ¬count ≤ after.length := Nat.not_le.mpr short
  rw [readBytes, Tape.readBytes, Tape.aligned_between, Tape.byteOffset_between, unsigned_eq_ok fits]
  simp [Tape.between, past, throw, throwThe, MonadExceptOf.throw]

namespace Reads

variable {x : Reading α} {F : Form α}

theorem congr {G : Form α} (reads : Reads x F) (same : ∀ a w, F a w ↔ G a w) : Reads x G where
  faultless := reads.faultless
  eq_ok_iff room _ _ := by simp only [reads.eq_ok_iff room, same]

theorem pure (a : α) : Reads (Pure.pure a) fun b w => b = a ∧ w = [] where
  faultless _ _ same := by cases same
  eq_ok_iff {before after} _ b t := by
    rw [reading_pure]
    constructor
    · intro same
      cases same
      exact ⟨[], after, rfl, ⟨rfl, rfl⟩, by rw [List.append_nil]⟩
    · rintro ⟨_, rest, rfl, ⟨rfl, rfl⟩, rfl⟩
      rw [List.append_nil]
      rfl

theorem refuse (reason : RecordError) : Reads (Record.refuse reason : Reading α) fun _ _ => False where
  faultless _ _ same := by cases same
  eq_ok_iff _ _ _ := by
    constructor
    · intro same
      cases same
    · rintro ⟨_, _, _, absurd, _⟩
      exact absurd.elim

theorem lift {y : Checked α} {f : α → Reading β} {G : Form β} {a : α} (value : y = .ok a) (next : Reads (f a) G) :
    Reads (liftM y >>= f) G := by
  subst value
  exact next

/-- One reading after another reads one form after another. -/
theorem bind {f : α → Reading β} {G : α → Form β} (first : Reads x F)
    (next : ∀ {a u}, F a u → Reads (f a) (G a)) :
    Reads (x >>= f) fun b w => ∃ a u v, w = u ++ v ∧ F a u ∧ G a b v where
  faultless {before after} room cause failed := by
    cases ran : x (.between before after) with
    | error other =>
      rw [reading_bind_error ran] at failed
      cases failed
      exact first.faultless room cause ran
    | ok r =>
      obtain ⟨a, t⟩ := r
      obtain ⟨u, rest, rfl, found, rfl⟩ := (first.eq_ok_iff room).mp ran
      rw [reading_bind ran] at failed
      refine (next found).faultless ?_ cause failed
      simpa [Nat.add_assoc] using room
  eq_ok_iff {before after} room b t := by
    rw [reading_bind_eq_ok]
    constructor
    · rintro ⟨a, _, ran, later⟩
      obtain ⟨u, rest, rfl, found, rfl⟩ := (first.eq_ok_iff room).mp ran
      have room' : (before ++ u).length + rest.length < Word.full.reach := by simpa [Nat.add_assoc] using room
      obtain ⟨v, end_, rfl, also, rfl⟩ := ((next found).eq_ok_iff room').mp later
      exact ⟨u ++ v, end_, by rw [List.append_assoc], ⟨a, u, v, rfl, found, also⟩, by rw [List.append_assoc]⟩
    · rintro ⟨_, end_, rfl, ⟨a, u, v, rfl, found, also⟩, rfl⟩
      refine ⟨a, .between (before ++ u) (v ++ end_), ?_, ?_⟩
      · exact (first.eq_ok_iff room).mpr ⟨u, v ++ end_, List.append_assoc .., found, rfl⟩
      · refine ((next found).eq_ok_iff ?_).mpr ⟨v, end_, rfl, also, by rw [List.append_assoc]⟩
        simpa [Nat.add_assoc] using room

theorem map {f : α → β} (reads : Reads x F) :
    Reads (x >>= fun a => Pure.pure (f a)) fun b w => ∃ a, F a w ∧ b = f a := by
  refine (reads.bind fun _ => pure (f _)).congr fun b w => ?_
  constructor
  · rintro ⟨a, u, _, rfl, found, rfl, rfl⟩
    exact ⟨a, by rwa [List.append_nil], rfl⟩
  · rintro ⟨a, found, rfl⟩
    exact ⟨a, w, [], (List.append_nil w).symm, found, rfl, rfl⟩

/-- What is refused on a condition is read where the condition fails. -/
theorem guard {c : Prop} [Decidable c] {reason : RecordError} (reads : Reads x F) :
    Reads (if c then Record.refuse reason else x) fun a w => ¬c ∧ F a w := by
  split
  · rename_i holds
    exact (Reads.refuse reason).congr fun a w => by simp [holds]
  · rename_i fails
    exact reads.congr fun a w => by simp [fails]

/-! ### Bytes -/

theorem byte : Reads (readField 8) fun b w => w = [b] where
  faultless {before after} _ cause failed := by
    cases after with
    | nil =>
      rw [readField_end (by decide) (by decide)] at failed
      cases failed
    | cons c rest =>
      rw [readField, Tape.readField_whole] at failed
      cases failed
  eq_ok_iff {before after} _ b t := by
    cases after with
    | nil => simp [readField_end]
    | cons c rest =>
      rw [readField, Tape.readField_whole]
      constructor
      · intro same
        cases same
        exact ⟨_, rest, rfl, rfl, rfl⟩
      · rintro ⟨_, end_, same, rfl, rfl⟩
        cases same
        rfl

/-- The halves of a byte are read one after the other; the first is checked before the second is read. -/
theorem halves (check : UInt8 → Option β) (reason : UInt8 → RecordError) {k : β → UInt8 → Reading α}
    {G : β → UInt8 → Form α} (next : ∀ c low, low.toNat < 16 → Reads (k c low) (G c low)) :
    Reads (readField 4 >>= fun high => (match check high with
        | some c => Pure.pure c
        | none => Record.refuse (reason high)) >>= fun c => readField 4 >>= k c)
      fun a w => ∃ high low c v, high.toNat < 16 ∧ low.toNat < 16 ∧ check high = some c ∧
        w = Byte.halves high low :: v ∧ G c low a v where
  faultless {before after} room cause failed := by
    cases after with
    | nil =>
      rw [reading_bind_error (readField_end (by decide) (by decide))] at failed
      cases failed
    | cons b rest =>
      rw [reading_bind (x := readField 4) Tape.readField_high] at failed
      cases checked : check (Byte.field b 4 4) with
      | none =>
        rw [checked] at failed
        cases failed
      | some c =>
        rw [checked, pure_bind, reading_bind (x := readField 4) Tape.readField_low] at failed
        refine (next c _ (Byte.toNat_field_low_lt b)).faultless ?_ cause failed
        simpa [Nat.add_assoc, Nat.add_comm 1] using room
  eq_ok_iff {before after} room a t := by
    cases after with
    | nil =>
      have ended : readField 4 (.between before []) = _ := readField_end (by decide) (by decide)
      simp [reading_bind_error ended]
    | cons b rest =>
      have room' : (before ++ [b]).length + rest.length < Word.full.reach := by
        simpa [Nat.add_assoc, Nat.add_comm 1] using room
      rw [reading_bind (x := readField 4) Tape.readField_high]
      constructor
      · intro ran
        cases checked : check (Byte.field b 4 4) with
        | none =>
          rw [checked] at ran
          cases ran
        | some c =>
          rw [checked, pure_bind, reading_bind (x := readField 4) Tape.readField_low] at ran
          obtain ⟨v, end_, rfl, found, rfl⟩ := ((next c _ (Byte.toNat_field_low_lt b)).eq_ok_iff room').mp ran
          refine ⟨b :: v, end_, rfl, ⟨_, _, c, v, Byte.toNat_field_high_lt b, Byte.toNat_field_low_lt b, checked, ?_,
            found⟩, ?_⟩
          · rw [Byte.halves_field]
          · rw [List.append_assoc, List.singleton_append]
      · rintro ⟨_, end_, same, ⟨high, low, c, v, high_lt, low_lt, checked, rfl, found⟩, rfl⟩
        cases same
        rw [Byte.field_halves_high high_lt, checked, pure_bind, reading_bind (x := readField 4) Tape.readField_low,
          Byte.field_halves_low high low_lt]
        refine ((next c low low_lt).eq_ok_iff room').mpr ⟨v, end_, rfl, found, ?_⟩
        rw [List.append_assoc, List.singleton_append]

theorem bytes {count : Nat} (few : count ≤ Word.full.reach) :
    Reads (readBytes count) fun b w => w = b ∧ w.length = count where
  faultless {before after} room cause failed := by
    by_cases enough : count ≤ after.length
    · rw [readBytes_enough room enough] at failed
      cases failed
    · rw [readBytes_short few room (Nat.not_le.mp enough)] at failed
      cases failed
  eq_ok_iff {before after} room b t := by
    by_cases enough : count ≤ after.length
    · rw [readBytes_enough room enough]
      constructor
      · intro same
        cases same
        have taken := List.length_take_of_le enough
        exact ⟨after.take count, after.drop count, (List.take_append_drop ..).symm, ⟨rfl, taken⟩, rfl⟩
      · rintro ⟨w, rest, rfl, ⟨rfl, rfl⟩, rfl⟩
        simp
    · rw [readBytes_short few room (Nat.not_le.mp enough)]
      constructor
      · intro same
        cases same
      · rintro ⟨w, rest, rfl, ⟨rfl, rfl⟩, _⟩
        simp at enough

end Reads
end Record
end Playfield
