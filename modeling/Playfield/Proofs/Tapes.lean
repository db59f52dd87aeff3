import Playfield.Record.Tape
import Playfield.Proofs.Checked

/-!
# Transfers to and from tapes

Records are made of whole bytes and of bytes in two halves. Between two bytes, and between the
halves of one, a transfer does the same whatever came before and comes after.
-/
namespace Playfield

namespace Byte

/-- The byte with two numbers in its halves. -/
def halves (high low : UInt8) : UInt8 := putField (putField 0 4 4 high) 0 4 low

theorem toNat_putField_halves (b high low : UInt8) :
    (putField (putField b 4 4 high) 0 4 low).toNat = high.toNat % 16 * 16 + low.toNat % 16 := by
  have small := b.toNat_lt
  have four : Bits.weight 4 = 16 := rfl
  have eight : Bits.weight 8 = 256 := rfl
  have zero : Bits.weight 0 = 1 := rfl
  rw [toNat_putField (by decide), toNat_putField (by decide), Bits.put, Bits.put]
  simp only [Nat.zero_add, Nat.reduceAdd, four, eight, zero]
  omega

/-- Both halves of a byte can be replaced, one after the other. -/
theorem putField_halves (b high low : UInt8) : putField (putField b 4 4 high) 0 4 low = halves high low := by
  apply UInt8.toNat_inj.mp
  rw [halves, toNat_putField_halves, toNat_putField_halves]

theorem toNat_halves (high low : UInt8) : (halves high low).toNat = high.toNat % 16 * 16 + low.toNat % 16 :=
  toNat_putField_halves 0 high low

theorem toNat_field_high (b : UInt8) : (field b 4 4).toNat = b.toNat / 16 := by
  have small := b.toNat_lt
  have four : Bits.weight 4 = 16 := rfl
  rw [toNat_field, Bits.get, four]
  omega

theorem toNat_field_low (b : UInt8) : (field b 0 4).toNat = b.toNat % 16 := by
  have four : Bits.weight 4 = 16 := rfl
  have zero : Bits.weight 0 = 1 := rfl
  rw [toNat_field, Bits.get, four, zero, Nat.div_one]

theorem field_halves_high {high : UInt8} (small : high.toNat < 16) (low : UInt8) :
    field (halves high low) 4 4 = high := by
  apply UInt8.toNat_inj.mp
  rw [toNat_field_high, toNat_halves]
  omega

theorem field_halves_low (high : UInt8) {low : UInt8} (small : low.toNat < 16) :
    field (halves high low) 0 4 = low := by
  apply UInt8.toNat_inj.mp
  rw [toNat_field_low, toNat_halves]
  omega

theorem field_whole (b : UInt8) : field b 0 8 = b := by
  have small := b.toNat_lt
  have eight : Bits.weight 8 = 256 := rfl
  have zero : Bits.weight 0 = 1 := rfl
  apply UInt8.toNat_inj.mp
  rw [toNat_field, Bits.get, eight, zero]
  omega

theorem putField_whole (b value : UInt8) : putField b 0 8 value = value := by
  have small := b.toNat_lt
  have less := value.toNat_lt
  have eight : Bits.weight 8 = 256 := rfl
  have zero : Bits.weight 0 = 1 := rfl
  apply UInt8.toNat_inj.mp
  rw [toNat_putField (by decide), Bits.put]
  simp only [Nat.zero_add, eight, zero]
  omega

end Byte

namespace Tape

/-- A tape at the boundary between two of its bytes. -/
def between (before after : List UInt8) : Tape := ⟨before ++ after, 8 * before.length⟩

/-- A tape in the middle of one of its bytes. -/
def amid (before : List UInt8) (b : UInt8) (after : List UInt8) : Tape :=
  ⟨before ++ b :: after, 8 * before.length + 4⟩

variable {before after : List UInt8} {b : UInt8}

theorem ofBytes_eq_between (bytes : List UInt8) : ofBytes bytes = between [] bytes := rfl

theorem byteOffset_between : (between before after).byteOffset = before.length :=
  Nat.mul_div_cancel_left _ (by decide)

theorem byteOffset_amid : (amid before b after).byteOffset = before.length := by
  show (8 * before.length + 4) / 8 = before.length
  omega

theorem aligned_between : (between before after).aligned = true := by
  simp [aligned, between]

theorem below_between {width : Nat} (positive : 1 ≤ width) (small : width ≤ 8) :
    (between before after).below width = .ok (8 - width) := by
  simp [below, between, positive, small]

theorem below_amid : (amid before b after).below 4 = .ok 0 := by
  have half : (8 * before.length + 4) % 8 = 4 := by omega
  simp [below, amid, half]

theorem exhausted_between : (between before after).exhausted = after.isEmpty := by
  cases after with
  | nil => simp [exhausted, between]
  | cons b rest => simp [exhausted, between]

/-! ### Writing -/

theorem modify_at_length {α : Type} {before after : List α} {b : α} (f : α → α) :
    (before ++ b :: after).modify before.length f = before ++ f b :: after := by
  rw [List.modify_eq_take_cons_drop (by simp)]
  simp

theorem writeField_high (value : UInt8) :
    (between before (b :: after)).writeField value 4 = .ok (amid before (Byte.putField b 4 4 value) after) := by
  rw [writeField, below_between (by decide) (by decide), ok_bind, byteOffset_between]
  simp [between, amid, modify_at_length]

theorem writeField_low (value : UInt8) :
    (amid before b after).writeField value 4 = .ok (between (before ++ [Byte.putField b 0 4 value]) after) := by
  rw [writeField, below_amid, ok_bind, byteOffset_amid]
  simp [between, amid, modify_at_length, Nat.mul_succ]

theorem writeField_whole (value : UInt8) :
    (between before (b :: after)).writeField value 8 = .ok (between (before ++ [value]) after) := by
  rw [writeField, below_between (by decide) (by decide), ok_bind, byteOffset_between]
  simp [between, modify_at_length, Byte.putField_whole, Nat.mul_succ]

theorem writeBytes_between {old bytes : List UInt8} (same : old.length = bytes.length) :
    (between before (old ++ after)).writeBytes bytes = .ok (between (before ++ bytes) after) := by
  rw [writeBytes, aligned_between, byteOffset_between]
  simp [between, same]

/-! ### Reading -/

theorem readField_high : readField 4 (between before (b :: after)) = .ok (Byte.field b 4 4, amid before b after) := by
  rw [readField, below_between (by decide) (by decide), byteOffset_between]
  simp [between, amid]

theorem readField_low :
    readField 4 (amid before b after) = .ok (Byte.field b 0 4, between (before ++ [b]) after) := by
  rw [readField, below_amid, byteOffset_amid]
  simp [between, amid, Nat.mul_succ]

theorem readField_whole : readField 8 (between before (b :: after)) = .ok (b, between (before ++ [b]) after) := by
  rw [readField, below_between (by decide) (by decide), byteOffset_between]
  simp [between, Byte.field_whole, Nat.mul_succ]

theorem readBytes_between {bytes : List UInt8} (room : before.length + bytes.length < Word.full.size) :
    readBytes bytes.length (between before (bytes ++ after)) = .ok (bytes, between (before ++ bytes) after) := by
  rw [readBytes, aligned_between, byteOffset_between, unsigned_eq_ok room]
  simp [between]

end Tape
end Playfield
