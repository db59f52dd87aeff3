import Playfield.Byte
import Playfield.Record.Error

/-!
# Tapes

A tape is a row of bytes with a position counted in bits. Fields of one to eight bits fill each
byte from its highest bit down and never cross into the next byte; whole bytes are transferred only
from one byte boundary to another. A tape that ends too early refuses a read, but faults a write:
what is written goes to a tape of exactly the right length. Whatever fails leaves the tape as it was.
-/
namespace Playfield

/-- A row of bytes and a position on it. -/
structure Tape where
  bytes : List UInt8
  /-- The position, in bits from the start. -/
  bit : Nat
  deriving DecidableEq, Repr

namespace Tape

/-- A tape at its start. -/
def ofBytes (bytes : List UInt8) : Tape := ⟨bytes, 0⟩

/-- A buffer has fewer bytes than half the numbers of a full word. -/
def checkLength (length : Nat) : Checked Unit :=
  if length < Word.full.reach then .ok () else .error .bufferTooLong

/-- A tape of zeros, at its start. -/
def blank (length : Nat) : Tape := ofBytes (List.replicate length 0)

/-- The byte in which the position lies. -/
def byteOffset (t : Tape) : Nat := t.bit / 8

/-- Whether the position is a byte boundary. -/
def aligned (t : Tape) : Bool := t.bit % 8 == 0

/-- Whether no byte is left. -/
def exhausted (t : Tape) : Bool := 8 * t.bytes.length ≤ t.bit

/-- The number of whole bytes after the position. -/
def remaining (t : Tape) : Nat := t.bytes.length - (t.bit + 7) / 8

/-- The number of bits below a field at the position in its byte. -/
def below (t : Tape) (width : Nat) : Checked Nat :=
  if 1 ≤ width ∧ width ≤ 8 then
    if t.bit % 8 + width ≤ 8 then .ok (8 - t.bit % 8 - width) else .error (.straddlingField width t.bit)
  else .error (.fieldWidth width)

/-- Reads a field. -/
def readField (width : Nat) (t : Tape) : Except (Failure RecordError) (UInt8 × Tape) := do
  let low ← t.below width
  match t.bytes[t.byteOffset]? with
  | some b => return (Byte.field b low width, { t with bit := t.bit + width })
  | none => throw (.refused (.truncated t.byteOffset))

/-- Reads whole bytes. -/
def readBytes (count : Nat) (t : Tape) : Except (Failure RecordError) (List UInt8 × Tape) :=
  if t.aligned then do
    let stop ← unsigned .full (t.byteOffset + count)
    if stop ≤ t.bytes.length then return ((t.bytes.drop t.byteOffset).take count, { t with bit := 8 * stop })
    else throw (.refused (.truncated t.bytes.length))
  else throw (.fault (.unalignedRead t.bit))

/-- Writes the lowest `width` bits of a value. -/
def writeField (value : UInt8) (width : Nat) (t : Tape) : Checked Tape := do
  let low ← t.below width
  if t.byteOffset < t.bytes.length then
    return ⟨t.bytes.modify t.byteOffset fun b => Byte.putField b low width value, t.bit + width⟩
  else throw (.writePastEnd t.bytes.length)

/-- Writes whole bytes. -/
def writeBytes (bytes : List UInt8) (t : Tape) : Checked Tape :=
  let stop := t.byteOffset + bytes.length
  if t.aligned then
    if stop ≤ t.bytes.length then
      .ok ⟨t.bytes.take t.byteOffset ++ bytes ++ t.bytes.drop stop, 8 * stop⟩
    else .error (.writePastEnd t.bytes.length)
  else .error (.unalignedWrite t.bit)

end Tape
end Playfield
