/-!
# Faults

Two ways for a request to go wrong are kept apart. A `Fault` is a broken contract: an argument
that the caller had promised not to pass, or a number that its machine word cannot hold. A refusal
is an ordinary answer to untrusted data. `Checked` computations can only fault; `Except (Failure ε)`
computations can also refuse with a reason of type `ε`.
-/
namespace Playfield

/-- A broken contract. -/
inductive Fault
  /-- A result does not fit its word. -/
  | overflow
  /-- A transform was applied to a cell outside the window. -/
  | outsideWindow (col row : UInt8)
  /-- A table of demands over `kinds` kinds was built from the wrong number of bytes. -/
  | demandBytes (kinds needed : Nat)
  /-- A field of no bits, or of more than eight. -/
  | fieldWidth (width : Nat)
  /-- A field that crosses from one byte into the next. -/
  | straddlingField (width bit : Nat)
  /-- Whole bytes were read from the middle of a byte. -/
  | unalignedRead (bit : Nat)
  /-- Whole bytes were written into the middle of a byte. -/
  | unalignedWrite (bit : Nat)
  /-- More was written than the buffer of `length` bytes holds. -/
  | writePastEnd (length : Nat)
  /-- A buffer is too long to be had. -/
  | bufferTooLong
  /-- A rule has more clauses than its record can count. -/
  | tooManyClauses (count limit : Nat)
  /-- A clause to be packed lies outside the window. -/
  | clauseOutside (col row : UInt8)
  /-- A clause to be packed is sized for other kind counts. -/
  | clauseMisfit (col row : UInt8) (backgrounds sprites projectBackgrounds projectSprites : Nat)
  /-- A clause to be packed has more commands than its record can count. -/
  | tooManyCommands (col row : UInt8) (count : Nat)
  /-- A record was left partly unwritten. -/
  | unfilledRecord
  /-- A place past the end of a row of `length` bytes was looked up. -/
  | outOfRange (place length : Nat)
  /-- A world without tiles. -/
  | emptyWorld
  /-- A world filled with a background that its kinds do not have. -/
  | unknownFill (kind : Nat)
  deriving DecidableEq, Repr

namespace Fault

/-- What is reported of a fault. -/
def message : Fault → String
  | overflow => "arithmetic overflow"
  | outsideWindow col row => s!"({col},{row}) lies outside the window"
  | demandBytes kinds needed => s!"predicate over {kinds} kinds needs {needed} bytes"
  | fieldWidth width => s!"field width {width} outside 1..=8"
  | straddlingField width bit => s!"{width}-bit field at bit {bit} straddles a byte boundary"
  | unalignedRead bit => s!"raw read at unaligned bit {bit}"
  | unalignedWrite bit => s!"raw write at unaligned bit {bit}"
  | writePastEnd length => s!"write past end of {length}-byte buffer"
  | bufferTooLong => "capacity overflow"
  | tooManyClauses count limit => s!"rule has {count} when-dos, format holds {limit}"
  | clauseOutside col row => s!"when-do at ({col},{row}) outside the window"
  | clauseMisfit col row b s pb ps =>
    s!"when-do at ({col},{row}) sized for {b}/{s} kinds, project has {pb}/{ps}"
  | tooManyCommands col row count => s!"when-do at ({col},{row}) has {count} commands"
  | unfilledRecord => "record not filled"
  | outOfRange place length => s!"index out of bounds: the len is {length} but the index is {place}"
  | emptyWorld => "world must have at least one tile"
  | unknownFill kind => s!"background {kind} out of range"

end Fault

/-- A computation that may fault. -/
abbrev Checked := Except Fault

/-- The machine words in which numbers are kept, of 8, 32 and 64 bits. -/
inductive Word
  | byte | half | full
  deriving DecidableEq, Repr

namespace Word

/-- The number of values of a word. An unsigned word holds the numbers below it. -/
def size : Word → Nat
  | byte => 256
  | half => 4294967296
  | full => 18446744073709551616

/-- Half the number of values of a word. A signed word holds the numbers below it, and their
    negatives, and its own negative. -/
def reach : Word → Nat
  | byte => 128
  | half => 2147483648
  | full => 9223372036854775808

end Word

/-- A natural number in an unsigned word. -/
def unsigned (w : Word) (n : Nat) : Checked Nat :=
  if n < w.size then .ok n else .error .overflow

/-- A whole number in a signed word. -/
def signed (w : Word) (z : Int) : Checked Int :=
  if -(w.reach : Int) ≤ z ∧ z < (w.reach : Int) then .ok z else .error .overflow

theorem unsigned_eq_ok {w : Word} {n : Nat} (fits : n < w.size) : unsigned w n = .ok n := if_pos fits

theorem unsigned_eq_overflow {w : Word} {n : Nat} (large : w.size ≤ n) : unsigned w n = .error .overflow :=
  if_neg (Nat.not_lt.mpr large)

theorem signed_eq_ok {w : Word} {z : Int} (low : -(w.reach : Int) ≤ z) (high : z < (w.reach : Int)) :
    signed w z = .ok z := if_pos ⟨low, high⟩

/-- Why a request on untrusted data was not answered. -/
inductive Failure (ε : Type)
  /-- A contract was broken. -/
  | fault (cause : Fault)
  /-- The data was refused. -/
  | refused (reason : ε)
  deriving DecidableEq, Repr

/-- A request that can only fault, as part of one that can also refuse. -/
def Failure.lift {ε α : Type} : Checked α → Except (Failure ε) α
  | .ok a => .ok a
  | .error cause => .error (.fault cause)

instance {ε : Type} : MonadLift Checked (Except (Failure ε)) := ⟨Failure.lift⟩

end Playfield
