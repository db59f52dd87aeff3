import Playfield.Demands

/-!
# Raw demands

A document gives a table of demands as a number of kinds and a row of bytes, and nothing that reads it checks
that these are as many bytes as it takes, or that the bits past the last kind are clear. A rule that was read from a
document therefore holds raw demands. The tables that the library makes itself are well formed. What packs and
matches rules is told for both.
-/
namespace Playfield

/-- A table of demands as it stands in a document. -/
structure RawDemands where
  len : Nat
  bytes : List UInt8
  deriving DecidableEq, Repr

/-- A type of tables of demands, well formed or not. -/
class Packed (δ : Type) where
  /-- The number of kinds of a table. -/
  len : δ → Nat
  /-- The bytes of a table, four demands to a byte. -/
  bytes : δ → List UInt8

instance : Packed Demands := ⟨Demands.len, Demands.bytes⟩

instance : Packed RawDemands := ⟨RawDemands.len, RawDemands.bytes⟩

/-- A table as it would be read back from a document. -/
def Demands.raw (d : Demands) : RawDemands := ⟨d.len, d.bytes⟩

namespace Packed

variable {δ : Type} [Packed δ]

/-- There are as many bytes as it takes. -/
def Sized (d : δ) : Prop := (bytes d).length = Demands.packedLength (len d)

instance (d : δ) : Decidable (Sized d) := inferInstanceAs (Decidable (_ = _))

/-- Whether all bytes are zero. -/
def isVacuous (d : δ) : Bool := (bytes d).all (· == 0)

/-- The demand on a kind; `none` past the last kind. The byte of any other kind must be there. -/
def get (d : δ) (kind : Nat) : Checked (Option Demand) :=
  if kind < len d then
    match (bytes d)[kind / 4]? with
    | some b => return some (Demands.slot b (kind % 4))
    | none => throw (.outOfRange (kind / 4) (bytes d).length)
  else return none

theorem sized (d : Demands) : Sized d := d.sized

@[simp] theorem len_demands (d : Demands) : len d = d.len := rfl

@[simp] theorem bytes_demands (d : Demands) : bytes d = d.bytes := rfl

@[simp] theorem isVacuous_demands (d : Demands) : isVacuous d = d.isVacuous := rfl

end Packed
end Playfield
