import Playfield.Byte
import Playfield.Fault
import Playfield.Vocabulary

/-!
# Demands

A guard makes one demand on each kind of a family. The demands are stored packed, four kinds to a
byte: kind `k` takes the two bits above the lowest `2 * (k % 4)` of byte `k / 4`. The bits past the last
kind are clear, so that tables which make the same demands are equal.
-/
namespace Playfield

/-- What a guard asks of one kind at a tile. -/
inductive Demand
  /-- Nothing is asked. -/
  | free
  /-- The kind is included. -/
  | included
  /-- The kind belongs to the second set of inclusions. -/
  | grouped
  /-- The kind must be absent. -/
  | excluded
  deriving DecidableEq, Repr

namespace Demand

instance : Vocabulary Demand where
  words := [free, included, grouped, excluded]
  code d := .ofNat d.ctorIdx
  name
    | free => "DontCare"
    | included => "Include"
    | grouped => "Include2"
    | excluded => "Exclude"
  words_code d := by cases d <;> rfl
  codes := rfl

/-- The demand coded by the lowest two bits of a number. -/
def ofBits (n : Nat) : Demand :=
  match n % 4 with
  | 0 => free
  | 1 => included
  | 2 => grouped
  | _ => excluded

/-- The word for a demand in the text of a rule. -/
def label : Demand → String
  | free => "ok"
  | included => "include"
  | grouped => "include2"
  | excluded => "exclude"

/-- Whether the demand puts a kind into one of the two sets of inclusions. -/
def includes : Demand → Bool
  | included | grouped => true
  | free | excluded => false

end Demand

/-- The number of bytes that hold the demands on a number of kinds. -/
def Demands.packedLength (kinds : Nat) : Nat := (kinds + 3) / 4

/-- The bits past the last of `len` kinds are clear. -/
def Demands.Padded (len : Nat) (bytes : List UInt8) : Prop :=
  len % 4 ≠ 0 → ∀ b ∈ bytes.getLast?, b.toNat < Bits.weight (2 * (len % 4))

/-- One demand for each of `len` kinds, packed. -/
structure Demands where
  len : Nat
  bytes : List UInt8
  /-- There are as many bytes as it takes. -/
  sized : bytes.length = Demands.packedLength len
  /-- The bits past the last kind are clear. -/
  padded : Demands.Padded len bytes
  deriving DecidableEq, Repr

namespace Demands

@[ext] theorem ext_bytes {d e : Demands} (len : d.len = e.len) (bytes : d.bytes = e.bytes) : d = e := by
  cases d; cases e; cases len; cases bytes; rfl

/-- The number of bytes that hold the demands on a number of kinds, reckoned in 64-bit words. -/
def checkedLength (kinds : Nat) : Checked Nat := return (← unsigned .full (kinds + 3)) / 4

/-! ### Bytes of four demands -/

/-- The demand at place `i` of a byte. -/
def slot (b : UInt8) (i : Nat) : Demand := .ofBits (Byte.field b (2 * i) 2).toNat

/-- The byte with another demand at place `i`. -/
def putSlot (b : UInt8) (i : Nat) (d : Demand) : UInt8 := Byte.putField b (2 * i) 2 (code d)

/-- The byte with only its first `used` demands. -/
def clearFrom (b : UInt8) (used : Nat) : UInt8 := Byte.field b 0 (2 * used)

theorem clearFrom_lt (b : UInt8) (used : Nat) : (clearFrom b used).toNat < Bits.weight (2 * used) := by
  rw [clearFrom, Byte.toNat_field]
  exact Nat.mod_lt _ (Bits.weight_pos _)

theorem slot_putSlot (b : UInt8) {i : Nat} (inside : i < 4) (d : Demand) : slot (putSlot b i d) i = d := by
  rw [slot, putSlot, Byte.toNat_field_putField (by omega)]
  cases d <;> rfl

theorem slot_putSlot_of_ne (b : UInt8) {i j : Nat} (inside : i < 4) (other : j ≠ i) (d : Demand) :
    slot (putSlot b i d) j = slot b j := by
  rw [slot, putSlot, Byte.field_putField (by omega) (by omega), slot]

/-- A byte without demands from place `used` on has none there after one before it is changed. -/
theorem putSlot_lt {b : UInt8} {i used : Nat} (before : i < used) (clear : b.toNat < Bits.weight (2 * used))
    (d : Demand) : (putSlot b i d).toNat < Bits.weight (2 * used) :=
  Byte.putField_lt clear (by omega) (code d)

/-- The four demands of a byte. -/
def slots (b : UInt8) : List Demand := [slot b 0, slot b 1, slot b 2, slot b 3]

/-- The byte of at most four demands; those that are missing are free. -/
def fromSlots (demands : List Demand) : UInt8 :=
  demands.zipIdx.foldl (fun b (d, i) => putSlot b i d) 0

/-- The bytes of demands, four to a byte. -/
def pack : List Demand → List UInt8
  | a :: b :: c :: d :: rest => fromSlots [a, b, c, d] :: pack rest
  | [] => []
  | rest => [fromSlots rest]

theorem getElem?_flatMap_slots (bytes : List UInt8) (kind : Nat) :
    (bytes.flatMap slots)[kind]? = bytes[kind / 4]?.map fun b => slot b (kind % 4) := by
  induction bytes generalizing kind with
  | nil => simp
  | cons b rest ih =>
    rw [List.flatMap_cons]
    match kind with
    | 0 => rfl
    | 1 => rfl
    | 2 => rfl
    | 3 => rfl
    | kind + 4 =>
      have byte : (kind + 4) / 4 = kind / 4 + 1 := by omega
      have place : (kind + 4) % 4 = kind % 4 := by omega
      rw [byte, place, List.getElem?_cons_succ, ← ih kind]
      rfl

/-- The bytes with the bits past the last of `len` kinds cleared. -/
def trim (len : Nat) (bytes : List UInt8) : List UInt8 :=
  match len % 4, bytes.getLast? with
  | 0, _ => bytes
  | _, none => bytes
  | used, some last => bytes.dropLast ++ [clearFrom last used]

theorem length_trim (len : Nat) (bytes : List UInt8) : (trim len bytes).length = bytes.length := by
  rw [trim]
  split
  · rfl
  · rfl
  · rename_i last found _
    have some_byte : bytes ≠ [] := by rintro rfl; simp at found
    have := List.length_pos_iff.mpr some_byte
    simp
    omega

theorem padded_trim (len : Nat) (bytes : List UInt8) : Padded len (trim len bytes) := by
  intro part
  rw [trim]
  split
  · contradiction
  · rename_i none_left _
    simp [none_left]
  · simpa using clearFrom_lt _ _

theorem padded_modify {len kind : Nat} {bytes : List UInt8} (sized : bytes.length = packedLength len)
    (padded : Padded len bytes) (inside : kind < len) (d : Demand) :
    Padded len (bytes.modify (kind / 4) fun b => putSlot b (kind % 4) d) := by
  intro part b member
  rw [List.getLast?_eq_getElem?, List.length_modify, List.getElem?_modify] at member
  simp only [Option.mem_def, Option.map_eq_map, Option.map_eq_some_iff] at member
  obtain ⟨last, found, same⟩ := member
  have clear : last.toNat < Bits.weight (2 * (len % 4)) :=
    padded part last (by rw [Option.mem_def, List.getLast?_eq_getElem?]; exact found)
  rw [packedLength] at sized
  split at same
  · subst same
    exact putSlot_lt (by omega) clear d
  · subst same
    exact clear

/-! ### Tables of demands -/

/-- No demand on any of `len` kinds. -/
def blank (len : Nat) : Checked Demands := do
  let _ ← checkedLength len
  return {
    len := len
    bytes := List.replicate (packedLength len) 0
    sized := List.length_replicate
    padded := by
      intro _ b member
      have zero : b = 0 := List.eq_of_mem_replicate (List.mem_of_getLast? member)
      subst zero
      exact Bits.weight_pos _ }

/-- The demands on `len` kinds that the bytes pack. There must be as many bytes as it takes. -/
def ofBytes (bytes : List UInt8) (len : Nat) : Checked Demands := do
  let needed ← checkedLength len
  if sized : bytes.length = packedLength len then
    return ⟨len, trim len bytes, (length_trim len bytes).trans sized, padded_trim len bytes⟩
  else throw (.demandBytes len needed)

/-- The demand on a kind; `none` past the last kind. -/
def get? (d : Demands) (kind : Nat) : Option Demand :=
  if kind < d.len then d.bytes[kind / 4]?.map fun b => slot b (kind % 4) else none

/-- The demands with another one on a kind; none change past the last kind. -/
def put (d : Demands) (kind : Nat) (demand : Demand) : Demands :=
  if inside : kind < d.len then {
    len := d.len
    bytes := d.bytes.modify (kind / 4) fun b => putSlot b (kind % 4) demand
    sized := by rw [List.length_modify, d.sized]
    padded := padded_modify d.sized d.padded inside demand }
  else d

theorem len_put (d : Demands) (kind : Nat) (demand : Demand) : (d.put kind demand).len = d.len := by
  rw [put]
  split <;> rfl

theorem get?_put (d : Demands) (kind : Nat) (demand : Demand) (k : Nat) :
    (d.put kind demand).get? k = if k = kind ∧ k < d.len then some demand else d.get? k := by
  by_cases inside : kind < d.len
  · rw [put, dif_pos inside, get?, get?]
    simp only [List.getElem?_modify]
    by_cases same : k = kind
    · subst same
      have byte : k / 4 < d.bytes.length := by
        rw [d.sized, packedLength]
        omega
      simp [inside, List.getElem?_eq_getElem byte, slot_putSlot _ (Nat.mod_lt k (by decide))]
    · by_cases here : kind / 4 = k / 4
      · have other : k % 4 ≠ kind % 4 := by omega
        have kept (b : UInt8) := slot_putSlot_of_ne b (Nat.mod_lt kind (by decide)) other demand
        simp [same, here, Function.comp_def, kept]
      · simp [same, here]
  · have past : ¬(k = kind ∧ k < d.len) := by omega
    rw [put, dif_neg inside, if_neg past]

theorem exists_get? {d : Demands} {kind : Nat} (inside : kind < d.len) : ∃ demand, d.get? kind = some demand := by
  have byte : kind / 4 < d.bytes.length := by
    rw [d.sized, packedLength]
    omega
  rw [get?, if_pos inside, List.getElem?_eq_getElem byte]
  exact ⟨_, rfl⟩

/-- The demands of a list, on as many kinds. -/
def ofList (demands : List Demand) : Checked Demands := ofBytes (pack demands) demands.length

/-- The demands in kind order. -/
def toList (d : Demands) : List Demand := (d.bytes.flatMap slots).take d.len

/-- The kinds on which a demand of some sort is made, ascending. -/
def kindsWhere (d : Demands) (p : Demand → Bool) : List Nat :=
  (d.toList.zipIdx.filter fun e => p e.1).map (·.2)

/-- The kinds on which a demand is made, ascending. -/
def kindsWith (d : Demands) (demand : Demand) : List Nat := d.kindsWhere (· == demand)

/-- The kinds in one of the two sets of inclusions, ascending. -/
def includedKinds (d : Demands) : List Nat := d.kindsWhere Demand.includes

/-- Whether nothing is asked of any kind. -/
def isVacuous (d : Demands) : Bool := d.bytes.all (· == 0)

/-- The number of kinds of which something is asked. -/
def constrained (d : Demands) : Nat := d.toList.countP (· != .free)

theorem getElem?_toList (d : Demands) (kind : Nat) : d.toList[kind]? = d.get? kind := by
  rw [toList, get?, List.getElem?_take, getElem?_flatMap_slots]

theorem mem_kindsWhere {d : Demands} {p : Demand → Bool} {kind : Nat} :
    kind ∈ d.kindsWhere p ↔ ∃ demand, d.get? kind = some demand ∧ p demand := by
  simp only [kindsWhere, List.mem_map, List.mem_filter, ← getElem?_toList]
  constructor
  · rintro ⟨⟨demand, place⟩, ⟨member, holds⟩, rfl⟩
    exact ⟨demand, List.mem_zipIdx_iff_getElem?.mp member, holds⟩
  · rintro ⟨demand, found, holds⟩
    exact ⟨(demand, kind), ⟨List.mem_zipIdx_iff_getElem?.mpr found, holds⟩, rfl⟩

end Demands
end Playfield
