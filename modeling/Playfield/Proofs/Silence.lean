import Playfield.Proofs.Layout

/-!
# Demands that ask for nothing

Bytes that pack demands may have bits set past the last kind. Clearing these keeps the demands, and the
cleared bytes are all zero exactly when nothing is asked of any kind.
-/
namespace Playfield.Demands

/-- None of the first `len` demands that the bytes pack asks for anything. -/
def Silent (len : Nat) (bytes : List UInt8) : Prop := ∀ demand ∈ (bytes.flatMap slots).take len, demand = .free

instance (len : Nat) (bytes : List UInt8) : Decidable (Silent len bytes) :=
  inferInstanceAs (Decidable (∀ demand ∈ (bytes.flatMap slots).take len, demand = .free))

/-- The demands that bytes pack, whatever stands past the last. -/
def cleared (len : Nat) (bytes : List UInt8) (sized : bytes.length = packedLength len) : Demands where
  len := len
  bytes := trim len bytes
  sized := (length_trim len bytes).trans sized
  padded := padded_trim len bytes

theorem ofBytes_eq {len : Nat} {bytes : List UInt8} (counted : len + 3 < Word.full.size)
    (sized : bytes.length = packedLength len) : ofBytes bytes len = .ok (cleared len bytes sized) := by
  rw [ofBytes, checkedLength_eq_ok_iff.mpr ⟨counted, rfl⟩, ok_bind, dif_pos sized]
  rfl

/-! ### Bytes -/

theorem slot_eq_free_iff {b : UInt8} {i : Nat} : slot b i = .free ↔ b.toNat / Bits.weight (2 * i) % 4 = 0 := by
  have four : Bits.weight 2 = 4 := rfl
  rw [slot, Byte.toNat_field, Bits.get, four, Demand.ofBits, Nat.mod_mod]
  have small : b.toNat / Bits.weight (2 * i) % 4 < 4 := Nat.mod_lt _ (by decide)
  generalize b.toNat / Bits.weight (2 * i) % 4 = n at small
  have digits : n = 0 ∨ n = 1 ∨ n = 2 ∨ n = 3 := by omega
  rcases digits with rfl | rfl | rfl | rfl <;> simp

theorem slot_clearFrom (b : UInt8) {i used : Nat} (before : i < used) : slot (clearFrom b used) i = slot b i := by
  have inside : 2 * used = 2 * i + 2 + 2 * (used - i - 1) := by omega
  have zero : Bits.weight 0 = 1 := rfl
  rw [slot, slot, Byte.toNat_field, Byte.toNat_field, clearFrom, Byte.toNat_field, Bits.get, Bits.get, Bits.get, zero,
    Nat.div_one, inside, Bits.weight_add, Bits.weight_add, Nat.mul_assoc, Nat.mod_mul_right_div_self,
    Nat.mod_mod_of_dvd _ (Nat.dvd_mul_right _ _)]

theorem eq_zero_of_digits {n used : Nat} (small : n < Bits.weight (2 * used))
    (digits : ∀ i < used, n / Bits.weight (2 * i) % 4 = 0) : n = 0 := by
  induction used generalizing n with
  | zero => exact Nat.lt_one_iff.mp small
  | succ used ih =>
    have four (k : Nat) : Bits.weight (2 * (k + 1)) = 4 * Bits.weight (2 * k) := by
      rw [Nat.mul_succ, Nat.add_comm, Bits.weight_add]
      rfl
    have rest : n / 4 = 0 := by
      refine ih (Nat.div_lt_of_lt_mul (four used ▸ small)) fun i less => ?_
      have digit := digits (i + 1) (Nat.succ_lt_succ less)
      rwa [four, ← Nat.div_div_eq_div_mul] at digit
    have first : n / 1 % 4 = 0 := digits 0 (Nat.succ_pos used)
    omega

/-- A byte without bits past its first demands is zero if all of these are free. -/
theorem eq_zero_of_slots {b : UInt8} {used : Nat} (clear : b.toNat < Bits.weight (2 * used))
    (free : ∀ i < used, slot b i = .free) : b = 0 :=
  UInt8.toNat_inj.mp (eq_zero_of_digits clear fun i less => slot_eq_free_iff.mp (free i less))

/-! ### Tables -/

/-- Clearing the bits past the last kind keeps the demands. -/
theorem toList_cleared {len : Nat} {bytes : List UInt8} (sized : bytes.length = packedLength len) :
    (cleared len bytes sized).toList = (bytes.flatMap slots).take len := by
  apply List.ext_getElem?
  intro kind
  show (((trim len bytes).flatMap slots).take len)[kind]? = _
  rw [List.getElem?_take, List.getElem?_take, getElem?_flatMap_slots, getElem?_flatMap_slots]
  split
  · rename_i inside
    rw [trim]
    split
    · rfl
    · rfl
    · rename_i last found part
      have part : len % 4 ≠ 0 := part
      obtain ⟨front, rfl⟩ := List.getLast?_eq_some_iff.mp found
      rw [packedLength, List.length_append, List.length_singleton] at sized
      rw [List.dropLast_concat]
      by_cases early : kind / 4 < front.length
      · rw [List.getElem?_append_left early, List.getElem?_append_left early]
      · have here : kind / 4 = front.length := by omega
        have before : kind % 4 < len % 4 := by omega
        simp [here, slot_clearFrom last before]
  · rfl

theorem isVacuous_iff_silent {d : Demands} : d.isVacuous ↔ Silent d.len d.bytes := by
  rw [isVacuous, List.all_eq_true]
  constructor
  · intro zero demand member
    obtain ⟨b, inside, shown⟩ := List.mem_flatMap.mp (List.mem_of_mem_take member)
    have none_set : b = 0 := eq_of_beq (zero b inside)
    subst none_set
    have all : ∀ demand ∈ slots 0, demand = .free := by decide
    exact all demand shown
  · intro silent b member
    obtain ⟨i, inside, rfl⟩ := List.mem_iff_getElem.mp member
    have sized := d.sized
    rw [packedLength] at sized
    have free (j : Nat) (less : j < 4) (known : 4 * i + j < d.len) : slot d.bytes[i] j = .free := by
      have byte : (4 * i + j) / 4 = i := by omega
      have place : (4 * i + j) % 4 = j := by omega
      apply silent
      rw [List.mem_iff_getElem?]
      refine ⟨4 * i + j, ?_⟩
      rw [List.getElem?_take_of_lt known, getElem?_flatMap_slots, byte, place, List.getElem?_eq_getElem inside]
      rfl
    rw [beq_iff_eq]
    -- Only the last byte may hold fewer than four demands, and then its other bits are clear.
    by_cases full : 4 * i + 4 ≤ d.len
    · exact eq_zero_of_slots (Byte.toNat_lt_weight _) fun j less => free j less (by omega)
    · have last : d.bytes.getLast? = some d.bytes[i] := by
        rw [List.getLast?_eq_getElem?, show d.bytes.length - 1 = i by omega]
        exact List.getElem?_eq_getElem inside
      exact eq_zero_of_slots (d.padded (by omega) _ last) fun j less => free j (by omega) (by omega)

theorem isVacuous_cleared {len : Nat} {bytes : List UInt8} (sized : bytes.length = packedLength len) :
    (cleared len bytes sized).isVacuous ↔ Silent len bytes := by
  rw [isVacuous_iff_silent]
  show (∀ demand ∈ (cleared len bytes sized).toList, demand = .free) ↔ _
  rw [toList_cleared]
  rfl

end Playfield.Demands
