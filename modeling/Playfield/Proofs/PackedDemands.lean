import Playfield.Proofs.Confinement
import Playfield.Proofs.Counts

/-!
# Packed tables of demands

A table is compared, and found to ask for nothing, by its packed bytes. That is right as long as the bits past the last kind are
clear, whichever way a table came about: made blank, taken from bytes with anything in them, or changed demand by demand.
Then the bytes say what the demands say, no more and no less.
-/
namespace Playfield

theorem Bits.weight_le {m n : Nat} (le : m ≤ n) : weight m ≤ weight n := by
  obtain ⟨rest, rfl⟩ := Nat.exists_eq_add_of_le le
  rw [weight_add]
  exact Nat.le_mul_of_pos_right _ (weight_pos rest)

/-- A number below the weight of a bit has clear fields from that bit on. -/
theorem Bits.get_eq_zero {n low : Nat} (small : n < weight low) (width : Nat) : get n low width = 0 := by
  rw [get, Nat.div_eq_of_lt small, Nat.zero_mod]

namespace Demands

variable {len : Nat} {d e : Demands}

/-- Sets the demand on a kind; answers with the former one, if there is such a kind. -/
def set (d : Demands) (kind : Nat) (demand : Demand) : Option Demand × Demands := (d.get? kind, d.put kind demand)

/-- The tables that are made for `len` kinds and then changed, one demand after the other. -/
inductive Built (len : Nat) : Demands → Prop
  | blank {d : Demands} : Demands.blank len = .ok d → Built len d
  | ofBytes {bytes : List UInt8} {d : Demands} : Demands.ofBytes bytes len = .ok d → Built len d
  | set {d : Demands} (kind : Nat) (demand : Demand) : Built len d → Built len (d.set kind demand).2

theorem len_of_ofBytes {bytes : List UInt8} (built : ofBytes bytes len = .ok d) :
    d.len = len ∧ len + 3 < Word.full.size := by
  obtain ⟨_, counted, done⟩ := bind_eq_ok.mp built
  split at done
  · cases pure_eq_ok.mp done
    exact ⟨rfl, (checkedLength_eq_ok_iff.mp counted).1⟩
  · cases done

/-- A table stays one for as many kinds as it was made for, whose bytes can be counted. -/
theorem Built.len_eq (built : Built len d) : d.len = len ∧ len + 3 < Word.full.size := by
  induction built with
  | blank made => exact View.length_of_blank made
  | ofBytes made => exact len_of_ofBytes made
  | set kind demand _ before => exact ⟨(len_put _ kind demand).trans before.1, before.2⟩

theorem isSome_get? {k : Nat} : (d.get? k).isSome ↔ k < d.len := by
  by_cases inside : k < d.len
  · obtain ⟨demand, found⟩ := exists_get? inside
    simp [inside, found]
  · simp [inside, get?]

/-! ### Past the last kind -/

/-- The bits past those of the last kind are clear. -/
theorem lt_weight_of_past {i low : Nat} {b : UInt8} (found : d.bytes[i]? = some b) (inside : low < 8)
    (past : 2 * d.len ≤ 8 * i + low) : b.toNat < Bits.weight low := by
  have sized := d.sized
  have here := (List.getElem?_eq_some_iff.mp found).1
  rw [packedLength] at sized
  have last : d.bytes.getLast? = some b := by
    rw [List.getLast?_eq_getElem?, show d.bytes.length - 1 = i by omega]
    exact found
  exact Nat.lt_of_lt_of_le (d.padded (by omega) b last) (Bits.weight_le (by omega))

theorem bit_of_past {i : Nat} {b : UInt8} (found : d.bytes[i / 8]? = some b) (past : 2 * d.len ≤ i) :
    Byte.field b (i % 8) 1 = 0 := by
  have small : b.toNat < Bits.weight (i % 8) := lt_weight_of_past found (by omega) (by omega)
  refine UInt8.toNat_inj.mp ?_
  rw [Byte.toNat_field, Bits.get_eq_zero small]
  rfl

theorem slot_of_past {i j : Nat} {b : UInt8} (found : d.bytes[i]? = some b) (inside : j < 4) (past : d.len ≤ 4 * i + j) :
    slot b j = .free := by
  have small : b.toNat < Bits.weight (2 * j) := lt_weight_of_past found (by omega) (by omega)
  rw [slot, Byte.toNat_field, Bits.get_eq_zero small]
  rfl

/-! ### Equal tables -/

theorem get_of_slot_eq {b c : UInt8} {i : Nat} (same : slot b i = slot c i) :
    Bits.get b.toNat (2 * i) 2 = Bits.get c.toNat (2 * i) 2 := by
  have small (a : UInt8) : Bits.get a.toNat (2 * i) 2 < 4 := Nat.mod_lt _ (Bits.weight_pos 2)
  have code (n : Nat) (less : n < 4) : (Demand.ofBits n).ctorIdx = n := by
    have digits : n = 0 ∨ n = 1 ∨ n = 2 ∨ n = 3 := by omega
    rcases digits with rfl | rfl | rfl | rfl <;> rfl
  rw [slot, slot, Byte.toNat_field, Byte.toNat_field] at same
  rw [← code _ (small b), ← code _ (small c), same]

/-- A byte is known by its four demands. -/
theorem eq_of_slots {b c : UInt8} (same : ∀ i < 4, slot b i = slot c i) : b = c := by
  have digits (i : Nat) (inside : i < 4) := get_of_slot_eq (same i inside)
  have first := digits 0 (by decide)
  have second := digits 1 (by decide)
  have third := digits 2 (by decide)
  have fourth := digits 3 (by decide)
  have weights : Bits.weight 0 = 1 ∧ Bits.weight 2 = 4 ∧ Bits.weight 4 = 16 ∧ Bits.weight 6 = 64 := by decide
  simp only [Bits.get, Nat.mul_zero, Nat.mul_one, Nat.reduceMul, weights] at first second third fourth
  have small := b.toNat_lt
  have less := c.toNat_lt
  exact UInt8.toNat_inj.mp (by omega)

/-- Tables for as many kinds that make the same demands are equal. -/
theorem ext_get? (len : d.len = e.len) (same : ∀ k < d.len, d.get? k = e.get? k) : d = e := by
  refine ext_bytes len (List.ext_getElem? fun i => ?_)
  have sized := d.sized
  have also := e.sized
  rw [packedLength] at sized also
  by_cases inside : i < d.bytes.length
  · have within : i < e.bytes.length := by omega
    have here := List.getElem?_eq_getElem inside
    have there := List.getElem?_eq_getElem within
    rw [here, there]
    refine congrArg some (eq_of_slots fun j less => ?_)
    by_cases known : 4 * i + j < d.len
    · have demand := same (4 * i + j) known
      rw [get?, get?, if_pos known, if_pos (len ▸ known), show (4 * i + j) / 4 = i by omega,
        show (4 * i + j) % 4 = j by omega, here, there] at demand
      exact Option.some.inj demand
    · rw [slot_of_past here less (by omega), slot_of_past there less (by omega)]
  · rw [List.getElem?_eq_none (by omega), List.getElem?_eq_none (by omega)]

/-! ### Kinds by demand -/

theorem isVacuous_iff_get? : d.isVacuous ↔ ∀ k < d.len, d.get? k = some .free := by
  rw [isVacuous_iff_silent]
  constructor
  · intro silent k inside
    obtain ⟨demand, found⟩ := exists_get? inside
    rw [found, silent demand (List.mem_of_getElem? (getElem?_toList d k ▸ found))]
  · intro free demand member
    obtain ⟨k, found⟩ := List.mem_iff_getElem?.mp member
    rw [show ((d.bytes.flatMap slots).take d.len)[k]? = d.get? k from getElem?_toList d k] at found
    have inside : k < d.len := isSome_get?.mp (Option.isSome_of_eq_some found)
    exact (Option.some.inj ((free k inside).symm.trans found)).symm

theorem kindsWhere_ascending (p : Demand → Bool) : (d.kindsWhere p).Pairwise (· < ·) := by
  have chosen : (d.kindsWhere p).Sublist (d.toList.zipIdx.map (·.2)) := List.filter_sublist.map _
  refine List.Pairwise.sublist chosen ?_
  rw [List.zipIdx_map_snd]
  exact List.pairwise_lt_range'

theorem mem_kindsWith {demand : Demand} {k : Nat} : k ∈ d.kindsWith demand ↔ d.get? k = some demand := by
  rw [kindsWith, mem_kindsWhere]
  simp

/-- However a table for a number of kinds came about, it has just the bytes it takes, with all bits past the last kind clear, and
says a demand for each kind and for no other. Setting one changes that one and nothing else, and is refused past the last kind.
Two tables are equal if they make the same demands; one is vacuous if each of these is free, and none is counted then. The
kinds with a demand are listed in order. And from its bytes, the table is had again. -/
theorem built_says_demands (built : Built len d) :
    (d.bytes.length = packedLength len ∧ ∀ i, 2 * len ≤ i → ∀ b ∈ d.bytes[i / 8]?, Byte.field b (i % 8) 1 = 0) ∧
      (∀ k, (d.get? k).isSome ↔ k < len) ∧
      (∀ kind demand, kind < len → (d.set kind demand).1 = d.get? kind ∧
        ∀ k, (d.set kind demand).2.get? k = if k = kind then some demand else d.get? k) ∧
      (∀ kind demand, len ≤ kind → d.set kind demand = (none, d)) ∧
      (∀ e, Built len e → (d = e ↔ ∀ k < len, d.get? k = e.get? k)) ∧
      ((d.isVacuous ↔ ∀ k < len, d.get? k = some .free) ∧ (d.isVacuous ↔ d.constrained = 0)) ∧
      (∀ demand, (d.kindsWith demand).Pairwise (· < ·) ∧ ∀ k, k ∈ d.kindsWith demand ↔ d.get? k = some demand) ∧
      ofBytes d.bytes len = .ok d := by
  obtain ⟨rfl, counted⟩ := built.len_eq
  refine ⟨⟨d.sized, fun i past b found => bit_of_past found past⟩, fun _ => isSome_get?,
    fun kind demand inside => ⟨rfl, fun k => ?_⟩, fun kind demand past => ?_, fun e also => ⟨?_, fun same => ?_⟩, ⟨isVacuous_iff_get?, isVacuous_iff_constrained⟩,
    fun demand => ⟨kindsWhere_ascending _, fun k => mem_kindsWith⟩, ofBytes_bytes counted⟩
  · obtain ⟨old, found⟩ := exists_get? inside
    rw [set, get?_put_eq, found, Option.map_some]
  · have absent : d.get? kind = none := if_neg (Nat.not_lt.mpr past)
    rw [set, absent, put_of_absent absent]
  · rintro rfl
    exact fun _ _ => rfl
  · exact ext_get? also.len_eq.1.symm same

/-- Taken from bytes with bits past the last of six kinds, and changed at two of these. -/
theorem built_says_demands_six : ∃ d, Built 6 d ∧ d.bytes = [243, 11] ∧ d.get? 5 = some .grouped ∧
    (5 ∈ d.kindsWith .grouped ∧ 5 ∉ d.kindsWith .excluded) ∧ d.set 6 .included = (none, d) ∧
    ofBytes [243, 11] 6 = .ok d := by
  obtain ⟨start, made, bytes, last⟩ : ∃ start, ofBytes [255, 255] 6 = .ok start ∧
      ((start.set 1 .free).2.set 5 .grouped).2.bytes = [243, 11] ∧
      ((start.set 1 .free).2.set 5 .grouped).2.get? 5 = some .grouped := ⟨_, rfl, rfl, rfl⟩
  have built : Built 6 ((start.set 1 .free).2.set 5 .grouped).2 := .set 5 .grouped (.set 1 .free (.ofBytes made))
  obtain ⟨_, _, _, refused, _, _, listed, rebuilt⟩ := built_says_demands built
  refine ⟨_, built, bytes, last, ⟨((listed _).2 5).mpr last, fun listed' => ?_⟩, refused 6 .included (Nat.le_refl _), ?_⟩
  · cases last.symm.trans (((listed _).2 5).mp listed')
  · rw [bytes] at rebuilt
    exact rebuilt

end Demands
end Playfield
