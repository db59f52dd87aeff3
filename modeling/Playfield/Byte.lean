/-!
# Fields of bytes

A field is a run of neighbouring bits: `width` bits, with `low` bits below them. Replacing a field
keeps every bit outside it, and a field holds the lowest bits of what was put there.
-/
namespace Playfield

namespace Bits

/-- The weight of the bit that has `n` bits below it. -/
def weight : Nat → Nat
  | 0 => 1
  | n + 1 => 2 * weight n

/-- The field of a number. -/
def get (n low width : Nat) : Nat := n / weight low % weight width

/-- The number with the lowest bits of a value in the field. -/
def put (n low width value : Nat) : Nat :=
  n / weight (low + width) * weight (low + width) + value % weight width * weight low + n % weight low

theorem weight_pos (n : Nat) : 0 < weight n := by
  induction n with
  | zero => decide
  | succ n ih => exact Nat.mul_pos (by decide) ih

theorem weight_add (m n : Nat) : weight (m + n) = weight m * weight n := by
  induction n with
  | zero => exact (Nat.mul_one _).symm
  | succ n ih =>
    show 2 * weight (m + n) = weight m * (2 * weight n)
    rw [ih, Nat.mul_left_comm]

/-- A number below the weight of a bit stays below it when a field under that bit is replaced. -/
theorem put_lt {n low width limit : Nat} (small : n < weight limit) (inside : low + width ≤ limit) (value : Nat) :
    put n low width value < weight limit := by
  obtain ⟨rest, rfl⟩ := Nat.exists_eq_add_of_le inside
  rw [weight_add] at small ⊢
  have high : n / weight (low + width) < weight rest := Nat.div_lt_of_lt_mul small
  have room := Nat.mul_le_mul_right (weight (low + width)) high
  have below : n % weight low < weight low := Nat.mod_lt _ (weight_pos low)
  have one : value % weight width * weight low + weight low ≤ weight (low + width) := by
    rw [← Nat.succ_mul, weight_add, Nat.mul_comm (weight low)]
    exact Nat.mul_le_mul_right _ (Nat.mod_lt _ (weight_pos width))
  rw [Nat.succ_mul, Nat.mul_comm (weight rest)] at room
  rw [put]
  omega

/-- What lies above a field stays when the field is replaced. -/
theorem put_div (n low width value : Nat) :
    put n low width value / weight (low + width) = n / weight (low + width) := by
  have below : n % weight low < weight low := Nat.mod_lt _ (weight_pos low)
  have one : value % weight width * weight low + weight low ≤ weight (low + width) := by
    rw [← Nat.succ_mul, weight_add, Nat.mul_comm (weight low)]
    exact Nat.mul_le_mul_right _ (Nat.mod_lt _ (weight_pos width))
  rw [put, Nat.add_assoc, Nat.add_comm, Nat.add_mul_div_right _ _ (weight_pos _), Nat.div_eq_of_lt (by omega),
    Nat.zero_add]

/-- What lies below a field stays when the field is replaced. -/
theorem put_mod (n low width value : Nat) : put n low width value % weight low = n % weight low := by
  rw [put, weight_add, Nat.mul_comm (weight low) (weight width), ← Nat.mul_assoc, ← Nat.add_mul, Nat.add_comm,
    Nat.add_mul_mod_self_right, Nat.mod_mod]

/-- A field holds the lowest bits of what was put there. -/
theorem get_put (n low width value : Nat) : get (put n low width value) low width = value % weight width := by
  rw [get, put, weight_add, Nat.mul_comm (weight low) (weight width), ← Nat.mul_assoc, ← Nat.add_mul,
    Nat.add_comm, Nat.add_mul_div_right _ _ (weight_pos _), Nat.div_eq_of_lt (Nat.mod_lt _ (weight_pos _)),
    Nat.zero_add, Nat.add_comm, Nat.add_mul_mod_self_right, Nat.mod_mod]

/-- A field below the replaced one stays. -/
theorem get_put_below {low' width' low : Nat} (below : low' + width' ≤ low) (n width value : Nat) :
    get (put n low width value) low' width' = get n low' width' := by
  have key (m : Nat) : get m low' width' = m % weight low / weight low' % weight width' := by
    obtain ⟨rest, rfl⟩ := Nat.exists_eq_add_of_le below
    rw [get, weight_add, weight_add, Nat.mul_assoc, Nat.mod_mul_right_div_self,
      Nat.mod_mod_of_dvd _ (Nat.dvd_mul_right _ _)]
  rw [key, key, put_mod]

/-- A field above the replaced one stays. -/
theorem get_put_above {low width low' : Nat} (above : low + width ≤ low') (n value width' : Nat) :
    get (put n low width value) low' width' = get n low' width' := by
  obtain ⟨rest, rfl⟩ := Nat.exists_eq_add_of_le above
  rw [get, get, weight_add, ← Nat.div_div_eq_div_mul, ← Nat.div_div_eq_div_mul, put_div]

end Bits

namespace Byte

/-- The field of a byte. -/
def field (b : UInt8) (low width : Nat) : UInt8 := .ofNat (Bits.get b.toNat low width)

/-- The byte with the lowest bits of a value in the field. -/
def putField (b : UInt8) (low width : Nat) (value : UInt8) : UInt8 :=
  .ofNat (Bits.put b.toNat low width value.toNat)

theorem toNat_lt_weight (b : UInt8) : b.toNat < Bits.weight 8 := b.toNat_lt

@[simp] theorem toNat_field (b : UInt8) (low width : Nat) :
    (field b low width).toNat = Bits.get b.toNat low width := by
  rw [field, UInt8.toNat_ofNat']
  refine Nat.mod_eq_of_lt (Nat.lt_of_le_of_lt (Nat.mod_le _ _) ?_)
  exact Nat.lt_of_le_of_lt (Nat.div_le_self _ _) b.toNat_lt

theorem toNat_putField {low width : Nat} (inside : low + width ≤ 8) (b value : UInt8) :
    (putField b low width value).toNat = Bits.put b.toNat low width value.toNat := by
  rw [putField, UInt8.toNat_ofNat']
  exact Nat.mod_eq_of_lt (Bits.put_lt (toNat_lt_weight b) inside value.toNat)

/-- A field holds the lowest bits of what was put there. -/
theorem toNat_field_putField {low width : Nat} (inside : low + width ≤ 8) (b value : UInt8) :
    (field (putField b low width value) low width).toNat = value.toNat % Bits.weight width := by
  rw [toNat_field, toNat_putField inside, Bits.get_put]

/-- A field apart from the replaced one stays. -/
theorem field_putField {low width low' width' : Nat} (inside : low + width ≤ 8)
    (apart : low' + width' ≤ low ∨ low + width ≤ low') (b value : UInt8) :
    field (putField b low width value) low' width' = field b low' width' := by
  refine UInt8.toNat_inj.mp ?_
  rw [toNat_field, toNat_field, toNat_putField inside]
  rcases apart with below | above
  · exact Bits.get_put_below below ..
  · exact Bits.get_put_above above ..

/-- A byte that is clear from a bit on stays so when a field under that bit is replaced. -/
theorem putField_lt {b : UInt8} {low width limit : Nat} (clear : b.toNat < Bits.weight limit)
    (inside : low + width ≤ limit) (value : UInt8) : (putField b low width value).toNat < Bits.weight limit := by
  rw [putField, UInt8.toNat_ofNat']
  exact Nat.lt_of_le_of_lt (Nat.mod_le _ _) (Bits.put_lt clear inside value.toNat)

end Byte
end Playfield
