import Playfield.World.Occupancy
import Playfield.IdMap

/-!
# Folds over tables

A table lists exactly the values of its ids, in ascending order. A run of writes with different keys
leaves, for each key, the one write that was made for it.
-/
namespace Playfield

/-- In a list that is sorted by a key, the first member with a property is the one with the least key. -/
theorem find?_eq_some_iff_least {γ : Type} (key : γ → Nat) {l : List γ} (sorted : l.Pairwise fun a b => key a < key b)
    {p : γ → Bool} {a : γ} : l.find? p = some a ↔ (a ∈ l ∧ p a) ∧ ∀ b ∈ l, p b → key a ≤ key b := by
  induction l with
  | nil => simp
  | cons head rest ih =>
    obtain ⟨below, tail⟩ := List.pairwise_cons.mp sorted
    by_cases holds : p head
    · rw [List.find?_cons_of_pos holds]
      constructor
      · intro same
        cases same
        refine ⟨⟨List.mem_cons_self, holds⟩, ?_⟩
        intro b member _
        rcases List.mem_cons.mp member with same | later
        · exact Nat.le_of_eq (congrArg key same.symm)
        · exact Nat.le_of_lt (below b later)
      · rintro ⟨⟨member, _⟩, least⟩
        rcases List.mem_cons.mp member with same | later
        · rw [same]
        · exact absurd (least head List.mem_cons_self holds) (Nat.not_le.mpr (below a later))
    · rw [List.find?_cons_of_neg holds, ih tail]
      constructor
      · rintro ⟨⟨member, satisfied⟩, least⟩
        refine ⟨⟨List.mem_cons_of_mem _ member, satisfied⟩, ?_⟩
        intro b inside also
        rcases List.mem_cons.mp inside with same | later
        · exact absurd (same ▸ also) holds
        · exact least b later also
      · rintro ⟨⟨member, satisfied⟩, least⟩
        rcases List.mem_cons.mp member with same | later
        · exact absurd (same ▸ satisfied) holds
        · exact ⟨⟨later, satisfied⟩, fun b inside also => least b (List.mem_cons_of_mem _ inside) also⟩

namespace IdMap

variable {α γ : Type}

theorem find_eq_some_iff {k : Nat} {v : α} {l : List (Nat × α)} (sorted : l.Pairwise fun a b => a.1 < b.1) :
    find k l = some v ↔ (k, v) ∈ l := by
  induction l with
  | nil => simp [find]
  | cons head rest ih =>
    obtain ⟨j, u⟩ := head
    obtain ⟨below, tail⟩ := List.pairwise_cons.mp sorted
    rw [find]
    by_cases here : j = k
    · subst here
      have later : (j, v) ∉ rest := fun member => absurd (below _ member) (Nat.lt_irrefl j)
      simp [later, eq_comm]
    · simp [here, Ne.symm here, ih tail]

theorem mem_entries {m : IdMap α} {k : Nat} {v : α} : (k, v) ∈ m.entries ↔ m.get? k = some v :=
  (find_eq_some_iff m.ascending).symm

/-- Tables that answer alike are equal. -/
theorem ext_get? {m n : IdMap α} (same : ∀ k, m.get? k = n.get? k) : m = n := by
  have nodup (m : IdMap α) : m.entries.Nodup := m.ascending.imp fun less eq => by simp [eq] at less
  have perm : m.entries.Perm n.entries := by
    refine (List.perm_ext_iff_of_nodup (nodup m) (nodup n)).mpr ?_
    rintro ⟨k, v⟩
    rw [mem_entries, mem_entries, same]
  apply ext_entries
  refine perm.eq_of_pairwise ?_ m.ascending n.ascending
  intro a b _ _ less more
  omega

/-- To put a value over another one is to change it. -/
theorem insert_eq_modify {m : IdMap α} {k : Nat} {v : α} (found : m.get? k = some v) (f : α → α) :
    m.insert k (f v) = m.modify k f := by
  refine ext_get? fun j => ?_
  rw [get?_insert, get?_modify]
  by_cases here : k = j
  · simp [← here, found]
  · simp [here]

theorem insert_eq_self {m : IdMap α} {k : Nat} {v : α} (found : m.get? k = some v) : m.insert k v = m := by
  refine ext_get? fun j => ?_
  rw [get?_insert]
  by_cases here : k = j
  · simp [← here, found]
  · simp [here]

/-- To change the value of an id that has none changes nothing. -/
theorem modify_of_absent {m : IdMap α} {k : Nat} (absent : m.get? k = none) (f : α → α) : m.modify k f = m := by
  refine ext_get? fun j => ?_
  rw [get?_modify]
  by_cases here : k = j
  · simp [← here, absent]
  · simp [here]

/-! ### Changed values -/

/-- The table with every value changed. -/
def mapValues {β : Type} (f : α → β) (m : IdMap α) : IdMap β :=
  ⟨m.entries.map fun e => (e.1, f e.2), List.pairwise_map.mpr m.ascending⟩

@[simp] theorem get?_mapValues {β : Type} (f : α → β) (m : IdMap α) (k : Nat) : (m.mapValues f).get? k = (m.get? k).map f := by
  show find k (m.entries.map fun e => (e.1, f e.2)) = (find k m.entries).map f
  induction m.entries with
  | nil => rfl
  | cons head rest ih =>
    obtain ⟨j, u⟩ := head
    rw [List.map_cons, find, find, ih]
    split <;> rfl

theorem values_mapValues {β : Type} (f : α → β) (m : IdMap α) : (m.mapValues f).values = m.values.map f := by
  rw [values, values, mapValues, List.map_map, List.map_map]
  rfl

/-! ### Values in order -/

theorem mem_values {m : IdMap α} {v : α} : v ∈ m.values ↔ ∃ k, m.get? k = some v := by
  simp [values, ← mem_entries]

/-- Values that know their key are listed in the order of their keys. -/
theorem values_ascending {m : IdMap α} (key : α → Nat) (own : ∀ k v, m.get? k = some v → key v = k) :
    m.values.Pairwise fun a b => key a < key b := by
  refine List.pairwise_map.mpr (m.ascending.imp_of_mem ?_)
  rintro ⟨j, u⟩ ⟨k, v⟩ first second less
  rw [own j u (mem_entries.mp first), own k v (mem_entries.mp second)]
  exact less

theorem get?_foldl_modify_of_not_mem {key : γ → Nat} {f : γ → α → α} {l : List γ} {k : Nat}
    (away : k ∉ l.map key) (m : IdMap α) : (l.foldl (fun m c => m.modify (key c) (f c)) m).get? k = m.get? k := by
  induction l generalizing m with
  | nil => rfl
  | cons c rest ih =>
    obtain ⟨other, later⟩ := not_or.mp (mt List.mem_cons.mpr away)
    rw [List.foldl_cons, ih later, get?_modify, if_neg (Ne.symm other)]

theorem get?_foldl_modify_of_mem {key : γ → Nat} {f : γ → α → α} {l : List γ} (distinct : (l.map key).Nodup)
    {c : γ} (member : c ∈ l) (m : IdMap α) :
    (l.foldl (fun m c => m.modify (key c) (f c)) m).get? (key c) = (m.get? (key c)).map (f c) := by
  induction l generalizing m with
  | nil => cases member
  | cons head rest ih =>
    obtain ⟨apart, tail⟩ := List.nodup_cons.mp distinct
    rcases List.mem_cons.mp member with same | later
    · subst same
      rw [List.foldl_cons, get?_foldl_modify_of_not_mem apart, get?_modify, if_pos rfl]
    · have other : key head ≠ key c := fun same => apart (same ▸ List.mem_map_of_mem later)
      rw [List.foldl_cons, ih tail later, get?_modify, if_neg other]

end IdMap

namespace Occupancy

variable {γ : Type}

theorem at?_foldl_vacate {origin : γ → Tile} (l : List γ) (o : Occupancy) (t : Tile) :
    (l.foldl (fun o c => o.vacate (origin c)) o).at? t = if t ∈ l.map origin then none else o.at? t := by
  induction l generalizing o with
  | nil => rfl
  | cons c rest ih =>
    rw [List.foldl_cons, ih]
    by_cases here : origin c = t
    · simp [here]
    · simp [here, Ne.symm here]

theorem at?_foldl_occupy_of_not_mem {target : γ → Tile} {id : γ → SpriteId} {l : List γ} {t : Tile}
    (away : t ∉ l.map target) (o : Occupancy) :
    (l.foldl (fun o c => o.occupy (target c) (id c)) o).at? t = o.at? t := by
  induction l generalizing o with
  | nil => rfl
  | cons c rest ih =>
    obtain ⟨other, later⟩ := not_or.mp (mt List.mem_cons.mpr away)
    rw [List.foldl_cons, ih later, at?_occupy, if_neg (Ne.symm other)]

theorem at?_foldl_occupy_of_mem {target : γ → Tile} {id : γ → SpriteId} {l : List γ}
    (distinct : (l.map target).Nodup) {c : γ} (member : c ∈ l) (o : Occupancy) :
    (l.foldl (fun o c => o.occupy (target c) (id c)) o).at? (target c) = some (id c) := by
  induction l generalizing o with
  | nil => cases member
  | cons head rest ih =>
    obtain ⟨apart, tail⟩ := List.nodup_cons.mp distinct
    rcases List.mem_cons.mp member with same | later
    · subst same
      rw [List.foldl_cons, at?_foldl_occupy_of_not_mem apart, at?_occupy, if_pos rfl]
    · rw [List.foldl_cons, ih tail later]

end Occupancy
end Playfield
