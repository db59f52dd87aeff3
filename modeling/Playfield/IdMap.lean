/-!
# Tables by id

A table holds at most one value for each id and lists them in ascending order of id.
-/
namespace Playfield

/-- Values by id. -/
structure IdMap (α : Type) where
  entries : List (Nat × α)
  ascending : entries.Pairwise fun a b => a.1 < b.1
  deriving DecidableEq, Repr

namespace IdMap

variable {α β : Type}

/-- The table without values. -/
def empty : IdMap α := ⟨[], .nil⟩

/-- The value of the first entry of an id. -/
def find (k : Nat) : List (Nat × α) → Option α
  | [] => none
  | (j, u) :: rest => if j = k then some u else find k rest

/-- The value of an id. -/
def get? (m : IdMap α) (k : Nat) : Option α := find k m.entries

/-- Whether an id has a value. -/
def contains (m : IdMap α) (k : Nat) : Bool := (m.get? k).isSome

/-- The values, by ascending id. -/
def values (m : IdMap α) : List α := m.entries.map (·.2)

/-- The number of values. -/
def size (m : IdMap α) : Nat := m.entries.length

/-- Puts an entry into its place, over the former one of that id. -/
def place (k : Nat) (v : α) : List (Nat × α) → List (Nat × α)
  | [] => [(k, v)]
  | (j, u) :: rest =>
    if k < j then (k, v) :: (j, u) :: rest
    else if k = j then (k, v) :: rest
    else (j, u) :: place k v rest

theorem mem_place {k : Nat} {v : α} {l : List (Nat × α)} {e : Nat × α} (member : e ∈ place k v l) :
    e = (k, v) ∨ e ∈ l := by
  induction l with
  | nil => simpa [place] using member
  | cons head rest ih =>
    rw [place] at member
    split at member
    · simpa using member
    · split at member
      · rcases List.mem_cons.mp member with same | later
        · exact .inl same
        · exact .inr (List.mem_cons_of_mem _ later)
      · rcases List.mem_cons.mp member with same | later
        · exact .inr (same ▸ List.mem_cons_self)
        · exact (ih later).imp_right (List.mem_cons_of_mem _)

theorem place_ascending {k : Nat} {v : α} {l : List (Nat × α)} (sorted : l.Pairwise fun a b => a.1 < b.1) :
    (place k v l).Pairwise fun a b => a.1 < b.1 := by
  induction l with
  | nil => simp [place]
  | cons head rest ih =>
    obtain ⟨below, tail⟩ := List.pairwise_cons.mp sorted
    rw [place]
    split
    · rename_i before
      refine List.pairwise_cons.mpr ⟨?_, sorted⟩
      intro e member
      rcases List.mem_cons.mp member with same | later
      · exact same ▸ before
      · exact Nat.lt_trans before (below e later)
    · split
      · rename_i same
        exact List.pairwise_cons.mpr ⟨fun e member => same ▸ below e member, tail⟩
      · refine List.pairwise_cons.mpr ⟨?_, ih tail⟩
        intro e member
        rcases mem_place member with same | later
        · rw [same]
          show head.1 < k
          omega
        · exact below e later

/-- Gives an id a value. -/
def insert (m : IdMap α) (k : Nat) (v : α) : IdMap α := ⟨place k v m.entries, place_ascending m.ascending⟩

/-- Takes the value of an id away. -/
def erase (m : IdMap α) (k : Nat) : IdMap α := ⟨m.entries.filter fun e => e.1 != k, m.ascending.filter _⟩

/-- Changes the value of an id, if it has one. -/
def modify (m : IdMap α) (k : Nat) (f : α → α) : IdMap α :=
  ⟨m.entries.map fun e => if e.1 = k then (e.1, f e.2) else e, by
    refine List.pairwise_map.mpr (m.ascending.imp ?_)
    intro a b less
    split <;> split <;> exact less⟩

@[ext] theorem ext_entries {m n : IdMap α} (same : m.entries = n.entries) : m = n := by
  cases m; cases n; cases same; rfl

@[simp] theorem get?_empty (k : Nat) : (empty : IdMap α).get? k = none := rfl

theorem find_place {k : Nat} {v : α} (j : Nat) (l : List (Nat × α)) :
    find j (place k v l) = if k = j then some v else find j l := by
  induction l with
  | nil => simp [place, find]
  | cons head rest ih =>
    obtain ⟨i, u⟩ := head
    rw [place]
    by_cases less : k < i
    · simp [less, find]
    · by_cases same : k = i
      · subst same
        by_cases here : k = j <;> simp [find, here]
      · by_cases here : i = j
        · subst here
          simp [less, same, find]
        · simp [less, same, find, here, ih]

theorem find_filter (k j : Nat) (l : List (Nat × α)) :
    find j (l.filter fun e => e.1 != k) = if k = j then none else find j l := by
  induction l with
  | nil => simp [find]
  | cons head rest ih =>
    obtain ⟨i, u⟩ := head
    by_cases gone : i = k
    · subst gone
      by_cases here : i = j <;> simp_all [find]
    · by_cases here : i = j
      · subst here
        simp [find, gone, Ne.symm gone]
      · simp [find, gone, here, ih]

theorem find_map (k j : Nat) (f : α → α) (l : List (Nat × α)) :
    find j (l.map fun e => if e.1 = k then (e.1, f e.2) else e) =
      if k = j then (find j l).map f else find j l := by
  induction l with
  | nil => simp [find]
  | cons head rest ih =>
    obtain ⟨i, u⟩ := head
    by_cases changed : i = k
    · subst changed
      by_cases here : i = j <;> simp_all [find]
    · by_cases here : i = j
      · subst here
        simp [find, changed, Ne.symm changed]
      · simp [find, changed, here, ih]

@[simp] theorem get?_insert (m : IdMap α) (k j : Nat) (v : α) :
    (m.insert k v).get? j = if k = j then some v else m.get? j := find_place j m.entries

@[simp] theorem get?_erase (m : IdMap α) (k j : Nat) :
    (m.erase k).get? j = if k = j then none else m.get? j := find_filter k j m.entries

@[simp] theorem get?_modify (m : IdMap α) (k j : Nat) (f : α → α) :
    (m.modify k f).get? j = if k = j then (m.get? j).map f else m.get? j := find_map k j f m.entries

end IdMap
end Playfield
