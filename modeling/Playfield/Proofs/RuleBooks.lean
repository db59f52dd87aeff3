import Playfield.Project
import Playfield.Proofs.Checked
import Playfield.Proofs.Tables

/-!
# Rule books that grow

A book lists its rules by ascending id. The next id of a book lies past all ids that it has ever used, so a new rule comes
last.
-/
namespace Playfield

theorem IdMap.place_eq_append {α : Type} {k : Nat} {v : α} {l : List (Nat × α)} (past : ∀ e ∈ l, e.1 < k) :
    place k v l = l ++ [(k, v)] := by
  induction l with
  | nil => rfl
  | cons head rest ih =>
    have below := past head List.mem_cons_self
    have others := ih fun e member => past e (List.mem_cons_of_mem _ member)
    have apart : k ≠ head.1 := Nat.ne_of_gt below
    simp [place, Nat.not_lt.mpr (Nat.le_of_lt below), apart, others]

namespace RuleBook

section

variable {δ : Type}

/-- The next id lies past every id that has a rule or had one. -/
def Bounded (b : RuleBook δ) : Prop := ∀ e ∈ b.slots.entries, e.1 < b.next

theorem bounded_empty : (empty : RuleBook δ).Bounded := by
  intro e member
  cases member

theorem mem_toList {b : RuleBook δ} {id : RuleId} {rule : Rule δ} : (id, rule) ∈ b.toList ↔ b.get? id = some rule := by
  obtain ⟨k⟩ := id
  rw [toList, List.mem_filterMap, get?, Option.join_eq_some_iff]
  constructor
  · rintro ⟨⟨j, slot⟩, member, shown⟩
    obtain ⟨r, live, same⟩ := Option.map_eq_some_iff.mp shown
    cases same
    cases live
    exact IdMap.mem_entries.mp member
  · intro found
    exact ⟨(k, some rule), IdMap.mem_entries.mpr found, rfl⟩

/-- The rules are listed in ascending order of their ids. -/
theorem toList_ascending (b : RuleBook δ) : b.toList.Pairwise fun a c => a.1.raw < c.1.raw := by
  rw [RuleBook.toList, List.pairwise_filterMap]
  refine b.slots.ascending.imp ?_
  intro a c less x first y second
  obtain ⟨_, _, rfl⟩ := Option.map_eq_some_iff.mp first
  obtain ⟨_, _, rfl⟩ := Option.map_eq_some_iff.mp second
  exact less

/-- Rule books that have the same at every id once their rules are changed list the same. -/
theorem toList_map_congr {α : Type} {b d : RuleBook δ} {f : Rule δ → α}
    (same : ∀ id, (b.get? id).map f = (d.get? id).map f) :
    (b.toList.map fun e => (e.1, f e.2)) = d.toList.map fun e => (e.1, f e.2) := by
  have ascending (b : RuleBook δ) : (b.toList.map fun e => (e.1, f e.2)).Pairwise fun a c => a.1.raw < c.1.raw :=
    List.pairwise_map.mpr b.toList_ascending
  have nodup (b : RuleBook δ) : (b.toList.map fun e => (e.1, f e.2)).Nodup :=
    (ascending b).imp fun less eq => by simp [eq] at less
  have listed (b : RuleBook δ) (id : RuleId) (a : α) :
      (id, a) ∈ (b.toList.map fun e => (e.1, f e.2)) ↔ (b.get? id).map f = some a := by
    rw [List.mem_map, Option.map_eq_some_iff]
    constructor
    · rintro ⟨⟨_, r⟩, member, image⟩
      cases image
      exact ⟨r, mem_toList.mp member, rfl⟩
    · rintro ⟨r, found, rfl⟩
      exact ⟨(id, r), mem_toList.mpr found, rfl⟩
  have perm : (b.toList.map fun e => (e.1, f e.2)).Perm (d.toList.map fun e => (e.1, f e.2)) := by
    refine (List.perm_ext_iff_of_nodup (nodup b) (nodup d)).mpr ?_
    rintro ⟨id, a⟩
    rw [listed, listed, same]
  refine perm.eq_of_pairwise ?_ (ascending b) (ascending d)
  intro a c _ _ less more
  omega

theorem push_eq_some {b c : RuleBook δ} {rule : Rule δ} {id : RuleId} (pushed : b.push rule = some (id, c)) :
    id = ⟨b.next⟩ ∧ c = ⟨b.slots.insert b.next (some rule), b.next + 1⟩ := by
  rw [push] at pushed
  split at pushed
  · cases pushed
  · cases pushed
    exact ⟨rfl, rfl⟩

variable {b c : RuleBook δ} {rule : Rule δ} {id : RuleId}

theorem Bounded.entries_push (bounded : b.Bounded) (pushed : b.push rule = some (id, c)) :
    c.slots.entries = b.slots.entries ++ [(b.next, some rule)] := by
  obtain ⟨_, rfl⟩ := push_eq_some pushed
  exact IdMap.place_eq_append bounded

theorem Bounded.push (bounded : b.Bounded) (pushed : b.push rule = some (id, c)) : c.Bounded := by
  have entries := bounded.entries_push pushed
  obtain ⟨_, rfl⟩ := push_eq_some pushed
  intro e member
  rw [entries] at member
  rcases List.mem_append.mp member with old | new
  · exact Nat.lt_succ_of_lt (bounded e old)
  · obtain rfl := List.mem_singleton.mp new
    exact Nat.lt_succ_self _

/-- A new rule comes last. -/
theorem Bounded.toList_push (bounded : b.Bounded) (pushed : b.push rule = some (id, c)) :
    c.toList = b.toList ++ [(⟨b.next⟩, rule)] := by
  rw [toList, bounded.entries_push pushed, List.filterMap_append, toList]
  rfl

/-- There is no rule to replace. -/
theorem set_of_get?_eq_none (absent : b.get? id = none) (rule : Rule δ) : b.set id rule = b := by
  have same : b.slots.modify id.raw (fun slot => slot.map fun _ => rule) = b.slots := by
    refine IdMap.ext_get? fun k => ?_
    rw [IdMap.get?_modify]
    by_cases here : id.raw = k
    · subst here
      rw [get?] at absent
      match found : b.slots.get? id.raw with
      | some (some former) => simp [found] at absent
      | some none => simp
      | none => simp
    · simp [here]
  rw [set, same]

end
end RuleBook

namespace Project

theorem addRule_eq_ok {δ : Type} {p q : Project δ} {rule : Rule δ} {id : RuleId} (added : p.addRule rule = .ok (id, q)) :
    q.config = p.config ∧ p.rules.push rule = some (id, q.rules) := by
  rw [addRule] at added
  split at added
  · rename_i pushed
    cases added
    exact ⟨rfl, pushed⟩
  · cases added

/-- Adds rules one after the other. -/
def addRules (p : Project) (rules : List Rule) : Except ProjectError Project :=
  rules.foldlM (fun p rule => return (← p.addRule rule).2) p

theorem addRules_cons {p q : Project} {rule : Rule} {rest : List Rule} (added : p.addRules (rule :: rest) = .ok q) :
    ∃ id r, p.addRule rule = .ok (id, r) ∧ r.addRules rest = .ok q := by
  rw [addRules, List.foldlM_cons] at added
  obtain ⟨r, first, later⟩ := bind_eq_ok.mp added
  obtain ⟨⟨id, s⟩, one, same⟩ := bind_eq_ok.mp first
  cases pure_eq_ok.mp same
  exact ⟨id, s, one, later⟩

/-- Rules that are added have consecutive ids, in their order, after those that were there. -/
theorem toList_addRules {p q : Project} {rules : List Rule} (bounded : p.rules.Bounded)
    (added : p.addRules rules = .ok q) : q.config = p.config ∧
      q.rules.toList = p.rules.toList ++ (rules.zipIdx p.rules.next).map fun e => (⟨e.2⟩, e.1) := by
  induction rules generalizing p with
  | nil =>
    cases pure_eq_ok.mp added
    exact ⟨rfl, (List.append_nil _).symm⟩
  | cons rule rest ih =>
    obtain ⟨id, r, one, others⟩ := addRules_cons added
    obtain ⟨config, pushed⟩ := addRule_eq_ok one
    obtain ⟨same, listed⟩ := ih (bounded.push pushed) others
    have next : r.rules.next = p.rules.next + 1 := by rw [(RuleBook.push_eq_some pushed).2]
    refine ⟨same.trans config, ?_⟩
    rw [listed, bounded.toList_push pushed, next, List.zipIdx_cons, List.map_cons, List.append_assoc,
      List.singleton_append]

end Project
end Playfield
