import Mathlib.Data.List.Forall2
import Playfield.Proofs.Authoring
import Playfield.Proofs.Mending

/-!
# Saving and loading

A project is saved as the records of its rules, and loaded by importing them into a new project. What is loaded has
the rules as records keep them, under the same ids, whether or not all tables of demands were in order.
-/
namespace Playfield

/-- A list is mapped place by place. -/
theorem forall₂_of_mapM {ε α β : Type} {f : α → Except ε β} {l : List α} {images : List β}
    (mapped : l.mapM f = .ok images) : List.Forall₂ (fun a b => a ∈ l ∧ f a = .ok b) l images := by
  induction l generalizing images with
  | nil =>
    cases pure_eq_ok.mp mapped
    exact .nil
  | cons a rest ih =>
    rw [List.mapM_cons] at mapped
    obtain ⟨b, first, mapped⟩ := bind_eq_ok.mp mapped
    obtain ⟨others, later, done⟩ := bind_eq_ok.mp mapped
    cases pure_eq_ok.mp done
    exact .cons ⟨List.mem_cons_self, first⟩ ((ih later).imp fun _ _ found => found.imp_left (List.mem_cons_of_mem _))

namespace Project

/-- Imports records one after the other. -/
def importAll (p : Project) (records : List (RuleId × List UInt8)) : Except (Failure ProjectError) Project :=
  records.foldlM (fun p e => p.importRule e.1 e.2) p

theorem mem_toList {δ : Type} {p : Project δ} {id : RuleId} {rule : Rule δ} :
    (id, rule) ∈ p.rules.toList ↔ p.rule? id = some rule := RuleBook.mem_toList

variable {p q : Project}

/-- A record for an id past all others is put last. -/
theorem importRule_past {id : RuleId} {bytes : List UInt8} {rule : Rule}
    (past : ∀ e ∈ p.rules.slots.entries, e.1 < id.raw) (below : id.raw < RuleId.last.raw)
    (decoded : Record.decode bytes p.kinds = .ok rule) :
    ∃ q, p.importRule id bytes = .ok q ∧ q.config = p.config ∧
      q.rules.slots.entries = p.rules.slots.entries ++ [(id.raw, some rule)] := by
  have free : p.rules.slots.contains id.raw = false := by
    rw [IdMap.contains, Option.isSome_eq_false_iff, Option.isNone_iff_eq_none, Option.eq_none_iff_forall_ne_some]
    intro slot found
    exact Nat.lt_irrefl _ (past _ (IdMap.mem_entries.mpr found))
  have inserted : p.rules.insertAt id rule =
      some ⟨p.rules.slots.insert id.raw (some rule), max p.rules.next (id.raw + 1)⟩ :=
    if_pos ⟨below, by rw [free]; rfl⟩
  refine ⟨⟨p.config, ⟨p.rules.slots.insert id.raw (some rule), max p.rules.next (id.raw + 1)⟩⟩, ?_, rfl,
    IdMap.place_eq_append past⟩
  rw [importRule, if_neg (Nat.not_le.mpr below), decoded, Except.mapError, ok_bind, inserted]
  rfl

/-- Records that are imported in ascending order of ids, all past those in use, add their rules in that order. -/
theorem importAll_past {kinds : Kinds} {rules : List (RuleId × Rule)} {records : List (RuleId × List UInt8)}
    (decoded : List.Forall₂ (fun e d => d.1 = e.1 ∧ Record.decode d.2 kinds = .ok e.2) rules records)
    (ascending : rules.Pairwise fun a c => a.1.raw < c.1.raw) (below : ∀ d ∈ rules, d.1.raw < RuleId.last.raw)
    (same : p.kinds = kinds) (past : ∀ e ∈ p.rules.slots.entries, ∀ d ∈ rules, e.1 < d.1.raw) :
    ∃ q, p.importAll records = .ok q ∧ q.config = p.config ∧ q.rules.toList = p.rules.toList ++ rules := by
  -- What is imported next is past all that was imported, so that the table only grows at its end.
  induction decoded generalizing p with
  | nil => exact ⟨p, rfl, rfl, (List.append_nil _).symm⟩
  | @cons e d rules records first _ ih =>
    obtain ⟨id, bytes⟩ := d
    obtain ⟨rfl, decoded⟩ := first
    obtain ⟨least, ascending⟩ := List.pairwise_cons.mp ascending
    obtain ⟨low, below⟩ := List.forall_mem_cons.mp below
    obtain ⟨r, imported, config, entries⟩ := importRule_past
      (fun old member => past old member e List.mem_cons_self) low (same ▸ decoded)
    have past' : ∀ old ∈ r.rules.slots.entries, ∀ d ∈ rules, old.1 < d.1.raw := by
      intro old member d later
      rw [entries] at member
      rcases List.mem_append.mp member with before | last
      · exact past old before d (List.mem_cons_of_mem _ later)
      · rw [List.mem_singleton.mp last]
        exact least d later
    obtain ⟨q, others, config', listed⟩ := ih ascending below ((congrArg ProjectConfig.kinds config).trans same) past'
    refine ⟨q, ?_, config'.trans config, ?_⟩
    · rw [importAll, List.foldlM_cons, imported]
      exact others
    · rw [listed, RuleBook.toList, entries, List.filterMap_append, RuleBook.toList, List.append_assoc]
      rfl

section

variable {δ : Type} [Packed δ] {u : Project δ}

/-- What is saved can be loaded, and then has every rule as its record keeps it. -/
theorem exists_reload (issued : u.rules.Issued)
    (packed : ∀ id r, u.rule? id = some r →
      r.Sized ∧ (r.busy.map (·.cell)).Nodup ∧ ∃ bytes, Record.encode r u.kinds = .ok bytes) :
    ∃ records q, u.exportRules = .ok records ∧ (new u.config).importAll records = .ok q ∧ q.config = u.config ∧
      q.rules.toList = u.rules.toList.map fun e => (e.1, e.2.loaded) := by
  have live {e : RuleId × Rule δ} (member : e ∈ u.rules.toList) : u.rule? e.1 = some e.2 := mem_toList.mp member
  obtain ⟨records, exported⟩ : ∃ records, u.exportRules = .ok records := by
    refine exists_mapM_eq_ok fun e member => ?_
    obtain ⟨_, _, bytes, encoded⟩ := packed e.1 e.2 (live member)
    exact ⟨(e.1, bytes), by rw [encoded]; rfl⟩
  have decoded : List.Forall₂ (fun e d => d.1 = e.1 ∧ Record.decode d.2 u.kinds = .ok e.2)
      (u.rules.toList.map fun e => (e.1, e.2.loaded)) records := by
    refine List.forall₂_map_left_iff.mpr ((forall₂_of_mapM exported).imp ?_)
    rintro e d ⟨member, saved⟩
    obtain ⟨bytes, encoded, done⟩ := bind_eq_ok.mp saved
    cases pure_eq_ok.mp done
    obtain ⟨whole, distinct, _⟩ := packed e.1 e.2 (live member)
    exact ⟨rfl, (Record.decode_of_encode_sized whole encoded distinct).1⟩
  have ascending : (u.rules.toList.map fun e => (e.1, e.2.loaded)).Pairwise fun a c => a.1.raw < c.1.raw :=
    List.pairwise_map.mpr u.rules.toList_ascending
  have below : ∀ d ∈ u.rules.toList.map fun e => (e.1, e.2.loaded), d.1.raw < RuleId.last.raw := by
    intro d member
    obtain ⟨e, listed, rfl⟩ := List.mem_map.mp member
    have found : u.rule? e.1 = some e.2 := live listed
    exact issued.lt_last found
  obtain ⟨q, imported, config, listed⟩ := importAll_past (p := new u.config) decoded ascending below rfl nofun
  exact ⟨records, q, exported, imported, config, listed⟩

omit [Packed δ] in
theorem rule?_of_toList {f : Rule δ → Rule} (listed : q.rules.toList = u.rules.toList.map fun e => (e.1, f e.2))
    (id : RuleId) :
    q.rule? id = (u.rule? id).map f := by
  apply Option.ext
  intro r
  rw [Option.map_eq_some_iff, ← mem_toList, listed, List.mem_map]
  constructor
  · rintro ⟨⟨_, s⟩, member, same⟩
    cases same
    exact ⟨s, mem_toList.mp member, rfl⟩
  · rintro ⟨s, found, rfl⟩
    exact ⟨(id, s), mem_toList.mpr found, rfl⟩

end

theorem exists_reload_authored (reached : p.Reached Operation.Authoring)
    (short : ∀ id r, p.rule? id = some r → (Record.layout r.stripped).length < Word.full.reach) :
    ∃ records q, p.exportRules = .ok records ∧ (new p.config).importAll records = .ok q ∧ q.config = p.config ∧
      q.rules.toList = p.rules.toList.map fun e => (e.1, e.2.stored) := by
  simp only [← Rule.loaded_eq_stored]
  refine exists_reload reached.issued fun id r found => ?_
  have authored := reached.authored id r found
  exact ⟨r.sized, authored.busy_distinct, _, authored.encode_eq (short id r found)⟩

/-- Every project that is authored can be saved, as long as no record is longer than a buffer may be, and loaded. At
    every id it then has the rule as its record keeps it: without the idle clauses, and with the lowest four bits of
    the argument. A rule with an argument of four bits is unchanged up to the idle clauses. -/
theorem reload_authored (reached : p.Reached Operation.Authoring)
    (short : ∀ id r, p.rule? id = some r → (Record.layout r.stripped).length < Word.full.reach) :
    ∃ records q, p.exportRules = .ok records ∧ (new p.config).importAll records = .ok q ∧
      (∀ id, q.rule? id = (p.rule? id).map Rule.stored) ∧
      ∀ id r, p.rule? id = some r → r.arg.toNat < 16 → q.rule? id = some r.stripped := by
  obtain ⟨records, q, exported, imported, _, listed⟩ := exists_reload_authored reached short
  have kept := rule?_of_toList listed
  refine ⟨records, q, exported, imported, kept, ?_⟩
  intro id r found small
  rw [kept, found, Option.map_some, Rule.stored_of_arg_lt small]

/-- A rule for the only sprite kind is made, with a byte for a button. -/
def driven (byte : UInt8) : Except (Failure ProjectError) Project :=
  Operation.run (new ⟨⟨1, 1⟩, none⟩) (.make 0 .button byte)

theorem reached_driven {byte : UInt8} (made : driven byte = .ok p) : p.Reached Operation.Authoring := by
  have allowed : Operation.Authoring (.make 0 .button byte) := trivial
  exact .next (.new _) allowed made

theorem short_driven (byte : UInt8) : ∃ p rule, driven byte = .ok p ∧ p.rule? ⟨0⟩ = some rule ∧
    rule.trigger = .button ∧ rule.arg = byte ∧
    ∀ id r, p.rule? id = some r → (Record.layout r.stripped).length < Word.full.reach := by
  obtain ⟨p, rule, made, only, trigger, arg, length⟩ : ∃ p rule, driven byte = .ok p ∧ p.rules.toList = [(⟨0⟩, rule)] ∧
      rule.trigger = .button ∧ rule.arg = byte ∧ (Record.layout rule.stripped).length = 6 :=
    ⟨_, _, rfl, rfl, rfl, rfl, rfl⟩
  refine ⟨p, rule, made, mem_toList.mp (only ▸ List.mem_singleton_self _), trigger, arg, ?_⟩
  intro id r found
  rw [← mem_toList, only, List.mem_singleton] at found
  cases found
  rw [length]
  decide

theorem reload_driven : ∃ p q records, driven 3 = .ok p ∧ p.exportRules = .ok records ∧
    (new p.config).importAll records = .ok q ∧ (q.rule? ⟨0⟩).map (·.arg) = some 3 := by
  obtain ⟨p, rule, made, found, _, three, short⟩ := short_driven 3
  obtain ⟨records, q, exported, imported, _, same⟩ := reload_authored (reached_driven made) short
  refine ⟨p, q, records, made, exported, imported, ?_⟩
  rw [same _ _ found (by rw [three]; decide)]
  exact congrArg some three

/-- An argument of more than four bits is not kept: a button that is none becomes an arrow. -/
theorem reload_loses_arg : ∃ (p q : Project) (records : List (RuleId × List UInt8)) (rule other : Rule),
    driven 16 = .ok p ∧ p.Reached Operation.Authoring ∧ p.exportRules = .ok records ∧
    (new p.config).importAll records = .ok q ∧ p.rule? ⟨0⟩ = some rule ∧ q.rule? ⟨0⟩ = some other ∧
    rule.arg = 16 ∧ (View.base rule ⟨0⟩ p.kinds).button? = none ∧
    other.arg = 0 ∧ (View.base other ⟨0⟩ q.kinds).button? = some (.arrow .left) := by
  obtain ⟨p, rule, made, found, trigger, arg, short⟩ := short_driven 16
  have reached := reached_driven made
  obtain ⟨records, q, exported, imported, _, listed⟩ := exists_reload_authored reached short
  have kept : q.rule? ⟨0⟩ = some rule.stored := by rw [rule?_of_toList listed, found, Option.map_some]
  have lost : rule.stored.arg = 0 := by
    show rule.arg % 16 = 0
    rw [arg]
    decide
  have button : (View.base rule ⟨0⟩ p.kinds).button? = (ofCode? rule.arg : Option Button) := by
    simp [View.button?, View.base, View.arg, trigger]
  have button' : (View.base rule.stored ⟨0⟩ q.kinds).button? = (ofCode? rule.stored.arg : Option Button) := by
    simp [View.button?, View.base, View.arg, Rule.stored, Rule.stripped, trigger]
  refine ⟨p, q, records, rule, rule.stored, made, reached, exported, imported, found, kept, arg, ?_, lost, ?_⟩
  · rw [button, arg]
    rfl
  · rw [button', lost]
    rfl

end Project
end Playfield
