import Playfield.Proofs.Ceilings
import Playfield.Proofs.Histories
import Playfield.Proofs.Reload

/-!
# The order of loading

Each import changes the next id and takes up an id, and what it is refused for hangs on both. Yet imports that succeed
succeed in any order and lead to the same project. So what is saved may be loaded in any order. It is then saved as it was
unless a table of demands that was read from a document had bits set past its last kind: the first record keeps them, and
reading it clears them.
-/
namespace Playfield

theorem IdMap.insert_comm {α : Type} (m : IdMap α) {j k : Nat} (differ : j ≠ k) (u v : α) :
    (m.insert j u).insert k v = (m.insert k v).insert j u := by
  apply IdMap.ext_get?
  intro i
  simp only [IdMap.get?_insert]
  by_cases first : j = i
  · have second : k ≠ i := fun same => differ (first.trans same.symm)
    simp [first, second]
  · simp [first]

/-- The next id is the first one, or follows upon the id of a rule. -/
def RuleBook.Tight (b : RuleBook) : Prop := b.next = 0 ∨ ∃ id rule, b.get? id = some rule ∧ b.next = id.raw + 1

namespace Project

variable {p q r : Project} {id j : RuleId} {bytes others : List UInt8} {records permuted : List (RuleId × List UInt8)}

/-! ### Two imports -/

/-- Two imports can be made the other way round. -/
theorem importRule_comm (first : p.importRule id bytes = .ok r) (second : r.importRule j others = .ok q) :
    ∃ s, p.importRule j others = .ok s ∧ s.importRule id bytes = .ok q := by
  obtain ⟨⟨low, vacant⟩, rule, decoded, rfl⟩ := importRule_eq_ok_iff.mp first
  obtain ⟨⟨low', vacant'⟩, rule', decoded', rfl⟩ := importRule_eq_ok_iff.mp second
  rw [stage, RuleBook.slotAt_insert] at vacant'
  by_cases same : j = id
  · rw [if_pos same] at vacant'
    cases vacant'
  · rw [if_neg same] at vacant'
    refine ⟨_, importRule_eq_ok_iff.mpr ⟨⟨low', vacant'⟩, rule', decoded', rfl⟩,
      importRule_eq_ok_iff.mpr ⟨⟨low, ?_⟩, rule, decoded, ?_⟩⟩
    · rw [stage, RuleBook.slotAt_insert, if_neg (Ne.symm same)]
      exact vacant
    · have apart : id.raw ≠ j.raw := fun eq => same (congrArg RuleId.mk eq.symm)
      simp only [IdMap.insert_comm _ apart, Nat.max_right_comm]

/-! ### Any number of imports -/

theorem importAll_cons {e : RuleId × List UInt8} :
    p.importAll (e :: records) = .ok q ↔ ∃ r, p.importRule e.1 e.2 = .ok r ∧ r.importAll records = .ok q := by
  rw [importAll, List.foldlM_cons, bind_eq_ok]
  rfl

/-- Imports that succeed succeed in any order, and with the same outcome. -/
theorem importAll_perm (perm : records.Perm permuted) (imported : p.importAll records = .ok q) :
    p.importAll permuted = .ok q := by
  induction perm generalizing p with
  | nil => exact imported
  | cons e _ ih =>
    obtain ⟨r, first, later⟩ := importAll_cons.mp imported
    exact importAll_cons.mpr ⟨r, first, ih later⟩
  | swap d e rest =>
    obtain ⟨r, first, later⟩ := importAll_cons.mp imported
    obtain ⟨s, second, later⟩ := importAll_cons.mp later
    obtain ⟨t, second, first⟩ := importRule_comm first second
    exact importAll_cons.mpr ⟨t, second, importAll_cons.mpr ⟨s, first, later⟩⟩
  | trans _ _ ih ih' => exact ih' (ih imported)

/-- What every import keeps is kept by any number of them. -/
theorem importAll_induction {P : Project → Prop}
    (step : ∀ p q id bytes, P p → p.importRule id bytes = .ok q → P q) (start : P p)
    (imported : p.importAll records = .ok q) : P q := by
  induction records generalizing p with
  | nil =>
    cases pure_eq_ok.mp imported
    exact start
  | cons e rest ih =>
    obtain ⟨r, first, later⟩ := importAll_cons.mp imported
    exact ih (step _ _ _ _ start first) later

/-! ### The next id -/

theorem tight_importRule (tight : p.rules.Tight) (imported : p.importRule id bytes = .ok q) : q.rules.Tight := by
  obtain ⟨⟨_, vacant⟩, rule, _, rfl⟩ := importRule_eq_ok_iff.mp imported
  right
  dsimp only
  rcases Nat.le_total p.rules.next (id.raw + 1) with before | behind
  · refine ⟨id, rule, ?_, Nat.max_eq_right before⟩
    simp [RuleBook.get?]
  · rcases tight with zero | ⟨last, former, found, next⟩
    · omega
    · refine ⟨last, former, ?_, by rw [Nat.max_eq_left behind, next]⟩
      have apart : id.raw ≠ last.raw := by
        rintro same
        have unused : p.rules.slots.contains id.raw = false := RuleBook.stage_vacant_iff.mp vacant
        rw [RuleBook.get?, Option.join_eq_some_iff, ← same] at found
        simp [IdMap.contains, found] at unused
      rw [RuleBook.get?, IdMap.get?_insert, if_neg apart]
      exact found

/-- In a project into which rules have only been imported the next id follows upon the greatest one in use. -/
theorem next_of_importAll {config : ProjectConfig} (imported : (new config).importAll records = .ok q) :
    q.rules.next = ((q.ruleIds.map RuleId.raw).max?.map (· + 1)).getD 0 := by
  have kept : q.rules.Issued ∧ q.rules.Tight := by
    refine importAll_induction (P := fun p => p.rules.Issued ∧ p.rules.Tight) ?_ ⟨RuleBook.issued_empty, .inl rfl⟩ imported
    rintro p q id bytes ⟨issued, tight⟩ imported
    obtain ⟨_, _, inserted, _⟩ := importRule_eq_ok imported
    exact ⟨issued.insertAt inserted, tight_importRule tight imported⟩
  obtain ⟨issued, tight⟩ := kept
  have live {id : RuleId} : id ∈ q.ruleIds ↔ ∃ rule, q.rules.get? id = some rule := by
    rw [ruleIds, List.mem_map]
    constructor
    · rintro ⟨⟨_, rule⟩, member, rfl⟩
      exact ⟨rule, mem_toList.mp member⟩
    · rintro ⟨rule, found⟩
      exact ⟨(id, rule), mem_toList.mpr found, rfl⟩
  have below {n : Nat} (member : n ∈ q.ruleIds.map RuleId.raw) : n < q.rules.next := by
    obtain ⟨id, used, rfl⟩ := List.mem_map.mp member
    obtain ⟨rule, found⟩ := live.mp used
    exact issued.bounded (id.raw, some rule) (IdMap.mem_entries.mpr (Option.join_eq_some_iff.mp found))
  rcases tight with zero | ⟨last, rule, found, next⟩
  · have nothing : q.ruleIds.map RuleId.raw = [] := by
      rw [List.eq_nil_iff_forall_not_mem]
      intro n member
      have := below member
      omega
    rw [nothing, zero]
    rfl
  · have greatest : (q.ruleIds.map RuleId.raw).max? = some last.raw := by
      rw [List.max?_eq_some_iff]
      refine ⟨List.mem_map.mpr ⟨last, live.mpr ⟨rule, found⟩, rfl⟩, fun n member => ?_⟩
      have := below member
      omega
    rw [greatest, next]
    rfl

end Project

/-! ### Books of any rules -/

/-- The books that come about by any operations, with any rules. A rule that is drafted or decoded is added or put at an id, and
    one that is edited is replaced. -/
inductive RuleBook.Built {δ : Type} : RuleBook δ → Prop
  | empty : Built .empty
  | push {b c : RuleBook δ} {rule : Rule δ} {id : RuleId} : Built b → b.push rule = some (id, c) → Built c
  | insert {b c : RuleBook δ} {rule : Rule δ} {id : RuleId} : Built b → b.insertAt id rule = some c → Built c
  | set {b : RuleBook δ} (id : RuleId) (rule : Rule δ) : Built b → Built (b.set id rule)
  | remove {b : RuleBook δ} (id : RuleId) : Built b → Built (b.remove id).2

theorem RuleBook.Built.issued {δ : Type} {b : RuleBook δ} (built : b.Built) : b.Issued := by
  induction built with
  | empty => exact issued_empty
  | push _ pushed issued => exact issued.push pushed
  | insert _ inserted issued => exact issued.insertAt inserted
  | set id rule _ issued => exact issued.set id rule
  | remove id _ issued => exact issued.remove id

/-- Every project that is reached has such a book. -/
theorem Project.Reached.built {p : Project} {allowed : Operation → Prop} (reached : p.Reached allowed) : p.rules.Built := by
  induction reached with
  | new config => exact .empty
  | next _ _ ran built =>
    obtain ⟨_, same | ⟨id, removed⟩ | ⟨id, rule, _, pushed | inserted | replaced⟩⟩ := run_cases ran
    · exact same ▸ built
    · exact removed ▸ built.remove id
    · exact built.push pushed
    · exact built.insert inserted
    · exact replaced ▸ built.set id rule

namespace Project

variable {δ : Type} [Packed δ] {p : Project δ}

/-! ### Records of records -/

/-- The records of rules, and those of the rules that are read from them. -/
theorem exists_records (kinds : Kinds) {rules : List (RuleId × Rule δ)}
    (packed : ∀ e ∈ rules, e.2.Sized ∧ (e.2.busy.map (·.cell)).Nodup ∧ ∃ bytes, Record.encode e.2 kinds = .ok bytes) :
    ∃ records again, (rules.mapM fun e => return (e.1, ← Record.encode e.2 kinds)) = .ok records ∧
      ((rules.map fun e => (e.1, e.2.loaded)).mapM fun e => return (e.1, ← Record.encode e.2 kinds)) = .ok again ∧
      (again = records ↔ ∀ e ∈ rules, e.2.Padded) := by
  induction rules with
  | nil => exact ⟨[], [], rfl, rfl, by simp⟩
  | cons e rest ih =>
    obtain ⟨⟨whole, distinct, bytes, encoded⟩, packed⟩ := List.forall_mem_cons.mp packed
    obtain ⟨records, again, first, second, same⟩ := ih packed
    obtain ⟨_, others, encoded', same'⟩ := Record.decode_of_encode_sized whole encoded distinct
    refine ⟨(e.1, bytes) :: records, (e.1, others) :: again, ?_, ?_, ?_⟩
    · rw [List.mapM_cons, encoded, first]
      rfl
    · rw [List.map_cons, List.mapM_cons, encoded', second]
      rfl
    · rw [List.forall_mem_cons, ← same, ← same', List.cons.injEq, Prod.mk.injEq]
      simp

/-- A project all of whose rules can be packed, each with its clauses that are not idle apart, is saved as records, and records
    that can be loaded can be loaded in any order, to the same project. They can be loaded if the tables of demands have as many
    bytes as it takes. The project that is loaded then has the rules as the records keep them under the same ids, and its next id
    follows upon the greatest of these. It is saved as the same records exactly if no table had bits set past its last kind. -/
theorem reload_of_perm (built : p.rules.Built)
    (packable : ∀ id r, p.rule? id = some r →
      (r.busy.map (·.cell)).Nodup ∧ ∃ bytes, Record.encode r p.kinds = .ok bytes) :
    ∃ records, p.exportRules = .ok records ∧
      (∀ permuted q, permuted.Perm records → (new p.config).importAll records = .ok q →
        (new p.config).importAll permuted = .ok q) ∧
      ((∀ id r, p.rule? id = some r → r.Sized) → ∃ q again,
        (∀ permuted, permuted.Perm records → (new p.config).importAll permuted = .ok q) ∧
        q.config = p.config ∧ q.ruleIds = p.ruleIds ∧
        q.rules.next = ((p.ruleIds.map RuleId.raw).max?.map (· + 1)).getD 0 ∧
        (∀ id, q.rule? id = (p.rule? id).map Rule.loaded) ∧ q.exportRules = .ok again ∧
        (again = records ↔ ∀ id r, p.rule? id = some r → r.Padded)) := by
  obtain ⟨records, exported⟩ : ∃ records, p.exportRules = .ok records := by
    refine exists_mapM_eq_ok fun e member => ?_
    obtain ⟨_, bytes, encoded⟩ := packable e.1 e.2 (mem_toList.mp member)
    exact ⟨(e.1, bytes), by rw [encoded]; rfl⟩
  refine ⟨records, exported, fun permuted q perm imported => importAll_perm perm.symm imported, fun whole => ?_⟩
  obtain ⟨loaded, q, exported', imported, config, listed⟩ :=
    exists_reload built.issued fun id r found => ⟨whole id r found, packable id r found⟩
  cases exported.symm.trans exported'
  -- What is loaded has no bits set past the last kinds, so the records are compared rule by rule.
  obtain ⟨records', again, first, second, same⟩ := exists_records p.kinds fun e member =>
    ⟨whole e.1 e.2 (mem_toList.mp member), packable e.1 e.2 (mem_toList.mp member)⟩
  cases exported.symm.trans first
  have ids : q.ruleIds = p.ruleIds := by
    rw [ruleIds, ruleIds, listed, List.map_map]
    rfl
  have kinds : q.kinds = p.kinds := congrArg ProjectConfig.kinds config
  refine ⟨q, again, fun permuted perm => importAll_perm perm.symm imported, config, ids, ?_, rule?_of_toList listed, ?_, ?_⟩
  · rw [next_of_importAll imported, ids]
  · rw [exportRules, listed, kinds]
    exact second
  · rw [same]
    constructor
    · intro padded id r found
      exact padded (id, r) (mem_toList.mpr found)
    · intro padded e member
      exact padded e.1 e.2 (mem_toList.mp member)

/-- A project with two rules as documents may have them, past a gap the second, whose table of demands has bits set past the
    only kind. -/
def smudged : Project RawDemands where
  config := ⟨⟨1, 1⟩, none⟩
  rules := ⟨⟨[(0, some (Record.misprint [1])), (4, some (Record.misprint [253]))], by decide⟩, 5⟩

theorem built_smudged : smudged.rules.Built := by
  have first : RuleBook.Built ⟨⟨[(0, some (Record.misprint [1]))], by decide⟩, 1⟩ := .push .empty rfl
  have second : RuleBook.insertAt ⟨⟨[(0, some (Record.misprint [1]))], by decide⟩, 1⟩ ⟨4⟩ (Record.misprint [253]) =
      some smudged.rules := rfl
  exact .insert first second

theorem reload_of_perm_smudged : ∃ records q again, smudged.exportRules = .ok records ∧
    (new smudged.config).importAll records.reverse = .ok q ∧ q.ruleIds = [⟨0⟩, ⟨4⟩] ∧ q.rules.next = 5 ∧
    q.exportRules = .ok again ∧ again ≠ records := by
  have each : ∀ e ∈ smudged.rules.toList,
      e.2.Sized ∧ (e.2.busy.map (·.cell)).Nodup ∧ (Record.encode e.2 smudged.kinds).isOk := by decide +kernel
  have packable : ∀ id r, smudged.rule? id = some r →
      (r.busy.map (·.cell)).Nodup ∧ ∃ bytes, Record.encode r smudged.kinds = .ok bytes := by
    intro id r found
    obtain ⟨_, apart, packed⟩ := each (id, r) (mem_toList.mpr found)
    refine ⟨apart, ?_⟩
    cases encoded : Record.encode r smudged.kinds with
    | ok bytes => exact ⟨bytes, rfl⟩
    | error cause => simp [encoded, Except.isOk, Except.toBool] at packed
  have ids : smudged.ruleIds = [⟨0⟩, ⟨4⟩] := by decide +kernel
  obtain ⟨records, exported, _, reload⟩ := reload_of_perm built_smudged packable
  obtain ⟨q, again, imported, _, same, next, _, exported', tidy⟩ := reload fun id r found =>
    (each (id, r) (mem_toList.mpr found)).1
  refine ⟨records, q, again, exported, imported _ (List.reverse_perm records), same.trans ids, ?_, exported', ?_⟩
  · rw [next, ids]
    rfl
  · intro unchanged
    have clear := tidy.mp unchanged ⟨4⟩ (Record.misprint [253]) rfl _ (List.mem_singleton_self _)
    exact absurd (clear.2 (by decide) 253 rfl) (by decide)

/-- The bits set past the only kind stand in the record, and are gone once it has been loaded. -/
theorem reload_smudges : ∃ q : Project, smudged.rules.Built ∧
    smudged.exportRules = .ok [(⟨0⟩, [16, 1, 34, 0, 1, 97, 0, 4]), (⟨4⟩, [16, 1, 34, 0, 253, 97, 0, 4])] ∧
    (new smudged.config).importAll [(⟨0⟩, [16, 1, 34, 0, 1, 97, 0, 4]), (⟨4⟩, [16, 1, 34, 0, 253, 97, 0, 4])] = .ok q ∧
    q.exportRules = .ok [(⟨0⟩, [16, 1, 34, 0, 1, 97, 0, 4]), (⟨4⟩, [16, 1, 34, 0, 1, 97, 0, 4])] := by
  have reloaded : exportRules <$> ((new smudged.config).importAll
      [(⟨0⟩, [16, 1, 34, 0, 1, 97, 0, 4]), (⟨4⟩, [16, 1, 34, 0, 253, 97, 0, 4])]).toOption =
        some (.ok [(⟨0⟩, [16, 1, 34, 0, 1, 97, 0, 4]), (⟨4⟩, [16, 1, 34, 0, 1, 97, 0, 4])]) := by decide +kernel
  obtain ⟨q, imported, exported⟩ := Option.map_eq_some_iff.mp reloaded
  refine ⟨q, built_smudged, by decide +kernel, ?_, exported⟩
  cases loaded : (new smudged.config).importAll _ with
  | error cause =>
    rw [loaded] at imported
    cases imported
  | ok r =>
    rw [loaded] at imported
    cases imported
    rfl

end Project
end Playfield
