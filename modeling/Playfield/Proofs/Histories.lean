import Mathlib.Logic.Relation
import Playfield.Proofs.InPlace

/-!
# The life of rule ids

An id is vacant until it gets a rule, and has one until the rule is removed; after that it never has a rule again. The
next id lies past all that were ever used, so that whatever is done to a project, a new rule gets an id of its own.
-/
namespace Playfield

/-! ### Stages -/

/-- The stages of an id. -/
inductive Stage
  | vacant | live | removed
  deriving DecidableEq, Repr

/-- One stage follows another. -/
inductive Stage.Next : Stage → Stage → Prop
  | filled : Next vacant live
  | removed : Next live removed

theorem Stage.eq_of_removed {s : Stage} (later : Relation.ReflTransGen Stage.Next .removed s) : s = .removed := by
  rcases Relation.ReflTransGen.cases_head later with rfl | ⟨_, step, _⟩
  · rfl
  · cases step

theorem Stage.eq_of_vacant {s : Stage} (later : Relation.ReflTransGen Stage.Next s .vacant) : s = .vacant := by
  rcases Relation.ReflTransGen.cases_tail later with rfl | ⟨_, _, step⟩
  · rfl
  · cases step

namespace Slot

/-- The slot of an entry of the table. -/
def ofEntry : Option (Option Rule) → Slot
  | none => vacant
  | some none => removed
  | some (some rule) => live rule

/-- The stage that a slot shows. -/
def stage : Slot → Stage
  | vacant => .vacant
  | live _ => .live
  | removed => .removed

end Slot

namespace RuleBook

variable {b c : RuleBook} {rule : Rule} {id : RuleId}

/-- What the book has at an id; past its last id all are vacant. -/
def slotAt (b : RuleBook) (id : RuleId) : Slot := (b.slot? id).getD .vacant

theorem slotAt_eq (b : RuleBook) (id : RuleId) : b.slotAt id = .ofEntry (b.slots.get? id.raw) := by
  rw [slotAt, slot?]
  rcases b.slots.get? id.raw with _ | _ | rule
  · dsimp only
    split <;> rfl
  · rfl
  · rfl

theorem slotAt_insert (k : RuleId) (v : Option Rule) (next : Nat) (j : RuleId) :
    slotAt ⟨b.slots.insert k.raw v, next⟩ j = if j = k then .ofEntry (some v) else b.slotAt j := by
  obtain ⟨k⟩ := k
  obtain ⟨j⟩ := j
  rw [slotAt_eq, slotAt_eq, IdMap.get?_insert]
  by_cases same : k = j
  · simp [same]
  · simp [same, Ne.symm same]

theorem slotAt_set (id : RuleId) (rule : Rule) (j : RuleId) : (b.set id rule).slotAt j =
    if j = id ∧ (b.slotAt j).stage = .live then .live rule else b.slotAt j := by
  obtain ⟨k⟩ := id
  obtain ⟨j⟩ := j
  rw [slotAt_eq, slotAt_eq, set, IdMap.get?_modify]
  by_cases same : k = j
  · subst same
    rcases b.slots.get? k with _ | _ | former <;> simp [Slot.ofEntry, Slot.stage]
  · simp [same, Ne.symm same]

theorem get?_eq_slotAt (b : RuleBook) (id : RuleId) : b.get? id = (b.slotAt id).rule? := by
  rw [get?, slotAt_eq]
  rcases b.slots.get? id.raw with _ | _ | rule <;> rfl

theorem slotAt_remove (id j : RuleId) : (b.remove id).2.slotAt j =
    if j = id ∧ (b.slotAt j).stage = .live then .removed else b.slotAt j := by
  rw [remove, get?_eq_slotAt]
  by_cases same : j = id
  · subst same
    cases found : b.slotAt j with
    | live rule => simp [Slot.rule?, slotAt_insert, Slot.ofEntry, Slot.stage]
    | vacant => simp [Slot.rule?, found, Slot.stage]
    | removed => simp [Slot.rule?, found, Slot.stage]
  · cases (b.slotAt id).rule? with
    | some rule => simp [same, slotAt_insert]
    | none => simp [same]

theorem stage_vacant_iff : (b.slotAt id).stage = .vacant ↔ b.slots.contains id.raw = false := by
  rw [slotAt_eq, IdMap.contains]
  rcases b.slots.get? id.raw with _ | _ | rule <;> simp [Slot.ofEntry, Slot.stage]

/-- The next id lies past every id that is not vacant. -/
theorem Bounded.lt_next (bounded : b.Bounded) (used : (b.slotAt id).stage ≠ .vacant) : id.raw < b.next := by
  rw [Ne, stage_vacant_iff, Bool.not_eq_false] at used
  obtain ⟨slot, found⟩ := Option.isSome_iff_exists.mp used
  exact bounded _ (IdMap.mem_entries.mpr found)

theorem Bounded.vacant_next (bounded : b.Bounded) : (b.slotAt ⟨b.next⟩).stage = .vacant := by
  by_contra used
  exact Nat.lt_irrefl _ (bounded.lt_next used)

theorem next_remove (id : RuleId) : (b.remove id).2.next = b.next := by
  rw [remove]
  split <;> rfl

theorem insertAt_eq_some_iff_stage : b.insertAt id rule = some c ↔
    (id.raw < RuleId.last.raw ∧ (b.slotAt id).stage = .vacant) ∧
      c = ⟨b.slots.insert id.raw (some rule), max b.next (id.raw + 1)⟩ := by
  rw [insertAt_eq_some_iff, stage_vacant_iff]

end RuleBook

namespace Project

/-! ### Histories -/

/-- The project after an operation in place, whether it fails or not. -/
def after (p : Project) (op : Operation) : Project := (op.work.perform p).2

/-- Operations in place lead from a project to another. -/
def Leads (p q : Project) : Prop := ∃ ops : List Operation, ops.foldl after p = q

/-- The stage of an id. -/
def stage (p : Project) (id : RuleId) : Stage := (p.rules.slotAt id).stage

variable {p q : Project}

theorem after_cases (p : Project) (op : Operation) : p.after op = p ∨ op.run p = .ok (p.after op) := by
  rw [after, perform_work]
  cases ran : op.run p with
  | ok q => exact .inr rfl
  | error cause => exact .inl rfl

theorem issued_after (issued : p.rules.Issued) (op : Operation) : (p.after op).rules.Issued := by
  rcases after_cases p op with same | ran
  · rwa [same]
  · exact issued_run issued ran

/-- What is done to an id in one operation, and to the next id. -/
structure Advances (p q : Project) : Prop where
  stages : ∀ id, Relation.ReflTransGen Stage.Next (p.stage id) (q.stage id)
  next_le : p.rules.next ≤ q.rules.next

theorem Advances.refl (p : Project) : p.Advances p := ⟨fun _ => .refl, Nat.le_refl _⟩

theorem Advances.trans {r : Project} (first : p.Advances q) (second : q.Advances r) : p.Advances r :=
  ⟨fun id => (first.stages id).trans (second.stages id), Nat.le_trans first.next_le second.next_le⟩

theorem advances_of_insert {k : RuleId} {rule : Rule} {next : Nat} (free : p.stage k = .vacant)
    (larger : p.rules.next ≤ next) (rules : q.rules = ⟨p.rules.slots.insert k.raw (some rule), next⟩) :
    p.Advances q := by
  refine ⟨fun id => ?_, ?_⟩
  · rw [stage, stage, rules, RuleBook.slotAt_insert]
    by_cases here : id = k
    · subst here
      have step : Stage.Next (p.rules.slotAt id).stage .live := by
        rw [show (p.rules.slotAt id).stage = .vacant from free]
        exact .filled
      simpa [Slot.ofEntry, Slot.stage] using Relation.ReflTransGen.single step
    · rw [if_neg here]
  · rw [rules]
    exact larger

/-- One operation takes no id back to an earlier stage. -/
theorem advances_after (issued : p.rules.Issued) (op : Operation) : p.Advances (p.after op) := by
  rcases after_cases p op with same | ran
  · rw [same]
    exact .refl p
  · obtain ⟨_, same | ⟨k, removed⟩ | ⟨k, rule, _, pushed | inserted | replaced⟩⟩ := run_cases ran
    · refine ⟨fun id => ?_, ?_⟩
      · rw [stage, stage, same]
      · exact Nat.le_of_eq (congrArg RuleBook.next same.symm)
    · refine ⟨fun id => ?_, ?_⟩
      · rw [stage, stage, removed, RuleBook.slotAt_remove]
        by_cases here : id = k ∧ (p.rules.slotAt id).stage = .live
        · rw [if_pos here, here.2]
          exact .single .removed
        · rw [if_neg here]
      · exact Nat.le_of_eq (by rw [removed, RuleBook.next_remove])
    · obtain ⟨rfl, rules⟩ := RuleBook.push_eq_some pushed
      exact advances_of_insert issued.bounded.vacant_next (Nat.le_succ _) rules
    · obtain ⟨⟨_, free⟩, rules⟩ := RuleBook.insertAt_eq_some_iff_stage.mp inserted
      exact advances_of_insert free (Nat.le_max_left ..) rules
    · refine ⟨fun id => ?_, ?_⟩
      · rw [stage, stage, replaced, RuleBook.slotAt_set]
        by_cases here : id = k ∧ (p.rules.slotAt id).stage = .live
        · rw [if_pos here, here.2]
          exact .refl
        · rw [if_neg here]
      · rw [replaced]
        exact Nat.le_refl _

theorem Leads.issued (leads : p.Leads q) (issued : p.rules.Issued) : q.rules.Issued := by
  obtain ⟨ops, rfl⟩ := leads
  induction ops generalizing p with
  | nil => exact issued
  | cons op rest ih => exact ih (issued_after issued op)

/-- Whatever is done, no id is taken back to an earlier stage. -/
theorem Leads.advances (leads : p.Leads q) (issued : p.rules.Issued) : p.Advances q := by
  obtain ⟨ops, rfl⟩ := leads
  induction ops generalizing p with
  | nil => exact .refl p
  | cons op rest ih => exact (advances_after issued op).trans (ih (issued_after issued op))

theorem importRule_eq_ok_iff {id : RuleId} {bytes : List UInt8} : p.importRule id bytes = .ok q ↔
    (id.raw < RuleId.last.raw ∧ p.stage id = .vacant) ∧ ∃ rule, Record.decode bytes p.kinds = .ok rule ∧
      q = ⟨p.config, ⟨p.rules.slots.insert id.raw (some rule), max p.rules.next (id.raw + 1)⟩⟩ := by
  constructor
  · intro imported
    obtain ⟨rule, decoded, inserted, config⟩ := importRule_eq_ok imported
    obtain ⟨free, rules⟩ := RuleBook.insertAt_eq_some_iff_stage.mp inserted
    obtain ⟨_, _⟩ := q
    exact ⟨free, rule, decoded, by rw [← rules, ← config]⟩
  · rintro ⟨free, rule, decoded, rfl⟩
    have inserted : p.rules.insertAt id rule =
        some ⟨p.rules.slots.insert id.raw (some rule), max p.rules.next (id.raw + 1)⟩ :=
      RuleBook.insertAt_eq_some_iff_stage.mpr ⟨free, rfl⟩
    rw [importRule_of_decode free.1 decoded, inserted]

/-- A rule that is added gets the next id, which was never used. -/
theorem addRule_fresh (issued : p.rules.Issued) {rule : Rule} {id : RuleId} (added : p.addRule rule = .ok (id, q)) :
    id.raw = p.rules.next ∧ id.raw < RuleId.last.raw ∧ p.stage id = .vacant ∧ q.stage id = .live := by
  obtain ⟨_, pushed⟩ := addRule_eq_ok added
  have left : ¬p.rules.isFull := by
    intro full
    rw [RuleBook.push, if_pos full] at pushed
    cases pushed
  obtain ⟨rfl, rules⟩ := RuleBook.push_eq_some pushed
  refine ⟨rfl, ?_, issued.bounded.vacant_next, ?_⟩
  · simpa [RuleBook.isFull] using left
  · rw [stage, rules, RuleBook.slotAt_insert ⟨p.rules.next⟩, if_pos rfl]
    rfl

theorem addRule_eq_ok_iff {rule : Rule} : (∃ id q, p.addRule rule = .ok (id, q)) ↔ p.rules.next < RuleId.last.raw := by
  rw [addRule, RuleBook.push, RuleBook.isFull]
  by_cases full : RuleId.last.raw ≤ p.rules.next
  · simp [full]
  · simp [full, Nat.not_le.mp full]

theorem rule?_of_removed {id : RuleId} (removed : p.stage id = .removed) : p.rule? id = none := by
  rw [rule?, RuleBook.get?_eq_slotAt]
  cases found : p.rules.slotAt id with
  | live rule => simp [stage, found, Slot.stage] at removed
  | vacant => rfl
  | removed => rfl

theorem exists_importRule_iff {id : RuleId} {bytes : List UInt8} : (∃ q, p.importRule id bytes = .ok q) ↔
    id.raw < RuleId.last.raw ∧ (∃ rule, Record.decode bytes p.kinds = .ok rule) ∧ p.stage id = .vacant := by
  simp only [importRule_eq_ok_iff]
  constructor
  · rintro ⟨_, ⟨low, vacant⟩, rule, decoded, _⟩
    exact ⟨low, ⟨rule, decoded⟩, vacant⟩
  · rintro ⟨low, ⟨rule, decoded⟩, vacant⟩
    exact ⟨_, ⟨low, vacant⟩, rule, decoded, rfl⟩

/-- What an import changes. -/
theorem slotAt_of_importRule {id : RuleId} {bytes : List UInt8} (imported : p.importRule id bytes = .ok q) :
    q.config = p.config ∧ q.rules.next = max p.rules.next (id.raw + 1) ∧
      (∃ rule, Record.decode bytes p.kinds = .ok rule ∧ q.rules.slotAt id = .live rule) ∧
      ∀ j, j ≠ id → q.rules.slotAt j = p.rules.slotAt j := by
  obtain ⟨_, rule, decoded, rfl⟩ := importRule_eq_ok_iff.mp imported
  refine ⟨rfl, rfl, ⟨rule, decoded, ?_⟩, fun j other => ?_⟩
  · rw [RuleBook.slotAt_insert, if_pos rfl]
    rfl
  · rw [RuleBook.slotAt_insert, if_neg other]

theorem removeRule_of_absent {id : RuleId} (absent : p.rule? id = none) : p.removeRule id = (none, p) := by
  rw [removeRule, RuleBook.remove, show p.rules.get? id = none from absent]

/-- Whatever has been done to a project, and whatever is done then: ids only go from vacant to live and from live to
    removed, so that an id without its rule never has one again. The next id lies past all that have been used; a new
    rule gets it as long as it is not the last one. A record is imported exactly at an id before the last that is
    vacant, and then changes this id and the next one only. What fails changes nothing. -/
theorem ids_never_reused {config : ProjectConfig} (start : (new config).Leads p) (later : p.Leads q) :
    (∀ id, Relation.ReflTransGen Stage.Next (p.stage id) (q.stage id)) ∧
    (∀ id, p.stage id = .removed → q.rule? id = none) ∧
    (p.rules.next ≤ q.rules.next ∧ ∀ id, p.stage id ≠ .vacant → id.raw < q.rules.next) ∧
    (∀ rule, (∃ id r, q.addRule rule = .ok (id, r)) ↔ q.rules.next < RuleId.last.raw) ∧
    (∀ id r, (∃ rule, q.addRule rule = .ok (id, r)) ∨
        (∃ kind trigger byte, q.makeRule kind trigger byte = .ok (id, r)) →
      id.raw = q.rules.next ∧ id.raw < RuleId.last.raw ∧ p.stage id = .vacant ∧ q.stage id = .vacant ∧
        r.stage id = .live) ∧
    (∀ id bytes, (∃ r, q.importRule id bytes = .ok r) ↔
      id.raw < RuleId.last.raw ∧ (∃ rule, Record.decode bytes q.kinds = .ok rule) ∧ q.stage id = .vacant) ∧
    (∀ id bytes r, q.importRule id bytes = .ok r → r.config = q.config ∧
      r.rules.next = max q.rules.next (id.raw + 1) ∧
      (∃ rule, Record.decode bytes q.kinds = .ok rule ∧ r.rules.slotAt id = .live rule) ∧
      ∀ j, j ≠ id → r.rules.slotAt j = q.rules.slotAt j) ∧
    (∀ (op : Operation) r, op.run q = .ok r → op.work.perform q = (.ok (), r)) ∧
    (∀ (op : Operation) cause, op.run q = .error cause → op.work.perform q = (.error cause, q)) ∧
    ∀ id, q.rule? id = none → q.removeRule id = (none, q) ∧ (Work.remove id).perform q = (.ok none, q) := by
  have issued := start.issued RuleBook.issued_empty
  have issued' := later.issued issued
  have advances := later.advances issued
  refine ⟨advances.stages, ?_, ⟨advances.next_le, ?_⟩, fun rule => addRule_eq_ok_iff, ?_,
    fun id bytes => exists_importRule_iff, fun id bytes r => slotAt_of_importRule, ?_, ?_, ?_⟩
  · intro id removed
    have later := advances.stages id
    rw [removed] at later
    exact rule?_of_removed (Stage.eq_of_removed later)
  · intro id used
    exact Nat.lt_of_lt_of_le (issued.bounded.lt_next used) advances.next_le
  · intro id r given
    obtain ⟨rule, added⟩ : ∃ rule, q.addRule rule = .ok (id, r) := by
      rcases given with added | ⟨kind, trigger, byte, made⟩
      · exact added
      · obtain ⟨rule, _, added⟩ := makeRule_eq_ok made
        exact ⟨rule, added⟩
    obtain ⟨next, low, vacant, live⟩ := addRule_fresh issued' added
    have before := advances.stages id
    rw [vacant] at before
    exact ⟨next, low, Stage.eq_of_vacant before, vacant, live⟩
  · intro op r ran
    rw [perform_work, ran]
  · intro op cause ran
    rw [perform_work, ran]
  · intro id absent
    have same := removeRule_of_absent absent
    exact ⟨same, by rw [Work.perform_remove, same]⟩

/-- A rule past a gap, and one that was removed again. -/
def patchy : Project :=
  [.make 0 .change 6, .load ⟨2⟩ [16, 0], .remove ⟨0⟩].foldl after (.new ⟨⟨1, 1⟩, none⟩)

theorem ids_never_reused_patchy :
    (patchy.stage ⟨0⟩ = .removed ∧ patchy.stage ⟨1⟩ = .vacant ∧ patchy.stage ⟨2⟩ = .live) ∧
    ((patchy.after (.load ⟨0⟩ [16, 0])).rule? ⟨0⟩ = none ∧
      ∃ q, (patchy.after (.load ⟨0⟩ [16, 0])).makeRule 0 .change 6 = .ok (⟨3⟩, q) ∧ q.stage ⟨3⟩ = .live) := by
  have start : (new ⟨⟨1, 1⟩, none⟩).Leads patchy := ⟨_, rfl⟩
  have later : patchy.Leads (patchy.after (.load ⟨0⟩ [16, 0])) := ⟨[.load ⟨0⟩ [16, 0]], rfl⟩
  have stages : patchy.stage ⟨0⟩ = .removed ∧ patchy.stage ⟨1⟩ = .vacant ∧ patchy.stage ⟨2⟩ = .live := by
    decide +kernel
  obtain ⟨_, gone, _, _, fresh, _⟩ := ids_never_reused start later
  refine ⟨stages, gone ⟨0⟩ stages.1, _, rfl, ?_⟩
  exact (fresh ⟨3⟩ _ (.inr ⟨0, .change, 6, rfl⟩)).2.2.2.2

end Project
end Playfield
