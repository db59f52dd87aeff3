import Playfield.Proofs.Acceptance
import Playfield.Proofs.Neighbours
import Playfield.Proofs.RuleBooks
import Playfield.View.Edit

/-!
# What can be authored

A project is reached from a new one by any operations in any order. Its ids stay in their range. As long as
rules are only made, edited, removed and imported, but not handed over whole, each rule keeps the limits of the format,
whatever is edited through whatever view.
-/
namespace Playfield

/-- What the editor changes through a view. -/
inductive Edit
  | symmetry (s : Symmetry)
  | trigger (t : Trigger)
  | arg (b : UInt8)
  | clause (c : Cell)
  | background (i kind : Nat) (d : Demand)
  | sprite (i kind : Nat) (d : Demand)
  | facing (i : Nat) (f : Facing)
  | instruction (i j : Nat) (inst : Instruction)
  | commandArg (i j : Nat) (b : UInt8)
  | removal (i j : Nat)

/-- The view after an edit. -/
def Edit.run (v : View) : Edit → Checked View
  | symmetry s => return v.setSymmetry s
  | trigger t => return v.setTrigger t
  | arg b => return v.setArg b
  | clause c => return (← v.makeClause c).2
  | background i kind d => return (v.setBackground i kind d).2
  | sprite i kind d => return (v.setSprite i kind d).2
  | facing i f => return (v.setFacing i f).2
  | instruction i j inst => return (v.setInstruction i j inst).2
  | commandArg i j b => return (v.setCommandArg i j b).2
  | removal i j => return (v.removeCommand i j).2

namespace Project

/-- What can be done to a project. -/
inductive Operation
  | setPlayer (kind : Option Nat)
  | add (rule : Rule)
  | make (kind : Nat) (trigger : Trigger) (byte : UInt8)
  /-- An edit through the view that shows the rule as it is. -/
  | edit (id : RuleId) (e : Edit)
  | replace (id : RuleId) (rule : Rule)
  | remove (id : RuleId)
  | load (id : RuleId) (bytes : List UInt8)

namespace Operation

/-- The project after an operation. -/
def run (p : Project) : Operation → Except (Failure ProjectError) Project
  | setPlayer kind => return p.setPlayer kind
  | add rule => return (← (p.addRule rule).mapError .refused).2
  | make kind trigger byte => return (← p.makeRule kind trigger byte).2
  | edit id e =>
    match p.view? id with
    | none => return p
    | some v => return p.setRule id (← e.run v).rule
  | replace id rule => return p.setRule id rule
  | remove id => return (p.removeRule id).2
  | load id bytes => p.importRule id bytes

/-- The operation hands over no rule as a whole, and no record that is longer than a buffer may be. -/
def Authoring : Operation → Prop
  | add _ => False
  | replace _ _ => False
  | load _ bytes => bytes.length < Word.full.reach
  | _ => True

end Operation

/-- The projects that operations of some sort lead to. -/
inductive Reached (allowed : Operation → Prop) : Project → Prop
  | new (config : ProjectConfig) : Reached allowed (.new config)
  | next {p q : Project} {op : Operation} : Reached allowed p → allowed op → op.run p = .ok q → Reached allowed q

end Project

/-- A rule as it can be authored keeps the limits, and has no clauses if the bytes of the kinds cannot be counted. -/
structure Rule.Authored (kinds : Kinds) (r : Rule) : Prop extends Rule.Limited kinds r where
  counted : r.clauses ≠ [] → Clause.checkKinds kinds = .ok ()

theorem Rule.Authored.of_clauses_eq {kinds : Kinds} {r s : Rule} (authored : r.Authored kinds)
    (same : s.clauses = r.clauses) : s.Authored kinds := by
  obtain ⟨⟨few, inside, distinct, fits, commands⟩, counted⟩ := authored
  rw [← same] at few inside distinct fits commands counted
  exact ⟨⟨few, inside, distinct, fits, commands⟩, counted⟩

theorem Rule.Authored.append {kinds : Kinds} {r : Rule} (authored : r.Authored kinds) {c : Clause}
    (room : r.clauses.length < maxClauses) (inside : c.cell.inWindow) (new : ∀ d ∈ r.clauses, d.cell ≠ c.cell)
    (fits : c.fits kinds) (commands : c.commands.length ≤ Clause.maxCommands)
    (counted : Clause.checkKinds kinds = .ok ()) : Rule.Authored kinds { r with clauses := r.clauses ++ [c] } where
  few := by
    rw [List.length_append]
    exact room
  inside := List.forall_mem_append.mpr ⟨authored.inside, List.forall_mem_singleton.mpr inside⟩
  distinct := by
    rw [List.map_append, List.nodup_append]
    refine ⟨authored.distinct, List.nodup_singleton _, ?_⟩
    intro a before b last
    obtain ⟨d, member, rfl⟩ := List.mem_map.mp before
    rw [List.mem_singleton.mp last]
    exact new d member
  fits := List.forall_mem_append.mpr ⟨authored.fits, List.forall_mem_singleton.mpr fits⟩
  commands := List.forall_mem_append.mpr ⟨authored.commands, List.forall_mem_singleton.mpr commands⟩
  counted _ := counted

theorem Rule.authored_blank (kinds : Kinds) (trigger : Trigger) (arg : UInt8) : (blank trigger arg).Authored kinds :=
  ⟨⟨Nat.zero_le _, List.forall_mem_nil _, .nil, List.forall_mem_nil _, List.forall_mem_nil _⟩, absurd rfl⟩

theorem Rule.authored_single {kinds : Kinds} {r : Rule} {c : Clause} (only : r.clauses = [c]) (inside : c.cell.inWindow)
    (fits : c.fits kinds) (commands : c.commands.length ≤ Clause.maxCommands)
    (counted : Clause.checkKinds kinds = .ok ()) : r.Authored kinds := by
  have blank := authored_blank kinds r.trigger r.arg
  exact (blank.append (Nat.zero_lt_succ _) inside (List.forall_mem_nil _) fits commands counted).of_clauses_eq only

theorem Rule.Authored.encode_eq {kinds : Kinds} {r : Rule} (authored : r.Authored kinds)
    (room : (Record.layout r.stripped).length < Word.full.reach) :
    Record.encode r kinds = .ok (Record.layout r.stripped) := by
  refine Rule.Limited.encode_eq authored.toLimited (fun busy => authored.counted ?_) room
  rintro none
  rw [Rule.busy, none] at busy
  exact busy rfl

/-! ### Edits -/

theorem mem_modify {α : Type} {f : α → α} {i : Nat} {l : List α} {a : α} (member : a ∈ l.modify i f) :
    ∃ b ∈ l, a = b ∨ a = f b := by
  obtain ⟨j, found⟩ := List.mem_iff_getElem?.mp member
  rw [List.getElem?_modify] at found
  obtain ⟨b, there, same⟩ := Option.map_eq_some_iff.mp found
  refine ⟨b, List.mem_of_getElem? there, ?_⟩
  split at same
  · exact .inr same.symm
  · exact .inl same.symm

/-- A change before a map is another one after it. -/
theorem map_modify {α β : Type} {f : α → β} {g : α → α} {h : β → β} (same : ∀ a, f (g a) = h (f a)) (i : Nat)
    (l : List α) : (l.modify i g).map f = (l.map f).modify i h := by
  apply List.ext_getElem?
  intro j
  rw [List.getElem?_map, List.getElem?_modify, List.getElem?_modify, List.getElem?_map]
  cases l[j]? with
  | none => rfl
  | some a =>
    by_cases here : i = j
    · simp [here, same]
    · simp [here]

theorem map_modify_of_fixed {α κ : Type} {key : α → κ} {f : α → α} (fixed : ∀ a, key (f a) = key a) (i : Nat)
    (l : List α) : (l.modify i f).map key = l.map key := by
  rw [map_modify (h := id) fixed, List.modify_id]

namespace View

variable {v : View}

/-- Changing a clause keeps a rule authored if the cell stays, and the kinds and commands stay within limits. -/
theorem authored_modifyClause (authored : v.rule.Authored v.kinds) (i : Nat) {f : Clause → Clause}
    (cell : ∀ c, (f c).cell = c.cell) (fits : ∀ c, c.fits v.kinds → (f c).fits v.kinds)
    (commands : ∀ c, c.commands.length ≤ Clause.maxCommands → (f c).commands.length ≤ Clause.maxCommands) :
    (v.modifyClause i f).rule.Authored v.kinds where
  few := by
    show (List.modify _ _ _).length ≤ _
    rw [List.length_modify]
    exact authored.few
  inside c member := by
    obtain ⟨b, before, rfl | rfl⟩ := mem_modify member
    · exact authored.inside _ before
    · rw [cell]
      exact authored.inside _ before
  distinct := by
    show (List.map _ (List.modify _ _ _)).Nodup
    rw [map_modify_of_fixed cell]
    exact authored.distinct
  fits c member := by
    obtain ⟨b, before, rfl | rfl⟩ := mem_modify member
    · exact authored.fits _ before
    · exact fits _ (authored.fits _ before)
  commands c member := by
    obtain ⟨b, before, rfl | rfl⟩ := mem_modify member
    · exact authored.commands _ before
    · exact commands _ (authored.commands _ before)
  counted some_clause := by
    refine authored.counted fun none => some_clause ?_
    show List.modify _ _ _ = []
    rw [none, List.modify_nil]

theorem length_withPlace {commands : List Command} (few : commands.length ≤ Clause.maxCommands) (j : Nat) :
    (withPlace commands j).length ≤ Clause.maxCommands := by
  rw [withPlace]
  split
  · rename_i next
    simp only [List.length_append, List.length_singleton]
    omega
  · exact few

theorem authored_modifyCommand (authored : v.rule.Authored v.kinds) (i j : Nat) (f : Command → Command) :
    (v.modifyCommand i j f).2.rule.Authored v.kinds := by
  rw [modifyCommand]
  cases found : v.clause? i with
  | none => exact authored
  | some c =>
    have few := length_withPlace (authored.commands c (List.mem_of_getElem? found)) j
    dsimp only
    split
    · refine authored_modifyClause authored i (fun _ => rfl) (fun _ fits => fits) fun _ _ => ?_
      rw [List.length_modify]
      exact few
    · exact authored

theorem length_of_blank {len : Nat} {d : Demands} (built : Demands.blank len = .ok d) :
    d.len = len ∧ len + 3 < Word.full.size := by
  obtain ⟨_, counted, done⟩ := bind_eq_ok.mp built
  cases pure_eq_ok.mp done
  exact ⟨rfl, (Demands.checkedLength_eq_ok_iff.mp counted).1⟩

theorem of_blank {cell : Cell} {kinds : Kinds} {c : Clause} (built : Clause.blank cell kinds = .ok c) :
    c.cell = cell ∧ c.fits kinds ∧ c.commands = [] ∧ Clause.checkKinds kinds = .ok () := by
  obtain ⟨backgrounds, first, rest⟩ := bind_eq_ok.mp built
  obtain ⟨sprites, second, done⟩ := bind_eq_ok.mp rest
  cases pure_eq_ok.mp done
  obtain ⟨len, counted⟩ := length_of_blank first
  obtain ⟨len', counted'⟩ := length_of_blank second
  exact ⟨rfl, by simp [Clause.fits, len, len'], rfl, Clause.checkKinds_eq_ok_iff.mpr ⟨counted, counted'⟩⟩

/-- A clause is made within the limits. -/
theorem authored_makeClause (authored : v.rule.Authored v.kinds) {c : Cell} {r : Option Nat × View}
    (made : v.makeClause c = .ok r) : r.2.rule.Authored v.kinds := by
  rw [makeClause] at made
  split at made
  · rename_i shown
    rw [v.clauseAt_eq shown, ok_bind] at made
    cases found : v.place? c with
    | some i =>
      rw [found] at made
      cases pure_eq_ok.mp made
      exact authored
    | none =>
      rw [found] at made
      dsimp only at made
      split at made
      · rename_i room
        rw [v.storedCell_eq shown, ok_bind] at made
        obtain ⟨blank, built, done⟩ := bind_eq_ok.mp made
        cases pure_eq_ok.mp done
        obtain ⟨cell, fits, commands, counted⟩ := of_blank built
        have new : ∀ d ∈ v.rule.clauses, d.cell ≠ v.kept c := by
          intro d member
          simpa using List.findIdx?_eq_none_iff.mp found d member
        refine authored.append room ?_ ?_ fits ?_ counted
        · rw [cell]
          exact v.kept_inWindow shown
        · rw [cell]
          exact new
        · rw [commands]
          exact Nat.zero_le _
      · cases pure_eq_ok.mp made
        exact authored
  · cases pure_eq_ok.mp made
    exact authored

end View

/-- Whatever is edited through a view, the rule stays within the limits. -/
theorem Edit.authored {v w : View} {e : Edit} (authored : v.rule.Authored v.kinds) (ran : e.run v = .ok w) :
    w.rule.Authored v.kinds := by
  cases e with
  | symmetry s =>
    cases ran
    exact authored.of_clauses_eq rfl
  | trigger t =>
    cases ran
    exact authored.of_clauses_eq rfl
  | arg b =>
    cases ran
    exact authored.of_clauses_eq rfl
  | clause c =>
    obtain ⟨r, made, done⟩ := bind_eq_ok.mp ran
    cases pure_eq_ok.mp done
    exact View.authored_makeClause authored made
  | background i kind d =>
    cases ran
    refine View.authored_modifyClause authored i (fun _ => rfl) (fun c fits => ?_) fun _ few => few
    simpa [Clause.fits, Demands.len_put] using fits
  | sprite i kind d =>
    cases ran
    refine View.authored_modifyClause authored i (fun _ => rfl) (fun c fits => ?_) fun _ few => few
    simpa [Clause.fits, Demands.len_put] using fits
  | facing i f =>
    cases ran
    exact View.authored_modifyClause authored i (fun _ => rfl) (fun _ fits => fits) fun _ few => few
  | instruction i j inst =>
    cases ran
    exact View.authored_modifyCommand authored i j _
  | commandArg i j b =>
    cases ran
    exact View.authored_modifyCommand authored i j _
  | removal i j =>
    cases ran
    exact View.authored_modifyClause authored i (fun _ => rfl) (fun _ fits => fits)
      fun c few => Nat.le_trans (List.length_eraseIdx_le ..) few

/-! ### Rule books -/

namespace RuleBook

variable {δ : Type}

/-- Ids are given out in order, and the last one never. -/
structure Issued (b : RuleBook δ) : Prop where
  bounded : b.Bounded
  next_le : b.next ≤ RuleId.last.raw

variable {b c : RuleBook δ} {rule r : Rule δ} {id j : RuleId}

theorem Issued.lt_last (issued : b.Issued) (found : b.get? id = some r) : id.raw < RuleId.last.raw := by
  have entry : (id.raw, some r) ∈ b.slots.entries := IdMap.mem_entries.mpr (Option.join_eq_some_iff.mp found)
  exact Nat.lt_of_lt_of_le (issued.bounded _ entry) issued.next_le

theorem issued_empty : (empty : RuleBook δ).Issued := ⟨bounded_empty, Nat.zero_le _⟩

theorem Issued.push (issued : b.Issued) (pushed : b.push rule = some (id, c)) : c.Issued := by
  refine ⟨issued.bounded.push pushed, ?_⟩
  have left : ¬b.isFull := by
    intro full
    rw [RuleBook.push, if_pos full] at pushed
    cases pushed
  have below : b.next < RuleId.last.raw := by simpa [isFull] using left
  rw [(push_eq_some pushed).2]
  exact below

theorem insertAt_eq_some_iff : b.insertAt id rule = some c ↔
    (id.raw < RuleId.last.raw ∧ b.slots.contains id.raw = false) ∧
      c = ⟨b.slots.insert id.raw (some rule), max b.next (id.raw + 1)⟩ := by
  rw [insertAt]
  by_cases free : id.raw < RuleId.last.raw ∧ b.slots.contains id.raw = false
  · simp [free, eq_comm]
  · simp [free]

theorem Issued.insertAt (issued : b.Issued) (inserted : b.insertAt id rule = some c) : c.Issued := by
  obtain ⟨⟨low, _⟩, rfl⟩ := insertAt_eq_some_iff.mp inserted
  refine ⟨?_, Nat.max_le.mpr ⟨issued.next_le, low⟩⟩
  intro e member
  rcases IdMap.mem_place member with rfl | old
  · exact Nat.lt_of_lt_of_le (Nat.lt_succ_self _) (Nat.le_max_right ..)
  · exact Nat.lt_of_lt_of_le (issued.bounded e old) (Nat.le_max_left ..)

theorem Issued.set (issued : b.Issued) (id : RuleId) (rule : Rule δ) : (b.set id rule).Issued := by
  refine ⟨?_, issued.next_le⟩
  intro e member
  obtain ⟨d, old, rfl⟩ := List.mem_map.mp member
  have below := issued.bounded d old
  split <;> exact below

theorem Issued.remove (issued : b.Issued) (id : RuleId) : (b.remove id).2.Issued := by
  rw [RuleBook.remove]
  split
  · rename_i rule found
    refine ⟨?_, issued.next_le⟩
    intro e member
    rcases IdMap.mem_place member with rfl | old
    · exact issued.bounded (id.raw, some rule) (IdMap.mem_entries.mpr (Option.join_eq_some_iff.mp found))
    · exact issued.bounded e old
  · exact issued

theorem get?_insert {k next : Nat} {v : Option (Rule δ)} (found : get? ⟨b.slots.insert k v, next⟩ j = some r) :
    v = some r ∨ b.get? j = some r := by
  rw [get?, IdMap.get?_insert] at found
  split at found
  · exact .inl found
  · exact .inr found

theorem get?_push (pushed : b.push rule = some (id, c)) (found : c.get? j = some r) :
    r = rule ∨ b.get? j = some r := by
  obtain ⟨rfl, rfl⟩ := push_eq_some pushed
  exact (get?_insert found).imp_left fun same => (Option.some.inj same).symm

theorem get?_insertAt (inserted : b.insertAt id rule = some c) (found : c.get? j = some r) :
    r = rule ∨ b.get? j = some r := by
  obtain ⟨_, rfl⟩ := insertAt_eq_some_iff.mp inserted
  exact (get?_insert found).imp_left fun same => (Option.some.inj same).symm

theorem get?_set (found : (b.set id rule).get? j = some r) : r = rule ∨ b.get? j = some r := by
  rw [RuleBook.set, get?, IdMap.get?_modify] at found
  split at found
  · rw [Option.join_eq_some_iff, Option.map_eq_some_iff] at found
    obtain ⟨slot, _, same⟩ := found
    obtain ⟨_, _, same⟩ := Option.map_eq_some_iff.mp same
    exact .inl same.symm
  · exact .inr found

theorem get?_remove (found : (b.remove id).2.get? j = some r) : b.get? j = some r := by
  rw [RuleBook.remove] at found
  split at found
  · exact (get?_insert found).resolve_left nofun
  · exact found

end RuleBook

/-! ### Projects -/

namespace Project

variable {p q : Project}

theorem mapError_eq_ok {ε ε' α : Type} {f : ε → ε'} {x : Except ε α} {a : α} (mapped : x.mapError f = .ok a) :
    x = .ok a := by
  cases x with
  | error cause => cases mapped
  | ok b =>
    cases mapped
    rfl

theorem liftM_eq_ok {ε α : Type} {x : Checked α} {a : α} (lifted : (liftM x : Except (Failure ε) α) = .ok a) :
    x = .ok a := by
  cases x with
  | error cause => cases lifted
  | ok b =>
    cases lifted
    rfl

/-- What a rule that is made is drafted as. -/
theorem makeRule_eq_ok {kind : Nat} {trigger : Trigger} {byte : UInt8} {id : RuleId}
    (made : p.makeRule kind trigger byte = .ok (id, q)) :
    ∃ rule, p.draft kind trigger byte = .ok rule ∧ p.addRule rule = .ok (id, q) := by
  obtain ⟨_, _, rest⟩ := bind_eq_ok.mp made
  split at rest
  · cases rest
  · obtain ⟨rule, drafted, added⟩ := bind_eq_ok.mp rest
    exact ⟨rule, liftM_eq_ok drafted, mapError_eq_ok added⟩

theorem importRule_eq_ok {id : RuleId} {bytes : List UInt8} (imported : p.importRule id bytes = .ok q) :
    ∃ rule, Record.decode bytes p.kinds = .ok rule ∧ p.rules.insertAt id rule = some q.rules ∧ q.config = p.config := by
  rw [importRule] at imported
  split at imported
  · cases imported
  · obtain ⟨rule, decoded, rest⟩ := bind_eq_ok.mp imported
    split at rest
    · rename_i inserted
      cases rest
      exact ⟨rule, mapError_eq_ok decoded, inserted, rfl⟩
    · cases rest

/-- The operation puts the rule into the project. -/
def Operation.Gives (p : Project) (rule : Rule) : Operation → Prop
  | add given => rule = given
  | make kind trigger byte => p.draft kind trigger byte = .ok rule
  | edit id e => ∃ v w, p.view? id = some v ∧ e.run v = .ok w ∧ rule = w.rule
  | replace _ given => rule = given
  | load _ bytes => Record.decode bytes p.kinds = .ok rule
  | _ => False

/-- What an operation can do: it puts a rule at an id, removes one, or leaves the rules alone. -/
theorem run_cases {op : Operation} (ran : op.run p = .ok q) : q.kinds = p.kinds ∧
    (q.rules = p.rules ∨ (∃ id, q.rules = (p.rules.remove id).2) ∨
      ∃ id rule, op.Gives p rule ∧ (p.rules.push rule = some (id, q.rules) ∨
        p.rules.insertAt id rule = some q.rules ∨ q.rules = p.rules.set id rule)) := by
  cases op with
  | setPlayer kind =>
    cases ran
    exact ⟨rfl, .inl rfl⟩
  | add rule =>
    obtain ⟨⟨id, r⟩, added, done⟩ := bind_eq_ok.mp ran
    cases pure_eq_ok.mp done
    obtain ⟨config, pushed⟩ := addRule_eq_ok (mapError_eq_ok added)
    exact ⟨congrArg ProjectConfig.kinds config, .inr (.inr ⟨id, rule, rfl, .inl pushed⟩)⟩
  | make kind trigger byte =>
    obtain ⟨⟨id, r⟩, made, done⟩ := bind_eq_ok.mp ran
    cases pure_eq_ok.mp done
    obtain ⟨rule, drafted, added⟩ := makeRule_eq_ok made
    obtain ⟨config, pushed⟩ := addRule_eq_ok added
    exact ⟨congrArg ProjectConfig.kinds config, .inr (.inr ⟨id, rule, drafted, .inl pushed⟩)⟩
  | edit id e =>
    rw [Operation.run] at ran
    cases shown : p.view? id with
    | none =>
      rw [shown] at ran
      cases ran
      exact ⟨rfl, .inl rfl⟩
    | some v =>
      rw [shown] at ran
      obtain ⟨w, edited, done⟩ := bind_eq_ok.mp ran
      cases pure_eq_ok.mp done
      exact ⟨rfl, .inr (.inr ⟨id, w.rule, ⟨v, w, shown, liftM_eq_ok edited, rfl⟩, .inr (.inr rfl)⟩)⟩
  | replace id rule =>
    cases ran
    exact ⟨rfl, .inr (.inr ⟨id, rule, rfl, .inr (.inr rfl)⟩)⟩
  | remove id =>
    cases ran
    exact ⟨rfl, .inr (.inl ⟨id, rfl⟩)⟩
  | load id bytes =>
    obtain ⟨rule, decoded, inserted, config⟩ := importRule_eq_ok ran
    exact ⟨congrArg ProjectConfig.kinds config, .inr (.inr ⟨id, rule, decoded, .inr (.inl inserted)⟩)⟩

/-- An operation leaves the ids in their range. -/
theorem issued_run {op : Operation} (issued : p.rules.Issued) (ran : op.run p = .ok q) : q.rules.Issued := by
  obtain ⟨_, same | ⟨id, removed⟩ | ⟨id, rule, _, pushed | inserted | replaced⟩⟩ := run_cases ran
  · exact same ▸ issued
  · exact removed ▸ issued.remove id
  · exact issued.push pushed
  · exact issued.insertAt inserted
  · exact replaced ▸ issued.set id rule

theorem Reached.imp {allowed other : Operation → Prop} (reached : p.Reached allowed)
    (weaker : ∀ op, allowed op → other op) : p.Reached other := by
  induction reached with
  | new config => exact .new config
  | next _ fine ran ih => exact .next ih (weaker _ fine) ran

theorem Reached.issued {allowed : Operation → Prop} (reached : p.Reached allowed) : p.rules.Issued := by
  induction reached with
  | new config => exact RuleBook.issued_empty
  | next _ _ ran issued => exact issued_run issued ran

/-! ### Rules as authored -/

theorem authored_draft {kind : Nat} {trigger : Trigger} {byte : UInt8} {rule : Rule}
    (drafted : p.draft kind trigger byte = .ok rule) : rule.Authored p.kinds := by
  obtain ⟨blank, built, rest⟩ := bind_eq_ok.mp drafted
  obtain ⟨cell, fits, commands, counted⟩ := View.of_blank built
  have single {r : Rule} (facing : Facing)
      (only : r.clauses = [{ blank with sprites := blank.sprites.put kind .included, facing := facing }]) :
      r.Authored p.kinds := by
    refine Rule.authored_single only ?_ ?_ ?_ counted
    · rw [cell]
      decide
    · simpa [Clause.fits, Demands.len_put] using fits
    · rw [commands]
      exact Nat.zero_le _
  cases trigger with
  | button =>
    cases rest
    exact single blank.facing rfl
  | change | collision | negation =>
    cases rest
    exact single _ rfl

/-- What an operation puts into a project of authored rules is authored. -/
theorem authored_of_gives {op : Operation} {rule : Rule} (all : ∀ id r, p.rule? id = some r → r.Authored p.kinds)
    (allowed : op.Authoring) (given : op.Gives p rule) : rule.Authored p.kinds := by
  cases op with
  | add _ => exact allowed.elim
  | replace _ _ => exact allowed.elim
  | setPlayer _ => exact given.elim
  | remove _ => exact given.elim
  | make kind trigger byte => exact authored_draft given
  | load id bytes => exact ⟨Record.limited_of_decode allowed given, Record.counted_of_decode given⟩
  | edit id e =>
    obtain ⟨v, w, shown, edited, rfl⟩ := given
    obtain ⟨r, found, rfl⟩ := Option.map_eq_some_iff.mp shown
    exact Edit.authored (all id r found) edited

/-- Every rule of an authored project keeps the limits. -/
theorem Reached.authored (reached : p.Reached Operation.Authoring) :
    ∀ id r, p.rule? id = some r → r.Authored p.kinds := by
  induction reached with
  | new config => exact fun id r found => nomatch found
  | @next p q op _ allowed ran all =>
    obtain ⟨kinds, change⟩ := run_cases ran
    intro j r found
    rw [kinds]
    have given {rule : Rule} (given : op.Gives p rule) := authored_of_gives all allowed given
    obtain same | ⟨id, removed⟩ | ⟨id, rule, gives, pushed | inserted | replaced⟩ := change
    · rw [rule?, same] at found
      exact all j r found
    · rw [rule?, removed] at found
      exact all j r (RuleBook.get?_remove found)
    · rcases RuleBook.get?_push pushed found with rfl | old
      · exact given gives
      · exact all j r old
    · rcases RuleBook.get?_insertAt inserted found with rfl | old
      · exact given gives
      · exact all j r old
    · rw [rule?, replaced] at found
      rcases RuleBook.get?_set found with rfl | old
      · exact given gives
      · exact all j r old

end Project
end Playfield
