import Playfield.Proofs.Reinterpretation

/-!
# What a write leaves alone

A write that is refused leaves the stored rule as it was. One that is not changes a single thing in it: one demand of one
clause, a facing, the instruction or the argument of one command; or it takes one command away, or puts a command or a clause at
the end of its list. All else stays what it is and where it is, whichever transform the rule is written through.
-/
namespace Playfield

/-- Two lists are the same but for one place, where the first has `a` and the second has `b`. -/
structure ReplacedAt {α : Type} (l : List α) (i : Nat) (a b : α) (m : List α) : Prop where
  before : l[i]? = some a
  after : m[i]? = some b
  others : ∀ j, j ≠ i → m[j]? = l[j]?

theorem replacedAt_modify {α : Type} {l : List α} {i : Nat} {a : α} (found : l[i]? = some a) (f : α → α) :
    ReplacedAt l i a (f a) (l.modify i f) where
  before := found
  after := by simp [found]
  others j other := by simp [Ne.symm other]

/-- A change that does nothing to the member at a place does nothing to the list. -/
theorem modify_of_fixed {α : Type} {l : List α} {i : Nat} {f : α → α} (fixed : ∀ a, l[i]? = some a → f a = a) :
    l.modify i f = l := by
  refine List.ext_getElem? fun j => ?_
  rw [List.getElem?_modify]
  by_cases here : i = j
  · subst here
    cases found : l[i]? with
    | none => rfl
    | some a => simp [fixed a found]
  · simp [here]

/-- One command of a list is changed; or, if the place is the next one and one of the four, the initial command is put at the
    end and changed there. -/
def CommandSet (change : Command → Command → Prop) (l : List Command) (j : Nat) (m : List Command) : Prop :=
  (∃ k k', ReplacedAt l j k k' m ∧ change k k') ∨ (j = l.length ∧ j < 4) ∧ ∃ k', m = l ++ [k'] ∧ change .initial k'

theorem CommandSet.imp {R S : Command → Command → Prop} (imp : ∀ k k', R k k' → S k k') {l m : List Command} {j : Nat}
    (set : CommandSet R l j m) : CommandSet S l j m := by
  rcases set with ⟨k, k', replaced, changed⟩ | ⟨next, k', added, changed⟩
  · exact .inl ⟨k, k', replaced, imp k k' changed⟩
  · exact .inr ⟨next, k', added, imp _ k' changed⟩

namespace View

variable {v w : View} {i j : Nat}

/-- One stored clause gives way to another, and nothing else changes. -/
structure Alters (v : View) (i : Nat) (c d : Clause) (w : View) : Prop where
  clauses : ReplacedAt v.rule.clauses i c d w.rule.clauses
  rest : w = { v with rule := { v.rule with clauses := w.rule.clauses } }

/-- A write is refused and changes nothing; or it is answered, and one stored clause gives way to another. -/
def Writes {α : Type} (v : View) (i : Nat) (change : α → Clause → Clause → Prop) (outcome : Option α × View) : Prop :=
  outcome = (none, v) ∨ ∃ a c d, outcome.1 = some a ∧ v.Alters i c d outcome.2 ∧ change a c d

/-- A command is put at the end of those of a clause. -/
def Appends (v : View) (i : Nat) (w : View) : Prop := w.commandCount i = v.commandCount i + 1

/-- The place is the next one for a command of a clause, and one of the four. -/
def NextPlace (v : View) (i j : Nat) : Prop := ∃ c, v.clause? i = some c ∧ j = c.commands.length ∧ j < 4

/-- Each write changes what it is addressed to and nothing else. -/
structure Confined (v : View) : Prop where
  clause : ∀ {cell answer w}, v.makeClause cell = .ok (answer, w) →
    w = v ∧ (answer = none ∨ v.clauseAt cell = .ok answer) ∨
      v.clauseAt cell = .ok none ∧ answer = some v.rule.clauses.length ∧ ∃ d, v.storedCell cell = .ok d.cell ∧
        w = { v with rule := { v.rule with clauses := v.rule.clauses ++ [d] } }
  background : ∀ i kind demand, v.Writes i
    (fun old c d => d = { c with backgrounds := d.backgrounds } ∧
      ReplacedAt c.backgrounds.toList kind old demand d.backgrounds.toList) (v.setBackground i kind demand)
  sprite : ∀ i kind demand, v.Writes i
    (fun old c d => d = { c with sprites := d.sprites } ∧ ReplacedAt c.sprites.toList kind old demand d.sprites.toList)
    (v.setSprite i kind demand)
  facing : ∀ i f, v.Writes i
    (fun new c d => new = f ∧ d = { c with facing := d.facing } ∧ Transform.facingThrough v.transform d.facing = f)
    (v.setFacing i f)
  instruction : ∀ i j inst, v.Writes i
    (fun new c d => new = inst ∧ d = { c with commands := d.commands } ∧
      CommandSet (fun k k' => k' = { k with inst := inst }) c.commands j d.commands) (v.setInstruction i j inst)
  commandArg : ∀ i j b, v.Writes i
    (fun new c d => new = b ∧ d = { c with commands := d.commands } ∧
      CommandSet (fun k k' => k'.inst = k.inst ∧ (v.shown k').arg = b) c.commands j d.commands) (v.setCommandArg i j b)
  instructionAppends : ∀ i j inst, v.Appends i (v.setInstruction i j inst).2 ↔ v.NextPlace i j
  commandArgAppends : ∀ i j b, v.Appends i (v.setCommandArg i j b).2 ↔ v.NextPlace i j
  removal : ∀ i j,
    ((v.clause? i).bind fun c => c.commands[j]?) = none ∧ v.removeCommand i j = (v.commandCount i, v) ∨
      ∃ c d, j < c.commands.length ∧ v.Alters i c d (v.removeCommand i j).2 ∧ d = { c with commands := d.commands } ∧
        (∀ k < j, d.commands[k]? = c.commands[k]?) ∧ (∀ k ≥ j, d.commands[k]? = c.commands[k + 1]?) ∧
        (v.removeCommand i j).1 = d.commands.length

theorem Writes.imp {α : Type} {R S : α → Clause → Clause → Prop} (imp : ∀ a c d, R a c d → S a c d)
    {outcome : Option α × View} (writes : v.Writes i R outcome) : v.Writes i S outcome := by
  rcases writes with refused | ⟨a, c, d, answer, alters, changed⟩
  · exact .inl refused
  · exact .inr ⟨a, c, d, answer, alters, imp a c d changed⟩

/-! ### A clause that is changed -/

theorem alters_modifyClause {c : Clause} (found : v.clause? i = some c) (f : Clause → Clause) :
    v.Alters i c (f c) (v.modifyClause i f) := ⟨replacedAt_modify found f, rfl⟩

theorem modifyClause_of_fixed {f : Clause → Clause} (fixed : ∀ c, v.clause? i = some c → f c = c) :
    v.modifyClause i f = v := by
  rw [modifyClause, modify_of_fixed fixed]

theorem commandCount_of_clause? {c : Clause} (found : v.clause? i = some c) : v.commandCount i = c.commands.length := by
  simp [commandCount, commands, found]

end View

/-! ### Demands -/

namespace Demands

/-- A demand that is put is the only one that changes. -/
theorem replacedAt_put {d : Demands} {kind : Nat} {old : Demand} (found : d.get? kind = some old) (demand : Demand) :
    ReplacedAt d.toList kind old demand (d.put kind demand).toList where
  before := by rw [getElem?_toList, found]
  after := by rw [getElem?_toList, get?_put_eq, if_pos rfl, found, Option.map_some]
  others k other := by rw [getElem?_toList, getElem?_toList, get?_put_eq, if_neg other]

theorem put_of_absent {d : Demands} {kind : Nat} (absent : d.get? kind = none) (demand : Demand) :
    d.put kind demand = d := by
  have past : ¬kind < d.len := by
    intro inside
    obtain ⟨old, there⟩ := exists_get? inside
    cases absent.symm.trans there
  rw [put, dif_neg past]

end Demands

namespace View

variable {v w : View} {i j : Nat}

/-- A demand is put among the demands of one family, if the clause at the place makes one on the kind. -/
theorem writes_demand (v : View) (i kind : Nat) (demand : Demand) (family : Clause → Demands) {f : Clause → Clause}
    {only : Clause → Clause → Prop} (put : ∀ c, family (f c) = (family c).put kind demand)
    (fixed : ∀ c, (family c).put kind demand = family c → f c = c) (others : ∀ c, only c (f c)) :
    v.Writes i (fun old c d => only c d ∧ ReplacedAt (family c).toList kind old demand (family d).toList)
      ((v.clause? i).bind fun c => (family c).get? kind, v.modifyClause i f) := by
  cases asked : (v.clause? i).bind fun c => (family c).get? kind with
  | none =>
    refine .inl (Prod.ext rfl (modifyClause_of_fixed fun c found => fixed c (Demands.put_of_absent ?_ demand)))
    simpa [found] using asked
  | some old =>
    obtain ⟨c, found, there⟩ := Option.bind_eq_some_iff.mp asked
    refine .inr ⟨old, c, f c, rfl, alters_modifyClause found f, others c, ?_⟩
    rw [put]
    exact Demands.replacedAt_put there demand

/-! ### Commands -/

theorem commandSet_withPlace {l : List Command} {j : Nat} (placed : j < (withPlace l j).length) (f : Command → Command) :
    CommandSet (fun k k' => k' = f k) l j ((withPlace l j).modify j f) := by
  by_cases next : j = l.length ∧ j < Clause.maxCommands
  · refine .inr ⟨next, f .initial, ?_, rfl⟩
    rw [withPlace, if_pos next, next.1, Tape.modify_at_length]
  · rw [withPlace, if_neg next] at placed ⊢
    exact .inl ⟨l[j], f l[j], replacedAt_modify (List.getElem?_eq_getElem placed) f, rfl⟩

theorem writes_command {α : Type} (v : View) (i j : Nat) (f : Command → Command) (a : α) : v.Writes i
    (fun new c d => new = a ∧ d = { c with commands := d.commands } ∧
      CommandSet (fun k k' => k' = f k) c.commands j d.commands)
    (if (v.modifyCommand i j f).1 then some a else none, (v.modifyCommand i j f).2) := by
  rcases v.modifyCommand_cases i j f with ⟨refused, _⟩ | ⟨c, found, placed, done⟩
  · rw [refused]
    exact .inl rfl
  · rw [done]
    exact .inr ⟨a, c, _, rfl, alters_modifyClause found _, rfl, rfl, commandSet_withPlace placed f⟩

theorem length_withPlace_eq (l : List Command) (j : Nat) :
    (withPlace l j).length = if j = l.length ∧ j < 4 then l.length + 1 else l.length := by
  rw [withPlace, Clause.maxCommands]
  split
  · exact List.length_append
  · rfl

theorem appends_modifyCommand (v : View) (i j : Nat) (f : Command → Command) :
    v.Appends i (v.modifyCommand i j f).2 ↔ v.NextPlace i j := by
  rw [Appends]
  rcases v.modifyCommand_cases i j f with ⟨refused, full⟩ | ⟨c, found, placed, done⟩
  · rw [refused]
    constructor
    · intro more
      dsimp only at more
      omega
    · rintro ⟨c, found, next⟩
      have room := full c found
      rw [length_withPlace_eq, if_pos next] at room
      omega
  · have after : (v.modifyCommand i j f).2.clause? i = some { c with commands := (withPlace c.commands j).modify j f } := by
      rw [done, clause?_modifyClause, if_pos rfl, found, Option.map_some]
    rw [commandCount_of_clause? after, commandCount_of_clause? found, List.length_modify, length_withPlace_eq, NextPlace]
    simp [found]

theorem confined_removal (v : View) (i j : Nat) :
    ((v.clause? i).bind fun c => c.commands[j]?) = none ∧ v.removeCommand i j = (v.commandCount i, v) ∨
      ∃ c d, j < c.commands.length ∧ v.Alters i c d (v.removeCommand i j).2 ∧ d = { c with commands := d.commands } ∧
        (∀ k < j, d.commands[k]? = c.commands[k]?) ∧ (∀ k ≥ j, d.commands[k]? = c.commands[k + 1]?) ∧
        (v.removeCommand i j).1 = d.commands.length := by
  cases asked : (v.clause? i).bind fun c => c.commands[j]? with
  | none =>
    have same : (v.removeCommand i j).2 = v := by
      refine modifyClause_of_fixed fun c found => ?_
      have past : c.commands.length ≤ j := by simpa [found] using asked
      rw [List.eraseIdx_of_length_le past]
    refine .inl ⟨rfl, Prod.ext ?_ same⟩
    exact congrArg (commandCount · i) same
  | some k =>
    obtain ⟨c, found, there⟩ := Option.bind_eq_some_iff.mp asked
    obtain ⟨inside, _⟩ := List.getElem?_eq_some_iff.mp there
    refine .inr ⟨c, _, inside, alters_modifyClause found _, rfl, fun k before => ?_, fun k after => ?_, ?_⟩
    · exact List.getElem?_eraseIdx_of_lt before
    · exact List.getElem?_eraseIdx_of_ge after
    · refine commandCount_of_clause? ?_
      rw [clause?_modifyClause, if_pos rfl, found, Option.map_some]

/-! ### A clause that is made -/

theorem makeClause_eq_none {cell : Cell} (refused : v.makeClause cell = .ok (none, w)) : w = v := by
  rcases makeClause_eq_ok_iff.mp refused with ⟨_, _, _, ⟨⟩, _⟩ | ⟨_, _, _, _, _, ⟨⟩, _⟩ | ⟨_, _, same⟩
  exact same

theorem confined_clause {cell : Cell} {answer : Option Nat} (made : v.makeClause cell = .ok (answer, w)) :
    w = v ∧ (answer = none ∨ v.clauseAt cell = .ok answer) ∨
      v.clauseAt cell = .ok none ∧ answer = some v.rule.clauses.length ∧ ∃ d, v.storedCell cell = .ok d.cell ∧
        w = { v with rule := { v.rule with clauses := v.rule.clauses ++ [d] } } := by
  cases answer with
  | none => exact .inl ⟨makeClause_eq_none made, .inl rfl⟩
  | some i =>
    obtain ⟨inside, ⟨found, rfl⟩ | ⟨nowhere, rfl, d, cell, rfl⟩⟩ := makeClause_eq_some made
    · exact .inl ⟨rfl, .inr (by rw [w.clauseAt_eq inside, found])⟩
    · refine .inr ⟨?_, rfl, d, ?_, rfl⟩
      · rw [v.clauseAt_eq inside, nowhere]
      · rw [v.storedCell_eq inside, cell]

/-- Through whatever view, a write that is refused leaves the rule as it was, and one that is not changes what it is addressed to
    and nothing else. A command is put at the end exactly where the place is the next one and one of the four. -/
theorem writes_touch_one_place (v : View) : v.Confined where
  clause := confined_clause
  background i kind demand := v.writes_demand i kind demand Clause.backgrounds (fun _ => rfl)
    (fun c same => by rw [same]) fun _ => rfl
  sprite i kind demand := v.writes_demand i kind demand Clause.sprites (fun _ => rfl)
    (fun c same => by rw [same]) fun _ => rfl
  facing i f := by
    cases found : v.clause? i with
    | none =>
      refine .inl (Prod.ext ?_ (modifyClause_of_fixed fun c there => ?_))
      · rw [setFacing, found, Option.map_none]
      · cases found.symm.trans there
    | some c =>
      refine .inr ⟨f, c, _, ?_, alters_modifyClause found _, rfl, rfl, v.facingThrough_back f⟩
      rw [setFacing, found, Option.map_some]
  instruction i j inst := v.writes_command i j _ inst
  commandArg i j b := by
    rw [setCommandArg_eq]
    refine (v.writes_command i j (v.withArg b) b).imp ?_
    rintro new c d ⟨same, only, set⟩
    refine ⟨same, only, set.imp ?_⟩
    rintro k k' rfl
    rw [shown_withArg]
    exact ⟨rfl, rfl⟩
  instructionAppends i j inst := v.appends_modifyCommand i j _
  commandArgAppends i j b := v.appends_modifyCommand i j _
  removal := v.confined_removal

end View
end Playfield
