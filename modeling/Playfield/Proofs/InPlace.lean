import Playfield.Proofs.Authoring

/-!
# Calls in place

A call works on a project write by write, and what it has written stays written even if it fails later on. Followed in
this way every call does what the operation of the same name says, and one that fails leaves the project as it was: it
has written nothing yet, or has put back what it overwrote.
-/
namespace Playfield

theorem Project.importRule_of_decode {p : Project} {id : RuleId} {bytes : List UInt8} {rule : Rule}
    (low : id.raw < RuleId.last.raw) (decoded : Record.decode bytes p.kinds = .ok rule) : p.importRule id bytes =
      match p.rules.insertAt id rule with
      | some rules => .ok { p with rules := rules }
      | none => .error (.refused (.idInUse id)) := by
  rw [importRule, if_neg (Nat.not_le.mpr low), decoded, Except.mapError, ok_bind]
  cases p.rules.insertAt id rule <;> rfl

/-- Work on a project in place. What is written stays written, also if the work fails later on. -/
abbrev Work := ExceptT (Failure ProjectError) (StateM Project)

namespace Work

variable {α β : Type}

/-- What work comes to, and the project as it leaves it. -/
def perform (w : Work α) (p : Project) : Except (Failure ProjectError) α × Project := w.run.run p

/-- A request that reads nothing of the project. -/
def answer (x : Except (Failure ProjectError) α) : Work α := ExceptT.mk (pure x)

/-- What the table has at an id: a rule, the mark of one that was removed, or nothing. -/
def entry (id : RuleId) : Work (Option (Option Rule)) := return (← get).rules.slots.get? id.raw

/-- Writes an entry of the table. -/
def write (id : RuleId) (slot : Option Rule) : Work Unit :=
  modify fun p => { p with rules := { p.rules with slots := p.rules.slots.insert id.raw slot } }

/-- Sets the next id. -/
def setNext (next : Nat) : Work Unit := modify fun p => { p with rules := { p.rules with next := next } }

/-- Adds a rule under the next id. -/
def push (rule : Rule) : Work RuleId := do
  let id : RuleId := ⟨(← get).rules.next⟩
  if RuleId.last.raw ≤ id.raw then throw (.refused .idsExhausted)
  write id (some rule)
  setNext (id.raw + 1)
  return id

/-- Adds a rule for a sprite kind. -/
def make (kind : Nat) (trigger : Trigger) (byte : UInt8) : Work RuleId := do
  let p ← get
  let rule ← answer (Failure.lift (p.draft kind trigger byte))
  push rule

/-- Puts the rule of a record at an id. -/
def load (id : RuleId) (bytes : List UInt8) : Work Unit := do
  if RuleId.last.raw ≤ id.raw then throw (.refused (.idOutOfRange id))
  let p ← get
  let rule ← answer ((Record.decode bytes p.kinds).mapError (Project.refuseRecord id))
  if (← entry id).isSome then throw (.refused (.idInUse id))
  write id (some rule)
  setNext (max (← get).rules.next (id.raw + 1))

/-- Marks the rule of an id as removed. What is no rule is overwritten too, and then put back. -/
def remove (id : RuleId) : Work (Option Rule) := do
  match ← entry id with
  | none => return none
  | some former =>
    write id none
    if former.isNone then write id former
    return former

/-- Changes the rule of an id, if it has one. -/
def rewrite (id : RuleId) (change : Rule → Checked Rule) : Work (Option Rule) := do
  match (← entry id).join with
  | none => return none
  | some rule =>
    write id (some (← answer (Failure.lift (change rule))))
    return some rule

section

variable {p : Project}

@[simp] theorem perform_pure (a : α) : (pure a : Work α).perform p = (.ok a, p) := rfl

@[simp] theorem perform_get : (get : Work Project).perform p = (.ok p, p) := rfl

@[simp] theorem perform_throw (cause : Failure ProjectError) : (throw cause : Work α).perform p = (.error cause, p) :=
  rfl

@[simp] theorem perform_answer (x : Except (Failure ProjectError) α) : (answer x).perform p = (x, p) := rfl

@[simp] theorem perform_write (id : RuleId) (slot : Option Rule) : (write id slot).perform p =
    (.ok (), { p with rules := { p.rules with slots := p.rules.slots.insert id.raw slot } }) := rfl

@[simp] theorem perform_setNext (next : Nat) :
    (setNext next).perform p = (.ok (), { p with rules := { p.rules with next := next } }) := rfl

@[simp] theorem perform_bind (w : Work α) (f : α → Work β) : (w >>= f).perform p =
    match w.perform p with
    | (.ok a, q) => (f a).perform q
    | (.error cause, q) => (.error cause, q) := by
  unfold perform
  simp only [ExceptT.run_bind, StateT.run_bind]
  cases (ExceptT.run w).run p with
  | mk r q => cases r <;> rfl

@[simp] theorem perform_map (f : α → β) (w : Work α) : (f <$> w).perform p =
    match w.perform p with
    | (.ok a, q) => (.ok (f a), q)
    | (.error cause, q) => (.error cause, q) := by
  rw [map_eq_pure_bind, perform_bind]
  simp only [perform_pure]

@[simp] theorem perform_entry (id : RuleId) : (entry id).perform p = (.ok (p.rules.slots.get? id.raw), p) := rfl

end

theorem perform_push (rule : Rule) (p : Project) : (push rule).perform p =
    match p.addRule rule with
    | .ok (id, q) => (.ok id, q)
    | .error cause => (.error (.refused cause), p) := by
  rw [Project.addRule, RuleBook.push, RuleBook.isFull]
  by_cases full : RuleId.last.raw ≤ p.rules.next
  · simp [push, full]
  · simp [push, full]

theorem perform_remove (id : RuleId) (p : Project) :
    (remove id).perform p = (.ok (p.removeRule id).1, (p.removeRule id).2) := by
  rw [Project.removeRule, RuleBook.remove, RuleBook.get?]
  cases found : p.rules.slots.get? id.raw with
  | none => simp [remove, found]
  | some former =>
    cases former with
    | some rule => simp [remove, found]
    | none =>
      have back := IdMap.insert_eq_self found
      simp [remove, found, back]

theorem perform_rewrite (id : RuleId) (change : Rule → Checked Rule) (p : Project) : (rewrite id change).perform p =
    match p.rule? id with
    | none => (.ok none, p)
    | some rule =>
      match change rule with
      | .ok new => (.ok (some rule), p.setRule id new)
      | .error cause => (.error (.fault cause), p) := by
  rw [Project.rule?, RuleBook.get?]
  cases found : (p.rules.slots.get? id.raw).join with
  | none => simp [rewrite, found]
  | some rule =>
    cases changed : change rule with
    | error cause => simp [rewrite, found, changed, Failure.lift]
    | ok new =>
      have written := IdMap.insert_eq_modify (Option.join_eq_some_iff.mp found) fun slot => slot.map fun _ => new
      rw [Option.map_some] at written
      simp [rewrite, found, changed, Failure.lift, written, Project.setRule, RuleBook.set]

theorem perform_load (id : RuleId) (bytes : List UInt8) (p : Project) : (load id bytes).perform p =
    match p.importRule id bytes with
    | .ok q => (.ok (), q)
    | .error cause => (.error cause, p) := by
  by_cases past : RuleId.last.raw ≤ id.raw
  · have imported : p.importRule id bytes = .error (.refused (.idOutOfRange id)) := if_pos past
    simp [load, past, imported]
  · have low := Nat.not_le.mp past
    cases decoded : (Record.decode bytes p.kinds).mapError (Project.refuseRecord id) with
    | error cause =>
      have imported : p.importRule id bytes = .error cause := by
        rw [Project.importRule, if_neg past, decoded]
        rfl
      simp [load, past, decoded, imported]
    | ok rule =>
      have imported := Project.importRule_of_decode low (Project.mapError_eq_ok decoded)
      cases found : p.rules.slots.get? id.raw with
      | none =>
        have inserted : p.rules.insertAt id rule =
            some ⟨p.rules.slots.insert id.raw (some rule), max p.rules.next (id.raw + 1)⟩ := by
          simp [RuleBook.insertAt, IdMap.contains, low, found]
        simp [load, past, decoded, found, imported, inserted]
      | some slot =>
        have inserted : p.rules.insertAt id rule = none := by simp [RuleBook.insertAt, IdMap.contains, found]
        simp [load, past, decoded, found, imported, inserted]

/-- A draft fails exactly where the bytes of the kinds cannot be counted. -/
theorem draft_of_checkKinds (p : Project) (kind : Nat) (trigger : Trigger) (byte : UInt8) :
    match Clause.checkKinds p.kinds with
    | .ok _ => ∃ rule, p.draft kind trigger byte = .ok rule
    | .error cause => p.draft kind trigger byte = .error cause := by
  rw [Clause.checkKinds, Project.draft, Clause.blank, Demands.blank, Demands.blank]
  cases Demands.checkedLength p.kinds.backgrounds with
  | error cause => rfl
  | ok backgrounds =>
    cases Demands.checkedLength p.kinds.sprites with
    | error cause => rfl
    | ok sprites =>
      cases trigger <;> exact ⟨_, rfl⟩

theorem perform_make (kind : Nat) (trigger : Trigger) (byte : UInt8) (p : Project) :
    (make kind trigger byte).perform p =
      match p.makeRule kind trigger byte with
      | .ok (id, q) => (.ok id, q)
      | .error cause => (.error cause, p) := by
  have drafted := draft_of_checkKinds p kind trigger byte
  cases counted : Clause.checkKinds p.kinds with
  | error cause =>
    rw [counted] at drafted
    have made : p.makeRule kind trigger byte = .error (.fault cause) := by
      rw [Project.makeRule, counted]
      rfl
    simp [make, drafted, made, Failure.lift]
  | ok _ =>
    rw [counted] at drafted
    obtain ⟨rule, drafted⟩ := drafted
    have made : p.makeRule kind trigger byte = (p.addRule rule).mapError .refused := by
      rw [Project.makeRule, counted, lift_ok, ok_bind, drafted]
      by_cases full : p.rules.isFull
      · rw [if_pos full, Project.addRule, RuleBook.push, if_pos full]
        rfl
      · rw [if_neg full, lift_ok, ok_bind]
    rw [made]
    simp only [make, perform_bind, perform_get, drafted, Failure.lift, perform_answer, perform_push]
    cases p.addRule rule <;> rfl

end Work

namespace Project

/-- An operation in place. -/
def Operation.work : Operation → Work Unit
  | setPlayer kind => modify fun p => p.setPlayer kind
  | add rule => do let _ ← Work.push rule
  | make kind trigger byte => do let _ ← Work.make kind trigger byte
  | edit id e => do
    let p ← get
    let _ ← Work.rewrite id fun rule => return (← e.run (.base rule id p.kinds)).rule
  | replace id rule => do let _ ← Work.rewrite id fun _ => return rule
  | remove id => do let _ ← Work.remove id
  | load id bytes => Work.load id bytes

/-- An operation that fails in place leaves the project as it was, and any other leaves what it answers with. -/
theorem perform_work (op : Operation) (p : Project) : op.work.perform p =
    match op.run p with
    | .ok q => (.ok (), q)
    | .error cause => (.error cause, p) := by
  cases op with
  | setPlayer kind => rfl
  | add rule =>
    simp only [Operation.work, Operation.run, Work.perform_bind, Work.perform_push]
    cases p.addRule rule <;> rfl
  | make kind trigger byte =>
    simp only [Operation.work, Operation.run, Work.perform_bind, Work.perform_make]
    cases p.makeRule kind trigger byte <;> rfl
  | edit id e =>
    simp only [Operation.work, Operation.run, view?, Work.perform_bind, Work.perform_get, Work.perform_rewrite]
    cases p.rule? id with
    | none => rfl
    | some rule =>
      dsimp only [Option.map_some]
      cases e.run (.base rule id p.kinds) <;> rfl
  | replace id rule =>
    simp only [Operation.work, Operation.run, Work.perform_bind, Work.perform_rewrite]
    cases absent : p.rule? id with
    | none =>
      have same : p.setRule id rule = p := by rw [setRule, RuleBook.set_of_get?_eq_none absent]
      rw [same]
      rfl
    | some former => rfl
  | remove id =>
    simp only [Operation.work, Operation.run, Work.perform_bind, Work.perform_remove]
    rfl
  | load id bytes => exact Work.perform_load id bytes p

end Project
end Playfield
