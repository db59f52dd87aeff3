import Playfield.Proofs.Readback

/-!
# Another meaning for an argument

What a transform makes of an argument hangs on what stands beside it, the instruction of the command or the trigger of the rule.
To set either leaves the argument as it is stored. In a rule that is seen as it is, the argument so stays; through a transform
it is seen as the new instruction or trigger makes it, which need not be what was seen before.
-/
namespace Playfield.View

variable {t : Transform} {v u : View}

/-- One view differs from another at most in the commands of the clause at one place. -/
structure DiffersInCommands (i : Nat) (v w : View) : Prop extends v.DiffersAt i w where
  background : w.background? i = v.background? i
  sprite : w.sprite? i = v.sprite? i
  facing : w.facingOf i = v.facingOf i

/-- What is seen after an instruction or the trigger is set, in a view through a transform and in a view of the rule written
    out. The first write has the effect of the second one exactly if the argument is seen as before. -/
structure Retags (t : Transform) (v u : View) : Prop where
  instruction : ∀ i j inst, v.DiffersInCommands i (v.setInstruction i j inst).2 ∧
    ∀ k, (v.setInstruction i j inst).2.command? i k =
      if k = j then (v.setInstruction i j inst).1.map fun _ => ⟨inst, t.onArg inst (v.stored i j).arg⟩
      else v.command? i k
  writtenInstruction : ∀ i j inst, (u.setInstruction i j inst).1 = (v.setInstruction i j inst).1 ∧
    u.DiffersInCommands i (u.setInstruction i j inst).2 ∧
    ∀ k, (u.setInstruction i j inst).2.command? i k =
      if k = j then (v.setInstruction i j inst).1.map fun _ => ⟨inst, (v.seen i j).arg⟩ else v.command? i k
  agree : ∀ i j inst, Agree t (v.setInstruction i j inst) (u.setInstruction i j inst) ↔
    ((v.setInstruction i j inst).1 = none ∨ t.onArg inst (v.stored i j).arg = (v.seen i j).arg)
  trigger : ∀ x, (v.setTrigger x).arg = if x = .button then t.onByte v.rule.arg else v.rule.arg
  writtenTrigger : ∀ x, (u.setTrigger x).arg = v.arg
  shows : ∀ x, (v.setTrigger x).Shows t (u.setTrigger x) ↔ (v.setTrigger x).arg = v.arg

theorem setInstruction_eq (v : View) (i j : Nat) (inst : Instruction) : v.setInstruction i j inst =
    (if (v.modifyCommand i j fun k => { k with inst := inst }).1 then some inst else none,
      (v.modifyCommand i j fun k => { k with inst := inst }).2) := rfl

theorem modifyCommand_fst (v : View) (i j : Nat) (g : Command → Command) :
    (v.modifyCommand i j g).1 = (v.clause? i).any fun c => j < (withPlace c.commands j).length := by
  rcases v.modifyCommand_cases i j g with ⟨refused, full⟩ | ⟨c, found, placed, done⟩
  · rw [refused]
    cases found : v.clause? i with
    | none => rfl
    | some c => exact (decide_eq_false (Nat.not_lt.mpr (full c found))).symm
  · rw [done, found]
    exact (decide_eq_true placed).symm

theorem differsInCommands_modifyCommand (v : View) (i j : Nat) (g : Command → Command) :
    v.DiffersInCommands i (v.modifyCommand i j g).2 := by
  rcases v.modifyCommand_cases i j g with ⟨refused, _⟩ | ⟨c, found, _, done⟩
  · rw [refused]
    exact ⟨.refl i v, rfl, rfl, rfl⟩
  · rw [done]
    refine ⟨v.differsAt_modifyClause i fun _ => rfl, ?_, ?_, ?_⟩
    · funext kind
      rw [background?, background?, clause?_modifyClause, if_pos rfl, found]
      rfl
    · funext kind
      rw [sprite?, sprite?, clause?_modifyClause, if_pos rfl, found]
      rfl
    · rw [facingOf, facingOf, clause?_modifyClause, if_pos rfl, found]
      rfl

theorem differsInCommands_setInstruction (v : View) (i j : Nat) (inst : Instruction) :
    v.DiffersInCommands i (v.setInstruction i j inst).2 := v.differsInCommands_modifyCommand i j _

/-- A command with a new instruction is seen as it is stored then. -/
theorem command?_setInstruction (v : View) (i j : Nat) (inst : Instruction) (k : Nat) :
    (v.setInstruction i j inst).2.command? i k =
      if k = j then (v.setInstruction i j inst).1.map fun _ => v.shown ⟨inst, (v.stored i j).arg⟩ else v.command? i k := by
  rw [setInstruction_eq, (v.command?_modifyCommand i j _).2]
  cases (v.modifyCommand i j fun k => { k with inst := inst }).1 <;> rfl

/-- An instruction that is refused changes nothing. -/
theorem setInstruction_of_none {i j : Nat} {inst : Instruction} (refused : (v.setInstruction i j inst).1 = none) :
    (v.setInstruction i j inst).2 = v := by
  rw [setInstruction_eq] at refused ⊢
  rcases v.modifyCommand_cases i j fun k => { k with inst := inst } with ⟨unchanged, _⟩ | ⟨_, _, _, done⟩
  · rw [unchanged]
  · rw [done] at refused
    cases refused

namespace Shows

/-- A new instruction shows if its argument is seen as before. -/
theorem agree_setInstruction (shows : v.Shows t u) {i j : Nat} {inst : Instruction}
    (seen : t.onArg inst (v.stored i j).arg = (v.seen i j).arg) :
    Agree t (v.setInstruction i j inst) (u.setInstruction i j inst) := by
  have changed := shows.modifyCommand (i := i) (j := j) (g := fun k => { k with inst := inst })
    (h := fun k => { k with inst := inst }) (by rw [shows.shown, seen])
  rw [setInstruction_eq, setInstruction_eq]
  exact ⟨congrArg (if · then some inst else none) changed.1, changed.2⟩

theorem setInstruction_fst (shows : v.Shows t u) (i j : Nat) (inst : Instruction) :
    (u.setInstruction i j inst).1 = (v.setInstruction i j inst).1 := by
  have places (c : Clause) : (withPlace (c.materialise t).commands j).length = (withPlace c.commands j).length :=
    length_withPlace_map _ c.commands j
  rw [setInstruction_eq, setInstruction_eq, modifyCommand_fst, modifyCommand_fst, shows.clause?, Option.any_map]
  simp only [places]

/-- A rule written out has the argument that is seen. -/
theorem mapped_eq {v : View} (through : v.transform = some t) :
    v.rule.mapped t = { v.rule with arg := v.arg, clauses := v.rule.clauses.map (Clause.materialise t) } := by
  obtain ⟨⟨trigger, arg, clauses, symmetry⟩, id, transform, kinds⟩ := v
  obtain rfl : transform = some t := through
  cases trigger <;> rfl

theorem arg_eq (shows : v.Shows t u) : u.arg = v.arg := by
  rw [View.arg, shows.plain, ← shows.rule, mapped_eq shows.transform]

theorem arg_setTrigger (shows : v.Shows t u) (x : Trigger) : (u.setTrigger x).arg = v.arg := by
  rw [← shows.arg_eq, View.arg, setTrigger, View.arg, shows.plain]

theorem retags (shows : v.Shows t u) : v.Retags t u where
  instruction i j inst := by
    refine ⟨v.differsInCommands_setInstruction i j inst, fun k => ?_⟩
    rw [command?_setInstruction, shows.shown]
  writtenInstruction i j inst := by
    refine ⟨shows.setInstruction_fst i j inst, u.differsInCommands_setInstruction i j inst, fun k => ?_⟩
    rw [command?_setInstruction, shows.setInstruction_fst, shows.plain_shown, shows.stored, shows.command?]
  agree i j inst := by
    constructor
    · rintro ⟨_, after⟩
      cases answer : (v.setInstruction i j inst).1 with
      | none => exact .inl rfl
      | some _ =>
        have here := v.command?_setInstruction i j inst j
        have there := u.command?_setInstruction i j inst j
        rw [if_pos rfl, answer, shows.shown] at here
        rw [if_pos rfl, shows.setInstruction_fst, answer, shows.plain_shown, shows.stored, ← after.command?, here] at there
        exact .inr (congrArg Command.arg (Option.some.inj there))
    · rintro (refused | seen)
      · have also := (shows.setInstruction_fst i j inst).trans refused
        refine ⟨refused.trans also.symm, ?_⟩
        rw [setInstruction_of_none refused, setInstruction_of_none also]
        exact shows
      · exact shows.agree_setInstruction seen
  trigger x := by
    rw [View.arg, setTrigger, shows.transform]
    cases x <;> rfl
  writtenTrigger := shows.arg_setTrigger
  shows x := by
    constructor
    · intro after
      rw [← after.arg_eq, shows.arg_setTrigger]
    · intro same
      refine ⟨shows.transform, shows.plain, shows.kinds, shows.inside, ?_⟩
      have after : (v.setTrigger x).transform = some t := shows.transform
      rw [mapped_eq after, same, setTrigger, setTrigger, ← shows.rule, mapped_eq shows.transform]

end Shows

/-- To set an instruction or the trigger through a transform does not have the effect of the same write to the rule written
    out, which leaves the arguments as they were seen: what is stored stays, and is seen under the new instruction or
    trigger. The two agree exactly if this makes no difference. -/
theorem through_retags {r : Rule} (inside : r.InWindow) (t : Transform) (kinds : Kinds) (id : RuleId) :
    (through r t kinds).Retags t (base (r.mapped t) id kinds) :=
  (shows_through inside t kinds id).retags

theorem through_retags_signpost : signpost.InWindow ∧
    (through signpost .quarterLeft ⟨3, 2⟩).Retags .quarterLeft (base (signpost.mapped .quarterLeft) ⟨0⟩ ⟨3, 2⟩) :=
  ⟨signpost_inWindow, through_retags signpost_inWindow .quarterLeft ⟨3, 2⟩ ⟨0⟩⟩

/-- On the signpost turned to the left, a sprite is told to move up and the button is the one downward. With another
    instruction beside it the first of these arguments is seen as another one, and so is the second without a button. -/
theorem signpost_seen_otherwise : signpost.InWindow ∧
    (through signpost .quarterLeft ⟨3, 2⟩).command? 0 0 = some ⟨.move, 1⟩ ∧
    ((through signpost .quarterLeft ⟨3, 2⟩).setInstruction 0 0 .paint).2.command? 0 0 = some ⟨.paint, 2⟩ ∧
    ((base (signpost.mapped .quarterLeft) ⟨0⟩ ⟨3, 2⟩).setInstruction 0 0 .paint).2.command? 0 0 = some ⟨.paint, 1⟩ ∧
    (through signpost .quarterLeft ⟨3, 2⟩).arg = 3 ∧ ((through signpost .quarterLeft ⟨3, 2⟩).setTrigger .change).arg = 0 :=
  ⟨signpost_inWindow, by decide, by decide, by decide, by decide, by decide⟩

end Playfield.View
