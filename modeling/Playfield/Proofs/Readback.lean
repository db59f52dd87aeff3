import Playfield.Proofs.Readings
import Playfield.Proofs.Writings

/-!
# What is read back

What is written to a view is read of it afterwards, and nothing else is changed that it shows: a write lands on the stored
clause that the view shows at the place. Through a transform this holds because what is written is mapped back.
-/
namespace Playfield

/-- A demand is put where there is one. -/
theorem Demands.get?_put_eq (d : Demands) (kind : Nat) (demand : Demand) (k : Nat) :
    (d.put kind demand).get? k = if k = kind then (d.get? kind).map fun _ => demand else d.get? k := by
  rw [get?_put]
  by_cases here : k = kind
  · subst here
    by_cases inside : k < d.len
    · obtain ⟨old, there⟩ := exists_get? inside
      simp [inside, there]
    · simp [inside, get?]
  · simp [here]

namespace View

variable {v w : View} {i : Nat}

/-- One view differs from another at most in the clause at one place, which is shown where it was. -/
structure DiffersAt (i : Nat) (v w : View) : Prop where
  trigger : w.rule.trigger = v.rule.trigger
  symmetry : w.rule.symmetry = v.rule.symmetry
  arg : w.arg = v.arg
  clauseAt : w.clauseAt = v.clauseAt
  cellOf : w.cellOf = v.cellOf
  others : ∀ j, j ≠ i → w.clause? j = v.clause? j

/-- What is written to a view is read of it afterwards. -/
structure ReadsBack (v : View) : Prop where
  clause : ∀ {c i w}, v.makeClause c = .ok (some i, w) → w.clauseAt c = .ok (some i) ∧ w.cellOf i = .ok (some c) ∧
    ∀ j, v.clause? j ≠ none → w.clause? j = v.clause? j
  background : ∀ {i kind d old w}, v.setBackground i kind d = (old, w) → v.DiffersAt i w ∧
    ∀ k, w.background? i k = if k = kind then old.map fun _ => d else v.background? i k
  sprite : ∀ {i kind d old w}, v.setSprite i kind d = (old, w) → v.DiffersAt i w ∧
    ∀ k, w.sprite? i k = if k = kind then old.map fun _ => d else v.sprite? i k
  facing : ∀ {i f new w}, v.setFacing i f = (new, w) → v.DiffersAt i w ∧ w.facingOf i = new
  commandArg : ∀ {i j b new w}, v.setCommandArg i j b = (new, w) → v.DiffersAt i w ∧
    ∀ k, w.command? i k =
      if k = j then new.map fun byte => ⟨((v.command? i j).getD .initial).inst, byte⟩ else v.command? i k
  removal : ∀ {i j n w}, v.removeCommand i j = (n, w) → v.DiffersAt i w ∧
    w.commands i = (v.commands i).eraseIdx j ∧ n = w.commandCount i
  arg : ∀ b, (v.setArg b).arg = b
  symmetry : ∀ s, (v.setSymmetry s).rule.symmetry = s

theorem DiffersAt.refl (i : Nat) (v : View) : v.DiffersAt i v := ⟨rfl, rfl, rfl, rfl, rfl, fun _ _ => rfl⟩

theorem clause?_modifyClause (v : View) (i j : Nat) (f : Clause → Clause) :
    (v.modifyClause i f).clause? j = if i = j then (v.clause? j).map f else v.clause? j := by
  rw [clause?, modifyClause, List.getElem?_modify, clause?]
  by_cases here : i = j
  · simp [here]
  · simp [here]

theorem differsAt_modifyClause (v : View) (i : Nat) {f : Clause → Clause} (cell : ∀ c, (f c).cell = c.cell) :
    v.DiffersAt i (v.modifyClause i f) where
  trigger := rfl
  symmetry := rfl
  arg := rfl
  clauseAt := by
    have cells : (v.modifyClause i f).rule.clauses.map Clause.cell = v.rule.clauses.map Clause.cell :=
      map_modify_of_fixed cell i v.rule.clauses
    have found (r : Rule) (stored : Cell) : r.find? stored = (r.clauses.map Clause.cell).findIdx? (· == stored) := by
      rw [Rule.find?, List.findIdx?_map]
      rfl
    funext c
    rw [clauseAt, clauseAt]
    simp only [found, cells]
    rfl
  cellOf := by
    funext j
    rw [cellOf, cellOf, clause?_modifyClause]
    by_cases here : i = j
    · rw [if_pos here]
      cases v.clause? j with
      | none => rfl
      | some c =>
        dsimp only [Option.map_some]
        rw [cell]
        rfl
    · rw [if_neg here]
      rfl
  others j other := by rw [clause?_modifyClause, if_neg other.symm]

/-! ### A clause that is made -/

theorem cellThrough_kept (v : View) {c : Cell} (shown : c.inWindow) :
    Transform.cellThrough v.transform (v.kept c) = .ok c := by
  rw [kept]
  cases v.transform with
  | none => rfl
  | some t =>
    have image := t.onCell_eq_ok (t.inverse.image_inWindow c shown)
    rw [t.image_undone shown] at image
    exact image

theorem cellOf_of_kept {c : Cell} (shown : c.inWindow) {d : Clause} (there : v.clause? i = some d)
    (cell : d.cell = v.kept c) : v.cellOf i = .ok (some c) := by
  rw [cellOf, there]
  dsimp only
  rw [cell, v.cellThrough_kept shown]
  rfl

/-- All that the making of a clause does. A clause that is shown at the cell is found. Else one that asks for nothing and does
    nothing is added at the end, unless the cell lies outside the window or the rule is full; then nothing changes. -/
theorem makeClause_eq_ok_iff {c : Cell} {answer : Option Nat} : v.makeClause c = .ok (answer, w) ↔
    (∃ i, c.inWindow ∧ v.place? c = some i ∧ answer = some i ∧ w = v) ∨
      (c.inWindow ∧ v.place? c = none ∧ v.rule.clauses.length < Rule.maxClauses ∧
        ∃ d, Clause.blank (v.kept c) v.kinds = .ok d ∧ answer = some v.rule.clauses.length ∧ w = v.addClause d) ∨
      (¬c.inWindow ∨ v.place? c = none ∧ Rule.maxClauses ≤ v.rule.clauses.length) ∧ answer = none ∧ w = v := by
  have done (i : Option Nat) (u : View) : (pure (i, u) : Checked (Option Nat × View)) = .ok (answer, w) ↔ answer = i ∧ w = u := by
    rw [pure_eq_ok, Prod.mk.injEq, eq_comm, @eq_comm _ u]
  rw [makeClause]
  by_cases inside : c.inWindow
  · rw [if_pos inside, v.clauseAt_eq inside, ok_bind]
    cases v.place? c with
    | some i => simp [inside, done]
    | none =>
      dsimp only
      by_cases room : v.rule.clauses.length < Rule.maxClauses
      · rw [if_pos room, v.storedCell_eq inside, ok_bind, bind_eq_ok]
        simp [inside, room, Nat.not_le.mpr room, done]
      · simp [inside, room, Nat.not_lt.mp room, done]
  · simp [inside, done]

/-- A clause is there before, or is added at the end. -/
theorem makeClause_eq_some {c : Cell} (made : v.makeClause c = .ok (some i, w)) : c.inWindow ∧
    (v.place? c = some i ∧ w = v ∨
      v.place? c = none ∧ i = v.rule.clauses.length ∧ ∃ d, d.cell = v.kept c ∧ w = v.addClause d) := by
  rcases makeClause_eq_ok_iff.mp made with
    ⟨_, inside, found, ⟨⟩, same⟩ | ⟨inside, nowhere, _, d, blank, ⟨⟩, added⟩ | ⟨_, ⟨⟩, _⟩
  · exact ⟨inside, .inl ⟨found, same⟩⟩
  · exact ⟨inside, .inr ⟨nowhere, rfl, d, (of_blank blank).1, added⟩⟩

theorem place?_addClause {c : Cell} (nowhere : v.place? c = none) {d : Clause} (cell : d.cell = v.kept c) :
    (v.addClause d).place? c = some v.rule.clauses.length := by
  have before : v.rule.clauses.findIdx? (fun e => e.cell == v.kept c) = none := nowhere
  show (v.rule.clauses ++ [d]).findIdx? (fun e => e.cell == v.kept c) = _
  rw [List.findIdx?_append, before]
  simp [cell]

theorem readsBack_clause {c : Cell} (made : v.makeClause c = .ok (some i, w)) :
    w.clauseAt c = .ok (some i) ∧ w.cellOf i = .ok (some c) ∧ ∀ j, v.clause? j ≠ none → w.clause? j = v.clause? j := by
  obtain ⟨shown, ⟨found, rfl⟩ | ⟨nowhere, rfl, d, cell, rfl⟩⟩ := makeClause_eq_some made
  · obtain ⟨inside, here, _⟩ := List.findIdx?_eq_some_iff_getElem.mp found
    refine ⟨by rw [w.clauseAt_eq shown, found], ?_, fun _ _ => rfl⟩
    exact cellOf_of_kept shown (List.getElem?_eq_getElem inside) (beq_iff_eq.mp here)
  · refine ⟨?_, ?_, fun j there => ?_⟩
    · rw [(v.addClause d).clauseAt_eq shown, place?_addClause nowhere cell]
    · exact cellOf_of_kept (v := v.addClause d) shown List.getElem?_concat_length cell
    · have inside : j < v.rule.clauses.length := by
        by_contra past
        exact there (List.getElem?_eq_none (Nat.le_of_not_lt past))
      rw [clause?, addClause, clause?, List.getElem?_append_left inside]

/-! ### A command that is changed -/

/-- A command that is changed is shown as it is stored then, and no other is shown changed. -/
theorem command?_modifyCommand (v : View) (i j : Nat) (g : Command → Command) :
    v.DiffersAt i (v.modifyCommand i j g).2 ∧ ∀ k, (v.modifyCommand i j g).2.command? i k =
      if k = j then if (v.modifyCommand i j g).1 then some (v.shown (g (v.stored i j))) else none
      else v.command? i k := by
  rcases v.modifyCommand_cases i j g with ⟨refused, full⟩ | ⟨c, found, placed, done⟩
  · rw [refused]
    refine ⟨.refl i v, fun k => ?_⟩
    have past : ((v.clause? i).bind fun c => c.commands[j]?) = none := by
      cases found : v.clause? i with
      | none => rfl
      | some c =>
        refine List.getElem?_eq_none (Nat.le_trans ?_ (full c found))
        rw [withPlace]
        split <;> simp
    by_cases here : k = j
    · rw [here, if_pos rfl, command?_eq, past]
      rfl
    · rw [if_neg here]
  · rw [done]
    refine ⟨v.differsAt_modifyClause i fun _ => rfl, fun k => ?_⟩
    rw [command?_eq, clause?_modifyClause, if_pos rfl, command?_eq, stored, found]
    dsimp only [Option.map_some, Option.bind_some]
    rw [getElem?_modify_withPlace, if_pos placed]
    by_cases here : k = j
    · rw [if_pos here, if_pos here]
      rfl
    · rw [if_neg here, if_neg here]
      rfl

/-- A command stored with the argument that is seen as another. -/
def withArg (v : View) (b : UInt8) (k : Command) : Command where
  inst := k.inst
  arg :=
    match v.back with
    | some t => t.onArg k.inst b
    | none => b

theorem shown_withArg (v : View) (b : UInt8) (k : Command) : v.shown (v.withArg b k) = ⟨(v.shown k).inst, b⟩ := by
  rw [shown, shown, withArg, back]
  cases v.transform with
  | none => rfl
  | some t =>
    dsimp only [Option.map_some]
    rw [t.onArg_undone]

theorem setCommandArg_eq (v : View) (i j : Nat) (b : UInt8) : v.setCommandArg i j b =
    (if (v.modifyCommand i j (v.withArg b)).1 then some b else none, (v.modifyCommand i j (v.withArg b)).2) := rfl

theorem readsBack_commandArg {j : Nat} {b : UInt8} {new : Option UInt8} (set : v.setCommandArg i j b = (new, w)) :
    v.DiffersAt i w ∧ ∀ k, w.command? i k =
      if k = j then new.map fun byte => ⟨((v.command? i j).getD .initial).inst, byte⟩ else v.command? i k := by
  rw [setCommandArg_eq] at set
  obtain ⟨rfl, rfl⟩ := Prod.mk.inj set
  obtain ⟨differs, shown⟩ := v.command?_modifyCommand i j (v.withArg b)
  refine ⟨differs, fun k => (shown k).trans ?_⟩
  rw [shown_withArg, inst_shown, ← inst_seen]
  cases (v.modifyCommand i j (v.withArg b)).1 <;> rfl

/-! ### The writes -/

/-- A facing that is mapped back is seen as it was written. -/
theorem facingThrough_back (v : View) (f : Facing) :
    Transform.facingThrough v.transform (Transform.facingThrough v.back f) = f := by
  rw [back]
  cases v.transform with
  | none => rfl
  | some t => exact t.onFacing_undone f

theorem readsBack (v : View) : v.ReadsBack where
  clause := readsBack_clause
  background {i kind d old w} set := by
    obtain ⟨rfl, rfl⟩ := Prod.mk.inj set
    refine ⟨v.differsAt_modifyClause i fun _ => rfl, fun k => ?_⟩
    rw [background?, background?, background?, clause?_modifyClause, if_pos rfl]
    cases v.clause? i with
    | none => simp
    | some c => exact c.backgrounds.get?_put_eq kind d k
  sprite {i kind d old w} set := by
    obtain ⟨rfl, rfl⟩ := Prod.mk.inj set
    refine ⟨v.differsAt_modifyClause i fun _ => rfl, fun k => ?_⟩
    rw [sprite?, sprite?, sprite?, clause?_modifyClause, if_pos rfl]
    cases v.clause? i with
    | none => simp
    | some c => exact c.sprites.get?_put_eq kind d k
  facing {i f new w} set := by
    obtain ⟨rfl, rfl⟩ := Prod.mk.inj set
    refine ⟨v.differsAt_modifyClause i fun _ => rfl, ?_⟩
    rw [facingOf, clause?_modifyClause, if_pos rfl, Option.map_map]
    exact congrArg (Option.map · (v.clause? i)) (funext fun _ => v.facingThrough_back f)
  commandArg := readsBack_commandArg
  removal {i j n w} set := by
    obtain ⟨rfl, rfl⟩ := Prod.mk.inj set
    refine ⟨v.differsAt_modifyClause i fun _ => rfl, ?_, rfl⟩
    rw [commands, clause?_modifyClause, if_pos rfl, commands]
    cases v.clause? i with
    | none => rfl
    | some c => exact (List.eraseIdx_map ..).symm
  arg b := by
    rw [arg, setArg, back]
    cases v.transform with
    | none => rfl
    | some t =>
      cases trigger : v.rule.trigger with
      | button => exact t.onByte_undone b
      | change | collision | negation => rfl
  symmetry _ := rfl

/-- Whatever is written to a rule through a transform is written to the rule written out under the transform as it is: the
    answers are the same, and what is stored afterwards is written out as what the other write leaves. It is read back
    through the transform. So it goes for any writes in turn. -/
theorem through_writesAs {r : Rule} (inside : r.InWindow) (t : Transform) (kinds : Kinds) (id : RuleId) :
    (through r t kinds).WritesAs t (base (r.mapped t) id kinds) ∧ (through r t kinds).ReadsBack ∧
      ∀ es : List Edit, (∀ e ∈ es, e.Mapped) →
        Alike (Shows t) (es.foldlM Edit.run (through r t kinds)) (es.foldlM Edit.run (base (r.mapped t) id kinds)) := by
  have shows := shows_through inside t kinds id
  exact ⟨shows.writesAs, readsBack _, fun _ mapped => Edit.foldlM_shows mapped shows⟩

/-- On the signpost turned to the left, a sprite asked to move down is stored as one that moves left, and so is what a third
    command is told. -/
theorem through_writesAs_signpost : signpost.InWindow ∧
    (through signpost .quarterLeft ⟨3, 2⟩).WritesAs .quarterLeft (base (signpost.mapped .quarterLeft) ⟨0⟩ ⟨3, 2⟩) ∧
    ((through signpost .quarterLeft ⟨3, 2⟩).setFacing 0 .down).2.rule.clauses.map (·.facing) = [.left] ∧
    ((through signpost .quarterLeft ⟨3, 2⟩).setCommandArg 0 2 (code Heading.down)).2.rule.clauses.map (·.commands) =
      [[.move (.go .right), .spawn ⟨1, some .right⟩, .move (.go .left)]] := by
  have inside : signpost.InWindow := by
    intro c member
    cases List.mem_singleton.mp member
    decide
  exact ⟨inside, (through_writesAs inside .quarterLeft ⟨3, 2⟩ ⟨0⟩).1, by decide, by decide⟩

end View
end Playfield
