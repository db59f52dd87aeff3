import Mathlib.Data.List.InsertIdx
import Playfield.Proofs.Alike
import Playfield.Proofs.Authoring

/-!
# What is written through a transform

A write through a transform is the same write to the rule written out: it answers the same, and leaves a stored rule that
is written out as the other one then is. What holds of each write holds of any number of them in turn.
-/
namespace Playfield

/-! ### Transforms undone -/

namespace Heading

theorem toNat_code_lt (h : Heading) : (code h).toNat < 16 := by
  cases h <;> decide

end Heading

namespace Spawn

theorem toNat_byte (kind : UInt8) (h : Heading) :
    (ofKind kind (some h)).byte.toNat = 16 * (code h).toNat + kind.toNat % 16 := by
  have low : kind.toNat % 16 < 2 ^ 4 := Nat.mod_lt _ (by decide)
  have small := h.toNat_code_lt
  rw [byte, ofKind, motionCode, UInt8.toNat_or, UInt8.toNat_shiftLeft, UInt8.toNat_mod]
  show (code h).toNat <<< 4 % 256 ||| kind.toNat % 16 = _
  have fits : (code h).toNat <<< 4 < 256 := by
    rw [Nat.shiftLeft_eq]
    omega
  rw [Nat.mod_eq_of_lt fits, ← Nat.shiftLeft_add_eq_or_of_lt low, Nat.shiftLeft_eq]
  omega

theorem ofByte_byte (kind : UInt8) (h : Heading) : ofByte (ofKind kind (some h)).byte = ofKind kind (some h) := by
  have whole := toNat_byte kind h
  have lower : (ofKind kind (some h)).byte % 16 = kind % 16 := by
    apply UInt8.toNat_inj.mp
    rw [UInt8.toNat_mod, UInt8.toNat_mod, whole]
    show _ % 16 = _ % 16
    omega
  have upper : (ofKind kind (some h)).byte / 16 = code h := by
    apply UInt8.toNat_inj.mp
    rw [UInt8.toNat_div, whole]
    show _ / 16 = _
    omega
  rw [ofByte, lower, upper, ofCode?_code]
  rfl

/-- The byte of a spawn that moves is made up again from its parts. -/
theorem byte_ofByte {b : UInt8} {h : Heading} (moving : (ofByte b).motion = some h) :
    (ofKind (ofByte b).kind (some h)).byte = b := by
  have upper : b / 16 = code h := ofCode?_eq_some_iff.mp moving
  apply UInt8.toNat_inj.mp
  rw [toNat_byte, ← upper, UInt8.toNat_div, ofByte, UInt8.toNat_mod]
  show 16 * (b.toNat / 16) + b.toNat % 16 % 16 = b.toNat
  omega

end Spawn

namespace Transform

theorem onHeading_undone (t : Transform) (h : Heading) : t.onHeading (t.inverse.onHeading h) = h := by
  cases t <;> cases h <;> rfl

theorem onFacing_undone (t : Transform) (f : Facing) : t.onFacing (t.inverse.onFacing f) = f := by
  cases t <;> cases f <;> rfl

theorem onByte_undone (t : Transform) (b : UInt8) : t.onByte (t.inverse.onByte b) = b := by
  cases coded : (ofCode? b : Option Heading) with
  | none => simp [onByte, coded]
  | some h =>
    obtain rfl := ofCode?_eq_some_iff.mp coded
    simp [onByte, onHeading_undone]

theorem onArg_undone (t : Transform) (inst : Instruction) (b : UInt8) : t.onArg inst (t.inverse.onArg inst b) = b := by
  cases inst with
  | move => exact t.onByte_undone b
  | spawn =>
    cases moving : (Spawn.ofByte b).motion with
    | none => simp [onArg, moving]
    | some h =>
      have turned : t.inverse.onArg .spawn b =
          (Spawn.ofKind (Spawn.ofByte b).kind (some (t.inverse.onHeading h))).byte := by simp [onArg, moving]
      rw [turned, onArg, Spawn.ofByte_byte]
      dsimp only [Spawn.ofKind]
      rw [onHeading_undone]
      have kept : (Spawn.ofByte b).kind % 16 % 16 = (Spawn.ofByte b).kind % 16 := by
        apply UInt8.toNat_inj.mp
        rw [UInt8.toNat_mod, UInt8.toNat_mod]
        exact Nat.mod_mod _ _
      rw [kept]
      exact Spawn.byte_ofByte moving
  | paint | sprite | game | portal | block => rfl

theorem image_undone (t : Transform) {c : Cell} (inside : c.inWindow) : t.image (t.inverse.image c) = c := by
  have back := t.inverse.image_inverse c inside
  rwa [inverse_inverse] at back

end Transform

/-! ### The rule that is shown -/

/-- A rule written out under a transform, with its symmetry. -/
def Rule.mapped (t : Transform) (r : Rule) : Rule := { r.materialise t with symmetry := r.symmetry }

namespace View

variable {t : Transform} {v u w : View}

/-- A view shows through a transform the rule that another view shows as it is. -/
structure Shows (t : Transform) (v u : View) : Prop where
  transform : v.transform = some t
  plain : u.transform = none
  kinds : v.kinds = u.kinds
  inside : v.rule.InWindow
  rule : v.rule.mapped t = u.rule

/-- Two writes answer the same, and what they leave is shown as before. -/
def Agree {α : Type} (t : Transform) (x y : α × View) : Prop := x.1 = y.1 ∧ x.2.Shows t y.2

/-- Whatever is written to two views is answered alike, and the one still shows what the other is. -/
structure WritesAs (t : Transform) (v u : View) : Prop where
  clause : ∀ c, Alike (Agree t) (v.makeClause c) (u.makeClause c)
  background : ∀ i kind d, Agree t (v.setBackground i kind d) (u.setBackground i kind d)
  sprite : ∀ i kind d, Agree t (v.setSprite i kind d) (u.setSprite i kind d)
  facing : ∀ i f, Agree t (v.setFacing i f) (u.setFacing i f)
  commandArg : ∀ i j b, Agree t (v.setCommandArg i j b) (u.setCommandArg i j b)
  removal : ∀ i j, Agree t (v.removeCommand i j) (u.removeCommand i j)
  arg : ∀ b, (v.setArg b).Shows t (u.setArg b)
  symmetry : ∀ s, (v.setSymmetry s).Shows t (u.setSymmetry s)

/-! ### Places for commands -/

/-- The command stored at a place, or the one with which a new place begins. -/
def stored (v : View) (i j : Nat) : Command := ((v.clause? i).bind fun c => c.commands[j]?).getD .initial

/-- The command seen at a place, or the one with which a new place begins. -/
def seen (v : View) (i j : Nat) : Command := (v.command? i j).getD .initial

theorem command?_eq (v : View) (i j : Nat) : v.command? i j = ((v.clause? i).bind fun c => c.commands[j]?).map v.shown := by
  rw [command?, commands]
  cases v.clause? i <;> simp

theorem inst_shown (v : View) (k : Command) : (v.shown k).inst = k.inst := by
  rw [shown]
  split <;> rfl

theorem inst_seen (v : View) (i j : Nat) : (v.seen i j).inst = (v.stored i j).inst := by
  rw [seen, command?_eq, stored]
  cases (v.clause? i).bind fun c => c.commands[j]? with
  | none => rfl
  | some k => exact v.inst_shown k

theorem getElem?_modify_withPlace (commands : List Command) (j k : Nat) (f : Command → Command) :
    ((withPlace commands j).modify j f)[k]? =
      if k = j then
        if j < (withPlace commands j).length then some (f (commands[j]?.getD .initial)) else none
      else commands[k]? := by
  rw [List.getElem?_modify, withPlace]
  by_cases next : j = commands.length ∧ j < Clause.maxCommands
  · obtain ⟨rfl, room⟩ := next
    rw [if_pos ⟨rfl, room⟩]
    by_cases here : k = commands.length
    · simp [here]
    · have beside : (commands ++ [Command.initial])[k]? = commands[k]? := by
        rw [List.getElem?_append]
        split
        · rfl
        · rename_i past
          rw [List.getElem?_eq_none (Nat.le_of_not_lt past), List.getElem?_eq_none]
          rw [List.length_singleton]
          omega
      simp [here, Ne.symm here, beside]
  · rw [if_neg next]
    by_cases here : k = j
    · subst here
      by_cases inside : k < commands.length
      · simp [inside]
      · simp [inside]
    · simp [here, Ne.symm here]

theorem length_withPlace_map (f : Command → Command) (commands : List Command) (j : Nat) :
    (withPlace (commands.map f) j).length = (withPlace commands j).length := by
  rw [withPlace, withPlace, List.length_map]
  split <;> simp

/-- A command is changed where its clause has a place for it or makes one; otherwise nothing is. -/
theorem modifyCommand_cases (v : View) (i j : Nat) (g : Command → Command) :
    (v.modifyCommand i j g = (false, v) ∧ ∀ c, v.clause? i = some c → (withPlace c.commands j).length ≤ j) ∨
      ∃ c, v.clause? i = some c ∧ j < (withPlace c.commands j).length ∧ v.modifyCommand i j g =
        (true, v.modifyClause i fun d => { d with commands := (withPlace c.commands j).modify j g }) := by
  rw [View.modifyCommand]
  cases v.clause? i with
  | none => exact .inl ⟨rfl, by simp⟩
  | some c =>
    by_cases placed : j < (withPlace c.commands j).length
    · exact .inr ⟨c, rfl, placed, if_pos placed⟩
    · refine .inl ⟨if_neg placed, ?_⟩
      rintro _ ⟨⟩
      exact Nat.le_of_not_lt placed

/-- A place is made and its command changed before a map, or after it. The command of a new place need not be mapped to
    itself, as long as the change makes up for it. -/
theorem map_modify_withPlace {f g h : Command → Command} {commands : List Command} {j : Nat}
    (same : f (g (commands[j]?.getD .initial)) = h ((commands.map f)[j]?.getD .initial)) :
    ((withPlace commands j).modify j g).map f = (withPlace (commands.map f) j).modify j h := by
  refine List.ext_getElem? fun k => ?_
  rw [List.getElem?_map, getElem?_modify_withPlace, getElem?_modify_withPlace, length_withPlace_map, ← same,
    List.getElem?_map]
  by_cases here : k = j
  · rw [if_pos here, if_pos here]
    split <;> rfl
  · rw [if_neg here, if_neg here]

namespace Shows

theorem clauses (shows : v.Shows t u) : u.rule.clauses = v.rule.clauses.map (Clause.materialise t) := by
  rw [← shows.rule]
  rfl

theorem clause? (shows : v.Shows t u) (i : Nat) : u.clause? i = (v.clause? i).map (Clause.materialise t) := by
  rw [View.clause?, View.clause?, shows.clauses, List.getElem?_map]

theorem background? (shows : v.Shows t u) (i kind : Nat) : v.background? i kind = u.background? i kind := by
  rw [View.background?, View.background?, shows.clause?]
  cases v.clause? i <;> rfl

theorem sprite? (shows : v.Shows t u) (i kind : Nat) : v.sprite? i kind = u.sprite? i kind := by
  rw [View.sprite?, View.sprite?, shows.clause?]
  cases v.clause? i <;> rfl

theorem commandCount (shows : v.Shows t u) (i : Nat) : v.commandCount i = u.commandCount i := by
  rw [View.commandCount, View.commandCount, commands, commands, shows.clause?]
  cases v.clause? i with
  | none => rfl
  | some c => simp [Clause.materialise]

theorem kept (shows : v.Shows t u) (c : Cell) : v.kept c = t.inverse.image c ∧ u.kept c = c := by
  rw [View.kept, View.kept, shows.transform, shows.plain]
  exact ⟨rfl, rfl⟩

theorem place? (shows : v.Shows t u) {c : Cell} (shown : c.inWindow) : v.place? c = u.place? c := by
  rw [View.place?, View.place?, (shows.kept c).1, (shows.kept c).2, ← shows.rule]
  exact (Rule.find?_materialise shows.inside t shown).symm

/-! ### Changes of a clause -/

theorem modifyClause (shows : v.Shows t u) (i : Nat) {f f' : Clause → Clause} (cell : ∀ c, (f c).cell = c.cell)
    (same : ∀ c, (f c).materialise t = f' (c.materialise t)) : (v.modifyClause i f).Shows t (u.modifyClause i f') where
  transform := shows.transform
  plain := shows.plain
  kinds := shows.kinds
  inside c member := by
    obtain ⟨b, before, rfl | rfl⟩ := mem_modify member
    · exact shows.inside _ before
    · rw [cell]
      exact shows.inside _ before
  rule := by
    have clauses := map_modify same i v.rule.clauses
    rw [View.modifyClause, View.modifyClause, ← shows.rule, Rule.mapped, Rule.materialise, clauses]
    rfl

theorem setBackground (shows : v.Shows t u) (i kind : Nat) (d : Demand) :
    Agree t (v.setBackground i kind d) (u.setBackground i kind d) :=
  ⟨shows.background? i kind, shows.modifyClause i (fun _ => rfl) fun _ => rfl⟩

theorem setSprite (shows : v.Shows t u) (i kind : Nat) (d : Demand) :
    Agree t (v.setSprite i kind d) (u.setSprite i kind d) :=
  ⟨shows.sprite? i kind, shows.modifyClause i (fun _ => rfl) fun _ => rfl⟩

theorem setFacing (shows : v.Shows t u) (i : Nat) (f : Facing) : Agree t (v.setFacing i f) (u.setFacing i f) := by
  constructor
  · rw [View.setFacing, View.setFacing, shows.clause?, Option.map_map]
    rfl
  · refine shows.modifyClause i (fun _ => rfl) fun c => ?_
    rw [back, back, shows.transform, shows.plain]
    simp [Clause.materialise, Transform.facingThrough, Transform.onFacing_undone]

theorem removeCommand (shows : v.Shows t u) (i j : Nat) : Agree t (v.removeCommand i j) (u.removeCommand i j) := by
  have after : (v.removeCommand i j).2.Shows t (u.removeCommand i j).2 := by
    refine shows.modifyClause i (fun _ => rfl) fun c => ?_
    simp [Clause.materialise, List.eraseIdx_map]
  exact ⟨after.commandCount i, after⟩

theorem shown (shows : v.Shows t u) (k : Command) : v.shown k = ⟨k.inst, t.onArg k.inst k.arg⟩ := by
  rw [View.shown, shows.transform]

theorem plain_shown (shows : v.Shows t u) (k : Command) : u.shown k = k := by
  rw [View.shown, shows.plain]

theorem command? (shows : v.Shows t u) (i j : Nat) : v.command? i j = u.command? i j := by
  have shown : v.shown = fun k => ⟨k.inst, t.onArg k.inst k.arg⟩ := funext shows.shown
  have plain : u.shown = fun k => k := funext shows.plain_shown
  rw [command?_eq, command?_eq, shows.clause?, shown, plain, Option.map_id']
  cases v.clause? i with
  | none => rfl
  | some c =>
    dsimp only [Option.map_some, Option.bind_some, Clause.materialise]
    rw [List.getElem?_map]

theorem stored (shows : v.Shows t u) (i j : Nat) : u.stored i j = v.seen i j := by
  have plain : u.shown = fun k => k := funext shows.plain_shown
  rw [View.stored, seen, shows.command?, command?_eq, plain, Option.map_id']

/-- A command is changed in step if the change of what is stored shows as the change of what is seen. -/
theorem modifyCommand (shows : v.Shows t u) {i j : Nat} {g h : Command → Command}
    (same : v.shown (g (v.stored i j)) = h (v.seen i j)) : Agree t (v.modifyCommand i j g) (u.modifyCommand i j h) := by
  rw [shows.shown, ← shows.stored, View.stored, View.stored, shows.clause?] at same
  rw [View.modifyCommand, View.modifyCommand, shows.clause?]
  cases found : v.clause? i with
  | none => exact ⟨rfl, shows⟩
  | some c =>
    rw [found] at same
    dsimp only [Option.map_some, Clause.materialise, Option.bind_some] at same ⊢
    rw [length_withPlace_map]
    by_cases placed : j < (withPlace c.commands j).length
    · rw [if_pos placed, if_pos placed]
      refine ⟨rfl, shows.modifyClause i (fun _ => rfl) fun d => ?_⟩
      rw [Clause.materialise, map_modify_withPlace same]
      rfl
    · rw [if_neg placed, if_neg placed]
      exact ⟨rfl, shows⟩

theorem setCommandArg (shows : v.Shows t u) (i j : Nat) (b : UInt8) :
    Agree t (v.setCommandArg i j b) (u.setCommandArg i j b) := by
  rw [View.setCommandArg, View.setCommandArg, back, back, shows.transform, shows.plain]
  have changed := shows.modifyCommand (i := i) (j := j) (g := fun k => { k with arg := t.inverse.onArg k.inst b })
    (h := fun k => { k with arg := b }) (by rw [shows.shown, t.onArg_undone, inst_seen])
  exact ⟨congrArg (if · then some b else none) changed.1, changed.2⟩

/-! ### Clauses that are made -/

theorem blank (shows : v.Shows t u) {c : Cell} (shown : c.inWindow) :
    Alike (fun a b => a.cell.inWindow ∧ a.materialise t = b) (Clause.blank (v.kept c) v.kinds)
      (Clause.blank (u.kept c) u.kinds) := by
  rw [(shows.kept c).1, (shows.kept c).2, shows.kinds]
  refine (Alike.refl (fun _ => Eq.refl _) _).bind fun backgrounds _ same => ?_
  subst same
  refine (Alike.refl (fun _ => Eq.refl _) _).bind fun sprites _ same => ?_
  subst same
  refine .ok ⟨t.inverse.image_inWindow c shown, ?_⟩
  rw [Clause.materialise, t.image_undone shown]
  rfl

theorem addClause (shows : v.Shows t u) {a b : Clause} (inside : a.cell.inWindow) (same : a.materialise t = b) :
    (v.addClause a).Shows t (u.addClause b) where
  transform := shows.transform
  plain := shows.plain
  kinds := shows.kinds
  inside := List.forall_mem_append.mpr ⟨shows.inside, List.forall_mem_singleton.mpr inside⟩
  rule := by
    rw [View.addClause, View.addClause, ← shows.rule, Rule.mapped, Rule.materialise, List.map_append, List.map_singleton,
      same]
    rfl

theorem makeClause (shows : v.Shows t u) (c : Cell) : Alike (Agree t) (v.makeClause c) (u.makeClause c) := by
  rw [View.makeClause, View.makeClause]
  by_cases shown : c.inWindow
  · rw [if_pos shown, if_pos shown, v.clauseAt_eq shown, u.clauseAt_eq shown, shows.place? shown, ok_bind, ok_bind]
    have length : u.rule.clauses.length = v.rule.clauses.length := by rw [shows.clauses, List.length_map]
    cases u.place? c with
    | some i => exact .ok ⟨rfl, shows⟩
    | none =>
      dsimp only
      rw [length]
      by_cases room : v.rule.clauses.length < Rule.maxClauses
      · rw [if_pos room, if_pos room, v.storedCell_eq shown, u.storedCell_eq shown, ok_bind, ok_bind]
        refine (shows.blank shown).bind fun a b made => ?_
        exact .ok ⟨rfl, shows.addClause made.1 made.2⟩
      · rw [if_neg room, if_neg room]
        exact .ok ⟨rfl, shows⟩
  · rw [if_neg shown, if_neg shown]
    exact .ok ⟨rfl, shows⟩

/-! ### The rule as a whole -/

theorem setSymmetry (shows : v.Shows t u) (s : Symmetry) : (v.setSymmetry s).Shows t (u.setSymmetry s) where
  transform := shows.transform
  plain := shows.plain
  kinds := shows.kinds
  inside := shows.inside
  rule := by
    rw [View.setSymmetry, View.setSymmetry, ← shows.rule]
    rfl

theorem setArg (shows : v.Shows t u) (b : UInt8) : (v.setArg b).Shows t (u.setArg b) where
  transform := shows.transform
  plain := shows.plain
  kinds := shows.kinds
  inside := shows.inside
  rule := by
    rw [View.setArg, View.setArg, back, back, shows.transform, shows.plain, ← shows.rule]
    cases trigger : v.rule.trigger with
    | button => simp [Rule.mapped, Rule.materialise, trigger, t.onByte_undone]
    | change | collision | negation => simp [Rule.mapped, Rule.materialise, trigger]

/-- Each write is answered alike and keeps what is shown. -/
theorem writesAs (shows : v.Shows t u) : v.WritesAs t u where
  clause := shows.makeClause
  background := shows.setBackground
  sprite := shows.setSprite
  facing := shows.setFacing
  commandArg := shows.setCommandArg
  removal := shows.removeCommand
  arg := shows.setArg
  symmetry := shows.setSymmetry

end Shows

theorem shows_through {r : Rule} (inside : r.InWindow) (t : Transform) (kinds : Kinds) (id : RuleId) :
    (through r t kinds).Shows t (base (r.mapped t) id kinds) := ⟨rfl, rfl, rfl, inside, rfl⟩

end View

/-! ### Many writes -/

/-- An edit that writes a value as it is seen. A new trigger or instruction gives another meaning to an argument that stays
    as it is stored. -/
def Edit.Mapped : Edit → Prop
  | trigger _ | instruction .. => False
  | _ => True

theorem Edit.run_shows {t : Transform} {v u : View} {e : Edit} (mapped : e.Mapped) (shows : v.Shows t u) :
    Alike (View.Shows t) (e.run v) (e.run u) := by
  cases e with
  | symmetry s => exact .ok (shows.setSymmetry s)
  | trigger => exact mapped.elim
  | arg b => exact .ok (shows.setArg b)
  | clause c => exact (shows.makeClause c).bind fun _ _ agree => .ok agree.2
  | background i kind d => exact .ok (shows.setBackground i kind d).2
  | sprite i kind d => exact .ok (shows.setSprite i kind d).2
  | facing i f => exact .ok (shows.setFacing i f).2
  | instruction => exact mapped.elim
  | commandArg i j b => exact .ok (shows.setCommandArg i j b).2
  | removal i j => exact .ok (shows.removeCommand i j).2

/-- Whatever is written in turn, the view shows the rule to which the same is written. -/
theorem Edit.foldlM_shows {t : Transform} {v u : View} {es : List Edit} (mapped : ∀ e ∈ es, e.Mapped)
    (shows : v.Shows t u) : Alike (View.Shows t) (es.foldlM Edit.run v) (es.foldlM Edit.run u) := by
  induction es generalizing v u with
  | nil => exact .ok shows
  | cons e rest ih =>
    obtain ⟨first, later⟩ := List.forall_mem_cons.mp mapped
    rw [List.foldlM_cons, List.foldlM_cons]
    exact (Edit.run_shows first shows).bind fun _ _ after => ih later after

end Playfield
