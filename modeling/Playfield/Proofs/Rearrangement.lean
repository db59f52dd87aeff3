import Playfield.Proofs.Sweeps

/-!
# Clauses in another order, and clauses left out

The clauses of a rule are looked up by their cells. As long as no two have the same cell, their order makes no difference to
what is matched, and a clause can be left out if it asks for nothing and does nothing, or if its cell is never looked at. An
idle clause is looked at all the same, so that the tile under it must have a name: only where the coordinates of a tile
overflow can the shorter rule go further.
-/
namespace Playfield

variable {ι : Type}

/-- A clause that makes no difference: it is idle, or nothing looks at its cell. -/
def Clause.Negligible (c : Clause) : Prop := c.isIdle ∨ ¬c.cell.inWindow ∨ 2 < c.cell.distance

namespace View

/-- The view with other clauses in its rule. -/
def withClauses (v : View) (clauses : List Clause) : View := { v with rule := { v.rule with clauses := clauses } }

/-- Around a tile, one of some idle clauses is looked at where no tile can be named. -/
def Overreaches (v : View) (home : Tile) (dropped : List Clause) : Prop :=
  ∃ c ∈ Cell.neighbourhood, ∃ clause ∈ dropped, clause.isIdle ∧ clause.cell = v.kept c ∧
    home.shifted c.offset = .error .overflow

variable {v : View} {c : Cell} {clause : Clause} {kept dropped : List Clause}

/-! ### Clauses by their cells -/

/-- What is shown at a cell is the one clause that is stored for it. -/
theorem shownAt_eq_some_iff (distinct : (v.rule.clauses.map (·.cell)).Nodup) :
    v.shownAt c = some clause ↔ clause ∈ v.rule.clauses ∧ clause.cell = v.kept c := by
  have of_shown {d : Clause} (shown : v.shownAt c = some d) : d ∈ v.rule.clauses ∧ d.cell = v.kept c := by
    obtain ⟨i, found, there⟩ := Option.bind_eq_some_iff.mp shown
    obtain ⟨inside, here, _⟩ := List.findIdx?_eq_some_iff_getElem.mp found
    cases (List.getElem?_eq_getElem inside).symm.trans there
    exact ⟨List.getElem_mem inside, by simpa using here⟩
  refine ⟨of_shown, ?_⟩
  rintro ⟨member, cell⟩
  cases shown : v.shownAt c with
  | none =>
    have nowhere : v.rule.find? (v.kept c) = none := place?_eq_none shown
    have away := List.findIdx?_eq_none_iff.mp nowhere clause member
    simp [cell] at away
  | some d =>
    obtain ⟨also, same⟩ := of_shown shown
    rw [List.inj_on_of_nodup_map distinct also member (same.trans cell.symm)]

/-- With the clauses that are kept, in any order, the same is shown at a cell, or nothing where a dropped clause was. -/
theorem shownAt_withClauses (distinct : (v.rule.clauses.map (·.cell)).Nodup)
    (rearranged : v.rule.clauses.Perm (kept ++ dropped)) (c : Cell) :
    (v.withClauses kept).shownAt c = v.shownAt c ∨
      ∃ clause ∈ dropped, clause.cell = v.kept c ∧ v.shownAt c = some clause ∧ (v.withClauses kept).shownAt c = none := by
  have distinct_kept : ((v.withClauses kept).rule.clauses.map (·.cell)).Nodup := by
    have all := (rearranged.map (·.cell)).nodup_iff.mp distinct
    rw [List.map_append] at all
    exact (List.nodup_append.mp all).1
  cases shorter : (v.withClauses kept).shownAt c with
  | some clause =>
    obtain ⟨member, cell⟩ := (shownAt_eq_some_iff distinct_kept).mp shorter
    have stored : clause ∈ v.rule.clauses := rearranged.mem_iff.mpr (List.mem_append_left _ member)
    exact .inl ((shownAt_eq_some_iff distinct).mpr ⟨stored, cell⟩).symm
  | none =>
    cases shown : v.shownAt c with
    | none => exact .inl rfl
    | some clause =>
      obtain ⟨stored, cell⟩ := (shownAt_eq_some_iff distinct).mp shown
      rcases List.mem_append.mp (rearranged.mem_iff.mp stored) with member | member
      · have also : (v.withClauses kept).shownAt c = some clause :=
          (shownAt_eq_some_iff distinct_kept).mpr ⟨member, cell⟩
        rw [shorter] at also
        cases also
      · exact .inr ⟨clause, member, cell, rfl, rfl⟩

theorem distance_kept (v : View) {c : Cell} (inside : c.inWindow) : (v.kept c).distance = c.distance := by
  rw [View.kept]
  split
  · exact Transform.distance_image _ c inside
  · rfl

/-- A clause that makes no difference but is looked at is idle. -/
theorem isIdle_of_negligible (negligible : clause.Negligible) (cell : clause.cell = v.kept c) (inside : c.inWindow)
    (near : c.distance ≤ 2) : clause.isIdle := by
  rcases negligible with idle | outside | far
  · exact idle
  · rw [cell] at outside
    exact absurd (v.kept_inWindow inside) outside
  · rw [cell, v.distance_kept inside] at far
    exact absurd near (Nat.not_le.mpr far)

end View

/-! ### Idle clauses -/

theorem Demands.get?_of_isVacuous {d : Demands} (vacuous : d.isVacuous) (kind : Nat) :
    (d.get? kind).getD .free = .free := by
  cases found : d.get? kind with
  | none => rfl
  | some demand =>
    rw [← getElem?_toList] at found
    exact isVacuous_iff_silent.mp vacuous demand (List.mem_of_getElem? found)

theorem Clause.commands_of_isIdle {clause : Clause} (idle : clause.isIdle) : clause.commands = [] :=
  List.isEmpty_iff.mp ((Bool.and_eq_true ..).mp idle).2

namespace Matcher

variable {m : Matcher} {g : Grid ι} {v : View} {s : ι} {i : Nat} {tile home : Tile} {c : Cell} {clause : Clause}
  {kept dropped : List Clause}

/-- A guard that asks for nothing holds everywhere and has no witness. -/
theorem guardAt_of_isVacuous (shown : v.clause? i = some clause) (vacuous : clause.isVacuous) :
    m.guardAt g v i tile = .pass none := by
  obtain ⟨backgrounds, sprites⟩ := (Bool.and_eq_true ..).mp vacuous
  have free : ∀ s ∈ (List.range m.kinds.backgrounds).map (background g v i tile) ++
      (List.range m.kinds.sprites).map (sprite g v i tile), s.demand = .free := by
    intro s member
    rcases List.mem_append.mp member with member | member
    · obtain ⟨kind, _, rfl⟩ := List.mem_map.mp member
      show ((v.background? i kind).getD .free) = .free
      rw [View.background?, shown]
      exact Demands.get?_of_isVacuous backgrounds kind
    · obtain ⟨kind, _, rfl⟩ := List.mem_map.mp member
      show ((v.sprite? i kind).getD .free) = .free
      rw [View.sprite?, shown]
      exact Demands.get?_of_isVacuous sprites kind
  have none_asked := judge_append_free (g := m.grouping) free .start [] []
  rw [List.append_nil, List.nil_append] at none_asked
  rw [guardAt_eq_judge, none_asked]
  rfl

/-- The tile under an idle clause must have a name, but what is there does not matter. -/
theorem share_of_isIdle (shown : v.shownAt c = some clause) (idle : clause.isIdle) :
    m.share g v home c = home.shifted c.offset >>= fun _ => .ok (some ([], [])) := by
  obtain ⟨i, place, there⟩ := Option.bind_eq_some_iff.mp shown
  have commands : v.commands i = [] := by
    rw [View.commands, there, Option.map_some, Option.getD_some, Clause.commands_of_isIdle idle, List.map_nil]
  rw [share, place]
  dsimp only
  congr 1
  funext tile
  rw [guardAt_of_isVacuous there ((Bool.and_eq_true ..).mp idle).1]
  simp [errands, commands, pure, Except.pure]

/-! ### Matches -/

theorem orders_withClauses (distinct : (v.rule.clauses.map (·.cell)).Nodup)
    (rearranged : v.rule.clauses.Perm (kept ++ dropped)) (negligible : ∀ clause ∈ dropped, clause.Negligible) :
    (v.withClauses kept).orders .centre = v.orders .centre := by
  rw [View.orders, View.orders]
  rcases View.shownAt_withClauses distinct rearranged .centre with same | ⟨clause, member, cell, shown, gone⟩
  · rw [same]
    rfl
  · have idle := View.isIdle_of_negligible (negligible clause member) cell (by decide) (by decide)
    rw [shown, gone, Option.map_some, Option.getD_some, Clause.commands_of_isIdle idle]
    rfl

/-- A cell adds the same without clauses that make no difference. -/
theorem share_withClauses (distinct : (v.rule.clauses.map (·.cell)).Nodup)
    (rearranged : v.rule.clauses.Perm (kept ++ dropped)) (negligible : ∀ clause ∈ dropped, clause.Negligible)
    (near : c ∈ Cell.neighbourhood) :
    Unless (v.Overreaches home dropped) (m.share g v home c) (m.share g (v.withClauses kept) home c) := by
  rcases View.shownAt_withClauses distinct rearranged c with same | ⟨clause, member, cell, shown, gone⟩
  · have unchanged : m.share g (v.withClauses kept) home c = m.share g v home c :=
      share_congr rfl same fun _ _ => ⟨rfl, fun _ => ⟨rfl, fun _ _ => rfl⟩⟩
    exact .inl unchanged.symm
  · obtain ⟨inside, close, _⟩ := Cell.mem_neighbourhood.mp near
    have idle := View.isIdle_of_negligible (negligible clause member) cell inside close
    rw [share_of_isIdle shown idle, share_of_nowhere gone]
    rcases home.shifted_eq c.offset with named | overflow
    · rw [named]
      exact .inl rfl
    · rw [overflow]
      exact .inr ⟨⟨c, near, clause, member, idle, cell, overflow⟩, rfl⟩

theorem evaluate_withClauses (distinct : (v.rule.clauses.map (·.cell)).Nodup)
    (rearranged : v.rule.clauses.Perm (kept ++ dropped)) (negligible : ∀ clause ∈ dropped, clause.Negligible) (s : ι) :
    Unless (∃ home, g.position s = some home ∧ v.Overreaches home dropped) (m.evaluate g s v)
      (m.evaluate g s (v.withClauses kept)) := by
  refine evaluate_unless rfl rfl (orders_withClauses distinct rearranged negligible) rfl rfl ?_
  intro home _ c near
  exact share_withClauses distinct rearranged negligible near

/-- Where the tiles under the clauses have names, no clause overreaches. -/
theorem not_overreaches (distinct : (v.rule.clauses.map (·.cell)).Nodup)
    (rearranged : v.rule.clauses.Perm (kept ++ dropped)) (named : v.Named home) : ¬v.Overreaches home dropped := by
  rintro ⟨c, near, clause, member, _, cell, overflow⟩
  have stored : clause ∈ v.rule.clauses := rearranged.mem_iff.mpr (List.mem_append_right _ member)
  obtain ⟨i, place, _⟩ := Option.bind_eq_some_iff.mp ((View.shownAt_eq_some_iff distinct).mpr ⟨stored, cell⟩)
  cases (named c near i place).symm.trans overflow

/-- However the clauses of a rule are ordered, and whatever clauses are left out that are idle, lie outside the window or lie
    more than two steps from the centre, the same is matched, witness by witness and command by command. The one exception
    is a sprite so far out that an idle clause is looked at where no tile has a name: the match then overflows, and need
    not do so without the clause. -/
theorem evaluate_rearranged (m : Matcher) (g : Grid ι) (s : ι) (distinct : (v.rule.clauses.map (·.cell)).Nodup)
    (rearranged : v.rule.clauses.Perm (kept ++ dropped)) (negligible : ∀ clause ∈ dropped, clause.Negligible) :
    Unless (∃ home, g.position s = some home ∧ v.Overreaches home dropped) (m.evaluate g s v)
        (m.evaluate g s (v.withClauses kept)) ∧
      ((∀ home, g.position s = some home → v.Named home) → m.evaluate g s v = m.evaluate g s (v.withClauses kept)) := by
  have agree := evaluate_withClauses (m := m) (g := g) distinct rearranged negligible s
  refine ⟨agree, fun named => agree.resolve_right ?_⟩
  rintro ⟨⟨home, placed, overreaches⟩, _⟩
  exact not_overreaches distinct rearranged (named home placed) overreaches

/-- A view that shows what `cornered` shows, and an idle clause. -/
def cluttered : View :=
  cornered.withClauses (
    { cell := ⟨1, 2⟩
      backgrounds := ⟨5, Demands.trim 5 [0, 0], rfl, Demands.padded_trim _ _⟩
      sprites := ⟨5, Demands.trim 5 [0, 0], rfl, Demands.padded_trim _ _⟩
      facing := .resting
      commands := [] } :: cornered.rule.clauses)

theorem evaluate_cluttered : ∃ f, f.witnesses = [true] ∧ f.commands.map Errand.tile = [⟨5, 5⟩, ⟨6, 5⟩, ⟨6, 5⟩] ∧
    evaluate ⟨⟨5, 5⟩, .second⟩ (pair ⟨5, 5⟩ ⟨6, 5⟩ .right) false cluttered = .ok (some f) ∧
    evaluate ⟨⟨5, 5⟩, .second⟩ (pair ⟨5, 5⟩ ⟨6, 5⟩ .right) false (cluttered.withClauses flight.rule.clauses.reverse) =
      .ok (some f) := by
  have distinct : (cluttered.rule.clauses.map (·.cell)).Nodup := by decide
  have rearranged : cluttered.rule.clauses.Perm
      (flight.rule.clauses.reverse ++ cluttered.rule.clauses.filter fun c => c.isIdle ∨ 2 < c.cell.distance) := by decide
  have negligible : ∀ c ∈ cluttered.rule.clauses.filter fun c => c.isIdle ∨ 2 < c.cell.distance, c.Negligible := by
    intro c member
    rcases of_decide_eq_true (List.mem_filter.mp member).2 with idle | far
    · exact .inl idle
    · exact .inr (.inr far)
  have named : ∀ home, (pair ⟨5, 5⟩ ⟨6, 5⟩ .right).position false = some home → cluttered.Named home := by
    rintro _ ⟨⟩
    exact named_of_roomy (by unfold Tile.Roomy; decide)
  obtain ⟨f, fired, witnesses, tiles⟩ : ∃ f,
      evaluate ⟨⟨5, 5⟩, .second⟩ (pair ⟨5, 5⟩ ⟨6, 5⟩ .right) false cluttered = .ok (some f) ∧
        f.witnesses = [true] ∧ f.commands.map Errand.tile = [⟨5, 5⟩, ⟨6, 5⟩, ⟨6, 5⟩] := ⟨_, rfl, rfl, rfl⟩
  have same := (evaluate_rearranged ⟨⟨5, 5⟩, .second⟩ (pair ⟨5, 5⟩ ⟨6, 5⟩ .right) false distinct rearranged negligible).2 named
  exact ⟨f, witnesses, tiles, fired, same.symm.trans fired⟩

/-- A sprite moves to the right, whatever is around it; the clause on its right is idle. -/
def drift : View where
  rule := {
    trigger := .change
    arg := 0
    clauses := [
      { cell := ⟨3, 2⟩
        backgrounds := ⟨2, Demands.trim 2 [0], rfl, Demands.padded_trim _ _⟩
        sprites := ⟨2, Demands.trim 2 [0], rfl, Demands.padded_trim _ _⟩
        facing := .any
        commands := [] },
      { cell := .centre
        backgrounds := ⟨2, Demands.trim 2 [0], rfl, Demands.padded_trim _ _⟩
        sprites := ⟨2, Demands.trim 2 [1], rfl, Demands.padded_trim _ _⟩
        facing := .any
        commands := [.move (.go .right)] }]
    symmetry := .none }
  id := some ⟨0⟩
  transform := none
  kinds := ⟨2, 2⟩

/-- In the last column that has a name, the idle clause makes the match overflow, and without it the rule fires. -/
theorem evaluate_drift_overflows : (drift.rule.clauses.map (·.cell)).Nodup ∧
    drift.rule.clauses.Perm (drift.rule.busy ++ drift.rule.clauses.take 1) ∧
    (∀ c ∈ drift.rule.clauses.take 1, c.isIdle) ∧
    evaluate ⟨⟨2, 2⟩, .second⟩ (pair ⟨2147483647, 0⟩ ⟨0, 5⟩ .right) false drift = .error .overflow ∧
    ∃ f, evaluate ⟨⟨2, 2⟩, .second⟩ (pair ⟨2147483647, 0⟩ ⟨0, 5⟩ .right) false (drift.withClauses drift.rule.busy) =
      .ok (some f) ∧ f.commands.length = 1 :=
  ⟨by decide, by decide, by decide, rfl, _, rfl, rfl⟩

end Matcher
end Playfield
