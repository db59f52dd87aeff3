import Mathlib.Algebra.Order.BigOperators.Group.List
import Mathlib.Algebra.Order.Ring.Nat
import Playfield.Proofs.Rearrangement

/-!
# What is counted of a rule

The counts of a view go over nine cells and look up, through the inverse transform, what is shown there. Whether a rule asks for
nothing is read off its packed bytes, clause by clause. Both are about the same clauses: a transform only changes the order in
which the nine cells are looked at, and each stored clause of the inner square is shown at one of them.
-/
namespace Playfield

/-! ### Clauses that ask for nothing -/

theorem Demands.isVacuous_iff_constrained {d : Demands} : d.isVacuous ↔ d.constrained = 0 := by
  rw [isVacuous_iff_silent, constrained, List.countP_eq_zero]
  simp [Silent, toList]

theorem Clause.isVacuous_iff_demandCount {c : Clause} : c.isVacuous ↔ c.demandCount = 0 := by
  simp [isVacuous, demandCount, Demands.isVacuous_iff_constrained]

/-! ### The inner square -/

theorem Cell.mem_inner {c : Cell} : c ∈ inner ↔ c.isInner := by
  constructor
  · intro member
    have all : ∀ d ∈ inner, d.isInner := by decide
    exact all c member
  · intro near
    have inside : c.inWindow := by
      rw [isInner, Bool.and_eq_true, decide_eq_true_iff, decide_eq_true_iff] at near
      rw [inWindow_iff, side]
      simp only [offset] at near
      omega
    have all : ∀ d : Cell, d.inWindow → d.isInner → d ∈ inner := Cell.forall_inWindow (by decide)
    exact all c inside near

/-- The stored clauses of the inner 3×3. -/
def Rule.inner (r : Rule) : List Clause := r.clauses.filter fun c => c.cell.isInner

/-- The counts of some clauses. -/
def Stats.of (clauses : List Clause) : Stats where
  clauses := clauses.length
  commands := (clauses.map (·.commands.length)).sum
  demands := (clauses.map Clause.demandCount).sum

theorem Stats.of_perm {l m : List Clause} (perm : l.Perm m) : Stats.of l = Stats.of m := by
  simp [of, perm.length_eq, (perm.map _).sum_eq]

theorem Stats.demands_of_eq_zero_iff {l : List Clause} : (Stats.of l).demands = 0 ↔ ∀ c ∈ l, c.isVacuous := by
  simp [of, List.sum_eq_zero_iff, Clause.isVacuous_iff_demandCount]

namespace View

variable {v : View}

/-! ### What is shown in the inner square -/

/-- What the view shows in the inner 3×3, column by column. -/
def shownInner (v : View) : List Clause := Cell.inner.filterMap v.shownAt

theorem addStats_eq (l : List Clause) {c : Cell} (inside : c.inWindow) :
    v.addStats (.of l) c = .ok (.of (l ++ (v.shownAt c).toList)) := by
  rw [addStats, v.clauseAt_eq inside, shownAt]
  cases found : v.place? c with
  | none => simp
  | some i =>
    obtain ⟨clause, there⟩ := place?_eq_some found
    simp [Stats.of, commandCount, commands, demandCount, there]

theorem stats_eq (v : View) : v.stats = .ok (.of v.shownInner) := by
  have counted (cells : List Cell) (inside : ∀ c ∈ cells, c.inWindow) (l : List Clause) :
      cells.foldlM v.addStats (.of l) = .ok (.of (l ++ cells.filterMap v.shownAt)) := by
    induction cells generalizing l with
    | nil => simp
    | cons c rest ih =>
      rw [List.foldlM_cons, addStats_eq l (inside c List.mem_cons_self), ok_bind,
        ih fun d member => inside d (List.mem_cons_of_mem c member)]
      cases shown : v.shownAt c <;> simp [shown]
  exact counted Cell.inner (by decide) []

theorem map_kept_inner (v : View) : (Cell.inner.map v.kept).Perm Cell.inner := by
  obtain ⟨rule, id, t, kinds⟩ := v
  cases t with
  | none => exact .of_eq (List.map_id _)
  | some t =>
    show (Cell.inner.map t.inverse.image).Perm _
    cases t <;> decide

/-- In the inner square, a transform shows what is shown without it. -/
theorem shownInner_perm (v : View) : v.shownInner.Perm { v with transform := none }.shownInner := by
  have looked : v.shownAt = { v with transform := none }.shownAt ∘ v.kept := rfl
  rw [shownInner, looked, ← List.filterMap_map]
  exact v.map_kept_inner.filterMap _

/-- Each clause that is stored for the inner square is shown there once. -/
theorem shownInner_perm_inner (distinct : (v.rule.clauses.map (·.cell)).Nodup) : v.shownInner.Perm v.rule.inner := by
  refine v.shownInner_perm.trans ?_
  have shows {c : Cell} {clause : Clause} : { v with transform := none }.shownAt c = some clause ↔
      clause ∈ v.rule.clauses ∧ clause.cell = c := shownAt_eq_some_iff (v := { v with transform := none }) distinct
  refine (List.perm_ext_iff_of_nodup ?_ ?_).mpr fun clause => ?_
  · refine List.Nodup.filterMap (fun c d clause here there => ?_) (by decide)
    rw [← (shows.mp here).2, (shows.mp there).2]
  · exact (List.Nodup.of_map _ distinct).filter _
  · rw [shownInner, Rule.inner, List.mem_filter, List.mem_filterMap]
    constructor
    · rintro ⟨c, member, shown⟩
      obtain ⟨stored, rfl⟩ := shows.mp shown
      exact ⟨stored, Cell.mem_inner.mp member⟩
    · rintro ⟨stored, near⟩
      exact ⟨clause.cell, Cell.mem_inner.mpr near, shows.mpr ⟨stored, rfl⟩⟩

/-- The counts of a rule no two clauses of which have the same cell are those of the stored clauses of the inner square, through
    whatever transform it is seen. It asks for nothing there exactly if no demand is counted. -/
theorem stats_count_inner (distinct : (v.rule.clauses.map (·.cell)).Nodup) :
    ∃ s, v.stats = .ok s ∧ (∀ t, { v with transform := t }.stats = .ok s) ∧ (v.isVacuous ↔ s.demands = 0) ∧
      s.clauses = v.rule.inner.length ∧ s.commands = (v.rule.inner.map (·.commands.length)).sum := by
  have counted (t : Option Transform) : { v with transform := t }.stats = .ok (.of v.rule.inner) := by
    rw [stats_eq, Stats.of_perm (shownInner_perm_inner (v := { v with transform := t }) distinct)]
  refine ⟨.of v.rule.inner, counted v.transform, counted, ?_, rfl, rfl⟩
  rw [Stats.demands_of_eq_zero_iff, isVacuous, Rule.isVacuous, List.all_eq_true, Rule.inner]

/-- The clause in the corner is not counted. -/
theorem stats_of_cornered : (Matcher.cornered.rule.clauses.map (·.cell)).Nodup ∧
    ∃ s, { Matcher.cornered with transform := some .quarterLeft }.stats = .ok s ∧ s.clauses = 2 ∧ s.commands = 3 ∧
      (Matcher.cornered.isVacuous ↔ s.demands = 0) := by
  have distinct : (Matcher.cornered.rule.clauses.map (·.cell)).Nodup := by decide
  obtain ⟨s, _, turned, vacuous, clauses, commands⟩ := stats_count_inner distinct
  exact ⟨distinct, s, turned _, clauses.trans (by decide), commands.trans (by decide), vacuous⟩

end View
end Playfield
