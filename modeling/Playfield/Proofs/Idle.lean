import Playfield.Proofs.Rearrangement
import Playfield.Tick

/-!
# Idle clauses

A clause that asks for nothing and does nothing can be left out of a rule without a change to what the rule matches
and does, and to the sprites that it selects.
-/
namespace Playfield

variable {ι : Type}

namespace View

/-- The view without the idle clauses of its rule. -/
def stripped (v : View) : View := { v with rule := v.rule.stripped }

theorem withClauses_busy (v : View) : v.withClauses v.rule.busy = v.stripped := rfl

/-- The busy clauses and the idle ones are all. -/
theorem clauses_perm_busy (v : View) :
    v.rule.clauses.Perm (v.rule.busy ++ v.rule.clauses.filter fun c => !!c.isIdle) :=
  (List.filter_append_perm _ _).symm

theorem negligible_of_idle {v : View} : ∀ c ∈ v.rule.clauses.filter fun c => !!c.isIdle, c.Negligible := by
  intro c member
  exact .inl (by simpa using (List.mem_filter.mp member).2)

end View

namespace Matcher

variable {m : Matcher} {g : Grid ι} {v : View}

theorem shifted_unless {cell : Cell} (near : cell ∈ Cell.neighbourhood) (home : Tile) :
    Unless (¬home.Roomy) (home.shifted cell.offset) (.ok (home.shift cell.offset)) := by
  by_cases room : home.Roomy
  · exact .inl (shifted_near room near)
  · rcases home.shifted_eq cell.offset with named | overflow
    · exact .inl named
    · exact .inr ⟨room, overflow⟩

/-- A rule matches and does the same without its idle clauses, unless the tiles around the sprite cannot all be
    named. -/
theorem evaluate_stripped (distinct : (v.rule.clauses.map (·.cell)).Nodup) (s : ι) :
    Unless (∃ home, g.position s = some home ∧ ¬home.Roomy) (m.evaluate g s v) (m.evaluate g s v.stripped) := by
  refine (evaluate_withClauses distinct v.clauses_perm_busy View.negligible_of_idle s).imp ?_
  rintro ⟨home, placed, overreaches⟩
  refine ⟨home, placed, fun room => ?_⟩
  exact not_overreaches distinct v.clauses_perm_busy (named_of_roomy room) overreaches

end Matcher

namespace View

variable {v : View}

theorem sprite?_of_isIdle {i : Nat} {c : Clause} (shown : v.clause? i = some c) (idle : c.isIdle) (kind : Nat) :
    (v.sprite? i kind).any Demand.includes = false := by
  have vacuous := ((Bool.and_eq_true ..).mp ((Bool.and_eq_true ..).mp idle).1).2
  have free := Demands.get?_of_isVacuous vacuous kind
  rw [sprite?, shown, Option.bind_some]
  cases found : c.sprites.get? kind with
  | none => rfl
  | some demand =>
    rw [found] at free
    cases free
    rfl

/-- The same sprites are selected without the idle clauses. -/
theorem selects_stripped (distinct : (v.rule.clauses.map (·.cell)).Nodup) (kind : Nat) (motion : Option Heading) :
    v.stripped.selects kind motion = v.selects kind motion := by
  rw [selects, selects, centreFacing, centreFacing, hasSpriteKind, hasSpriteKind, clauseAt_eq _ (by decide),
    clauseAt_eq _ (by decide)]
  simp only [ok_bind]
  have centre := shownAt_withClauses distinct v.clauses_perm_busy .centre
  rw [withClauses_busy] at centre
  rcases centre with same | ⟨c, dropped, _, shown, gone⟩
  · rcases place?_of_shownAt same with ⟨shown', shown⟩ | ⟨j, i, shown', shown, clause⟩
    · rw [shown, shown']
      rfl
    · have sprite : v.stripped.sprite? j kind = v.sprite? i kind := by rw [sprite?, sprite?, clause]
      have facing : v.stripped.facingOf j = v.facingOf i := by rw [facingOf, facingOf, clause, stripped]
      simp only [shown, shown', pure_bind, Option.bind_some, sprite, facing]
  · obtain ⟨i, place, there⟩ := Option.bind_eq_some_iff.mp shown
    rw [place, place?_eq_none gone]
    -- Without its clause the centre accepts any facing, but a centre that includes no kind selects nothing anyway.
    have excluded := sprite?_of_isIdle there (by simpa using (List.mem_filter.mp dropped).2) kind
    simp only [pure_bind, Option.bind_some, Option.bind_none, Option.any_none, excluded, Bool.false_and]

end View
end Playfield
