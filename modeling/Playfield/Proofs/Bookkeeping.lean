import Playfield.Proofs.Checked
import Playfield.Tick

/-!
# What a tick enters

A tick writes its report as it goes: every rule that ran is entered at the end and its commands are added to the count. So the
report lists the rules that ran phase by phase, and counts the commands of all of them.
-/
namespace Playfield

namespace Report

/-- The report with rules that ran entered in order. -/
def enterAll (r : Report) (fired : List Fired) : Report :=
  { r with fired := r.fired ++ fired, commands := r.commands + commandCount fired }

@[simp] theorem enterAll_nil (r : Report) : r.enterAll [] = r := by
  simp [enterAll, commandCount]

theorem enterAll_enter (r : Report) (f : Fired) (rest : List Fired) : (r.enter f).enterAll rest = r.enterAll (f :: rest) := by
  simp [enterAll, enter, commandCount, Nat.add_assoc]

theorem enterAll_enterAll (r : Report) (fired more : List Fired) :
    (r.enterAll fired).enterAll more = r.enterAll (fired ++ more) := by
  induction fired generalizing r with
  | nil => rw [enterAll_nil, List.nil_append]
  | cons f rest ih => rw [← enterAll_enter, ih, List.cons_append, enterAll_enter]

theorem enterAll_start (w : World) (fired : List Fired) :
    (start w).enterAll fired = ⟨w.tick, fired, commandCount fired, [], []⟩ := by
  simp [start, enterAll]

end Report

namespace Session

variable (s : Session) (e : Engine World SpriteId) (phase : Phase) (button : Option Button)

/-- The rules that firings run are entered, and the world is the one that they lead to. -/
theorem enterFirings_eq (firings : List (Firing SpriteId)) (report : Report) (w : World) :
    enterFirings e phase firings report w = do
      let (fired, v) ← runFirings e phase firings w
      return (report.enterAll fired, v) := by
  induction firings generalizing report w with
  | nil =>
    show pure (report, w) = pure (report.enterAll [], w)
    rw [Report.enterAll_nil]
  | cons f rest ih =>
    rw [enterFirings, runFirings]
    cases f.rule with
    | none => exact ih report w
    | some rule =>
      cases f.dispatch e w with
      | error cause => rfl
      | ok done =>
        obtain ⟨commands, v⟩ := done
        simp only [ok_bind, ih, Report.enterAll_enter, bind_assoc, pure_bind]

theorem enterPhase_eq (sprites : List SpriteId) (report : Report) (w : World) :
    s.enterPhase e phase sprites button report w = do
      let (fired, v) ← s.runPhase e phase sprites button w
      return (report.enterAll fired, v) := by
  rw [enterPhase, runPhase]
  simp only [enterFirings_eq, bind_assoc]

/-- A tick runs its phases, and reports the rules that ran with the number of their commands. -/
theorem stepOn_eq (w : World) : s.stepOn e w button =
    if w.status ≠ .playing then return (⟨w.tick, [], 0, [], []⟩, w)
    else do
      let (fired₁, w₁) ← s.runPhase e .moving (w.spritesInMotion true) button w
      let (fired₂, w₂) ← s.runPhase e .resting (w.spritesInMotion false) button w₁
      let (fired₃, w₃) ← s.runPhase e .collision w₂.colliding none w₂
      let violating ← s.matchPhase w₃ .negation (w₃.spriteList.map (·.id)) none
      let v ← e.advance w₃
      let fired := fired₁ ++ fired₂ ++ fired₃
      return (⟨v.tick, fired, commandCount fired, violating.filterMap violation?, v.rejected⟩, v) := by
  rw [stepOn]
  split
  · rfl
  · simp only [enterPhase_eq, bind_assoc, pure_bind, Report.enterAll_enterAll, List.append_assoc]
    simp only [Report.enterAll_start]

end Session
end Playfield
