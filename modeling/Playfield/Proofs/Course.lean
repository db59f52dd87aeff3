import Playfield.Proofs.Reachability
import Playfield.Proofs.Removal

/-!
# The course of a tick

A tick has four phases, and each is matched against the board that the phases before it have left. The last board is the
one that is committed. The course of a tick is all that happens in it, phase by phase; its report tells no more and no less
than what matched.
-/
namespace Playfield

namespace Phase

/-- The phases whose firings are run, in order. -/
def running : List Phase := [moving, resting, collision]

/-- The phase after a running one. -/
def next : Phase → Phase
  | moving => resting
  | resting => collision
  | collision | negation => negation

/-- What a phase hears of the button that is pressed. -/
def hears (button : Option Button) : Phase → Option Button
  | moving | resting => button
  | collision | negation => none

/-- The sprites around which a phase is matched on a board. Which of them are in motion is told when the tick starts. -/
def sprites (start w : World) : Phase → List SpriteId
  | moving => start.spritesInMotion true
  | resting => start.spritesInMotion false
  | collision => w.colliding
  | negation => w.spriteList.map (·.id)

end Phase

namespace Session

/-- What happens in a tick. -/
structure Course (s : Session) (e : Engine World SpriteId) (start : World) (button : Option Button) (report : Report)
    (after : World) where
  /-- The board against which a phase is matched. -/
  world : Phase → World
  firings : Phase → List (Firing SpriteId)
  /-- What is reported of a phase that is run. -/
  fired : Phase → List Fired
  starts : world .moving = start
  matched : ∀ phase, s.matchPhase (world phase) phase (phase.sprites start (world phase)) (phase.hears button) =
    .ok (firings phase)
  runs : ∀ phase ∈ Phase.running, runFirings e phase (firings phase) (world phase) =
    .ok (fired phase, world phase.next)
  commits : e.advance (world .negation) = .ok after
  tells : report = ⟨after.tick, Phase.running.flatMap fired, commandCount (Phase.running.flatMap fired),
    (firings .negation).filterMap violation?, after.rejected⟩

variable {s : Session} {e : Engine World SpriteId} {w v : World} {button : Option Button} {report : Report}

/-- As long as the game goes on, a tick is its course. -/
theorem stepOn_eq_ok_iff_course (playing : w.status = .playing) :
    s.stepOn e w button = .ok (report, v) ↔ Nonempty (s.Course e w button report v) := by
  rw [stepOn_eq_ok_iff playing]
  constructor
  · rintro ⟨fired₁, w₁, fired₂, w₂, fired₃, w₃, violating, moving, resting, collision, negation, commits, rfl⟩
    obtain ⟨fs₁, matched₁, ran₁⟩ := bind_eq_ok.mp moving
    obtain ⟨fs₂, matched₂, ran₂⟩ := bind_eq_ok.mp resting
    obtain ⟨fs₃, matched₃, ran₃⟩ := bind_eq_ok.mp collision
    refine ⟨{
      world := fun | .moving => w | .resting => w₁ | .collision => w₂ | .negation => w₃
      firings := fun | .moving => fs₁ | .resting => fs₂ | .collision => fs₃ | .negation => violating
      fired := fun | .moving => fired₁ | .resting => fired₂ | .collision => fired₃ | .negation => []
      starts := rfl
      matched := ?_
      runs := ?_
      commits := commits
      tells := ?_ }⟩
    · intro phase
      cases phase with
      | moving => exact matched₁
      | resting => exact matched₂
      | collision => exact matched₃
      | negation => exact negation
    · simp only [Phase.running, List.forall_mem_cons]
      exact ⟨ran₁, ran₂, ran₃, nofun⟩
    · simp [Phase.running]
  · rintro ⟨world, firings, fired, rfl, matched, runs, commits, rfl⟩
    simp only [Phase.running, List.forall_mem_cons] at runs
    obtain ⟨moving, resting, collision, _⟩ := runs
    refine ⟨_, _, _, _, _, _, _, bind_eq_ok.mpr ⟨_, matched .moving, moving⟩,
      bind_eq_ok.mpr ⟨_, matched .resting, resting⟩, bind_eq_ok.mpr ⟨_, matched .collision, collision⟩,
      matched .negation, commits, ?_⟩
    simp [Phase.running]

namespace Course

/-- What holds at the start and is kept by what is run holds on the board of every phase. -/
theorem of_runs (c : s.Course e w button report v) {P : World → Prop} (start : P w)
    (kept : ∀ {phase fs u fired u'}, P u → runFirings e phase fs u = .ok (fired, u') → P u') (phase : Phase) :
    P (c.world phase) := by
  have moving : P (c.world .moving) := by
    rw [c.starts]
    exact start
  have resting : P (c.world .resting) := kept moving (c.runs .moving (by decide))
  have collision : P (c.world .collision) := kept resting (c.runs .resting (by decide))
  cases phase with
  | moving => exact moving
  | resting => exact resting
  | collision => exact collision
  | negation => exact kept collision (c.runs .collision (by decide))

theorem consistent (c : s.Course World.engine w button report v) (start : w.Consistent) (phase : Phase) :
    (c.world phase).Consistent :=
  c.of_runs start (World.keeps_consistent .stream).runFirings phase

theorem hits_fired (c : s.Course e w button report v) {phase : Phase} (running : phase ∈ Phase.running) :
    (c.fired phase).map Fired.hit = (c.firings phase).filterMap Firing.hit? :=
  (hits_of_runFirings (c.runs phase running)).1

theorem phase_fired (c : s.Course e w button report v) {phase : Phase} (running : phase ∈ Phase.running) {x : Fired}
    (member : x ∈ c.fired phase) : x.phase = phase :=
  (hits_of_runFirings (c.runs phase running)).2 x member

theorem fired_eq (c : s.Course e w button report v) : report.fired = Phase.running.flatMap c.fired :=
  congrArg Report.fired c.tells

theorem mem_fired (c : s.Course e w button report v) {x : Fired} (member : x ∈ report.fired) :
    x.phase ∈ Phase.running ∧ x ∈ c.fired x.phase := by
  rw [c.fired_eq] at member
  obtain ⟨phase, running, member⟩ := List.mem_flatMap.mp member
  rw [c.phase_fired running member]
  exact ⟨running, member⟩

/-- What is reported under a phase is what was run in it. -/
theorem filter_fired (c : s.Course e w button report v) {phase : Phase} (running : phase ∈ Phase.running) :
    report.fired.filter (·.phase = phase) = c.fired phase := by
  have parts : ∀ other ∈ Phase.running, (c.fired other).filter (·.phase = phase) =
      if other = phase then c.fired phase else [] := by
    intro other ran
    split
    · rename_i same
      rw [same, List.filter_eq_self]
      exact fun x member => decide_eq_true (c.phase_fired running member)
    · rename_i apart
      rw [List.filter_eq_nil_iff]
      intro x member
      simpa [c.phase_fired ran member] using apart
  rw [c.fired_eq, List.filter_flatMap, List.flatMap_congr parts]
  cases phase <;> simp [Phase.running] at running ⊢

theorem hits_violations (c : s.Course e w button report v) :
    report.violations.map Violation.hit = (c.firings .negation).filterMap Firing.hit? := by
  rw [congrArg Report.violations c.tells]
  exact hits_of_violations _

end Course

/-! ### Runs -/

/-- The worlds in which the ticks of a run start, one after the other, and the one in which the run ends. -/
def stops (w : World) (log : List (Report × World)) : List World := w :: log.map (·.2)

variable {buttons : List (Option Button)} {log : List (Report × World)}

/-- Every entry of a log tells of the tick that starts in the world before it. -/
theorem step_of_run (ran : s.run buttons w = .ok log) {i : Nat} (logged : log[i]? = some (report, v)) :
    ∃ u button, (stops w log)[i]? = some u ∧ buttons[i]? = some button ∧ s.step u button = .ok (report, v) ∧
      (stops w log)[i + 1]? = some v := by
  induction buttons generalizing w log i with
  | nil =>
    cases pure_eq_ok.mp ran
    cases logged
  | cons button rest ih =>
    rw [run] at ran
    obtain ⟨⟨first, u⟩, stepped, ran⟩ := bind_eq_ok.mp ran
    obtain ⟨others, later, done⟩ := bind_eq_ok.mp ran
    cases pure_eq_ok.mp done
    cases i with
    | zero =>
      cases logged
      exact ⟨w, button, rfl, rfl, stepped, rfl⟩
    | succ i => exact ih later logged

/-- What holds at the start and is kept by every tick holds in every world of a run. -/
theorem forall_of_run {P : World → Prop} (start : P w)
    (kept : ∀ {u button report u'}, P u → s.step u button = .ok (report, u') → P u') (ran : s.run buttons w = .ok log) :
    ∀ u ∈ stops w log, P u := by
  induction buttons generalizing w log with
  | nil =>
    cases pure_eq_ok.mp ran
    exact List.forall_mem_singleton.mpr start
  | cons button rest ih =>
    rw [run] at ran
    obtain ⟨⟨first, u⟩, stepped, ran⟩ := bind_eq_ok.mp ran
    obtain ⟨others, later, done⟩ := bind_eq_ok.mp ran
    cases pure_eq_ok.mp done
    exact List.forall_mem_cons.mpr ⟨start, ih (kept start stepped) later⟩

end Session

/-! ### Rules for every sprite -/

/-- A rule that matches around every sprite of the first of two kinds. -/
def Rule.blanket (trigger : Trigger) (symmetry : Symmetry) (commands : List Command) : Rule where
  trigger := trigger
  arg := 0
  clauses := [{
    cell := .centre
    backgrounds := ⟨2, [0], by decide, by rintro _ b ⟨⟩; decide⟩
    sprites := ⟨2, [1], by decide, by rintro _ b ⟨⟩; decide⟩
    facing := .any
    commands := commands }]
  symmetry := symmetry

/-- A rule that gives every sprite of the first kind the same commands. -/
def Project.drill (commands : List Command) : Project where
  config := ⟨⟨2, 2⟩, none⟩
  rules := ⟨IdMap.empty.insert 0 (some (.blanket .change .none commands)), 1⟩

end Playfield
