import Playfield.Proofs.Bookkeeping

/-!
# What a tick keeps

What is run of a phase is a list of calls of an engine, one after the other. A property of boards that every call keeps is
kept by phases and whole ticks.
-/
namespace Playfield

variable {σ ι : Type}

/-- Makes calls one after the other. -/
def Engine.callAll (e : Engine σ ι) (calls : List (Call ι)) (s : σ) : Checked σ :=
  calls.foldlM (fun s c => return (← e.call c s).2) s

/-- The calls that a firing comes to. One that names no rule is not run. -/
def Firing.calls (f : Firing ι) : List (Call ι) := if f.rule.isSome then f.commands.filterMap Errand.call? else []

namespace Engine

variable {e : Engine σ ι}

theorem callAll_cons_eq_ok {c : Call ι} {calls : List (Call ι)} {s s' : σ} :
    e.callAll (c :: calls) s = .ok s' ↔
      ∃ answer middle, e.call c s = .ok (answer, middle) ∧ e.callAll calls middle = .ok s' := by
  rw [callAll, List.foldlM_cons, bind_eq_ok]
  constructor
  · rintro ⟨middle, first, later⟩
    obtain ⟨⟨answer, _⟩, called, done⟩ := bind_eq_ok.mp first
    cases pure_eq_ok.mp done
    exact ⟨answer, _, called, later⟩
  · rintro ⟨answer, middle, called, later⟩
    exact ⟨middle, bind_eq_ok.mpr ⟨_, called, rfl⟩, later⟩

theorem callAll_append_eq_ok {first second : List (Call ι)} {s s' : σ} :
    e.callAll (first ++ second) s = .ok s' ↔ ∃ middle, e.callAll first s = .ok middle ∧ e.callAll second middle = .ok s' := by
  rw [callAll, List.foldlM_append, bind_eq_ok]
  rfl

/-- Errands are run by making the calls that they ask for. -/
theorem callAll_of_runAll {errands : List (Errand ι)} {s s' : σ} {count : Nat}
    (ran : Errand.runAll e errands s = .ok (count, s')) : e.callAll (errands.filterMap Errand.call?) s = .ok s' := by
  induction errands generalizing s count with
  | nil =>
    cases pure_eq_ok.mp ran
    rfl
  | cons t rest ih =>
    obtain ⟨⟨sent, middle⟩, first, later⟩ := bind_eq_ok.mp ran
    obtain ⟨⟨more, after⟩, others, done⟩ := bind_eq_ok.mp later
    cases pure_eq_ok.mp done
    rw [Errand.run] at first
    cases asked : t.call? with
    | none =>
      rw [asked] at first
      cases pure_eq_ok.mp first
      rw [List.filterMap_cons_none asked]
      exact ih others
    | some c =>
      rw [asked] at first
      rw [List.filterMap_cons_some asked]
      exact callAll_cons_eq_ok.mpr ⟨sent, middle, first, ih others⟩

/-- Firings are run by making their calls. -/
theorem callAll_of_runFirings {e : Engine World SpriteId} {phase : Phase} {firings : List (Firing SpriteId)} {w v : World}
    {fired : List Fired} (ran : Session.runFirings e phase firings w = .ok (fired, v)) :
    e.callAll (firings.flatMap Firing.calls) w = .ok v := by
  induction firings generalizing w fired with
  | nil =>
    cases pure_eq_ok.mp ran
    rfl
  | cons f rest ih =>
    rw [Session.runFirings] at ran
    rw [List.flatMap_cons, Firing.calls]
    cases named : f.rule with
    | none =>
      rw [named] at ran
      exact ih ran
    | some rule =>
      rw [named] at ran
      obtain ⟨⟨commands, middle⟩, first, later⟩ := bind_eq_ok.mp ran
      obtain ⟨⟨more, after⟩, others, done⟩ := bind_eq_ok.mp later
      cases pure_eq_ok.mp done
      exact callAll_append_eq_ok.mpr ⟨middle, callAll_of_runAll first, ih others⟩

end Engine

/-- Whatever is done through the engine, the property stays. -/
structure Engine.Keeps (e : Engine σ ι) (P : σ → Prop) : Prop where
  call : ∀ {c s answer s'}, P s → e.call c s = .ok (answer, s') → P s'
  advance : ∀ {s s'}, P s → e.advance s = .ok s' → P s'

namespace Engine.Keeps

variable {e : Engine σ ι} {P Q : σ → Prop}

theorem and (keeps : e.Keeps P) (also : e.Keeps Q) : e.Keeps fun s => P s ∧ Q s where
  call before called := ⟨keeps.call before.1 called, also.call before.2 called⟩
  advance before advanced := ⟨keeps.advance before.1 advanced, also.advance before.2 advanced⟩

theorem callAll (keeps : e.Keeps P) {calls : List (Call ι)} {s s' : σ} (before : P s)
    (called : e.callAll calls s = .ok s') : P s' := by
  induction calls generalizing s with
  | nil =>
    cases pure_eq_ok.mp called
    exact before
  | cons c rest ih =>
    obtain ⟨answer, middle, first, later⟩ := callAll_cons_eq_ok.mp called
    exact ih (keeps.call before first) later

end Engine.Keeps

namespace Engine.Keeps

variable {e : Engine World SpriteId} {P : World → Prop}

theorem runFirings (keeps : e.Keeps P) {phase : Phase} {firings : List (Firing SpriteId)} {w v : World}
    {fired : List Fired} (before : P w) (ran : Session.runFirings e phase firings w = .ok (fired, v)) : P v :=
  keeps.callAll before (callAll_of_runFirings ran)

theorem runPhase (keeps : e.Keeps P) {s : Session} {phase : Phase} {sprites : List SpriteId}
    {button : Option Button} {w v : World} {fired : List Fired} (before : P w)
    (ran : s.runPhase e phase sprites button w = .ok (fired, v)) : P v := by
  obtain ⟨firings, _, run⟩ := bind_eq_ok.mp ran
  exact keeps.runFirings before run

/-- A tick keeps what every call keeps. -/
theorem stepOn (keeps : e.Keeps P) {s : Session} {w v : World} {button : Option Button} {report : Report}
    (before : P w) (ran : s.stepOn e w button = .ok (report, v)) : P v := by
  rw [Session.stepOn_eq] at ran
  split at ran
  · cases pure_eq_ok.mp ran
    exact before
  · obtain ⟨⟨fired₁, w₁⟩, moving, ran⟩ := bind_eq_ok.mp ran
    obtain ⟨⟨fired₂, w₂⟩, resting, ran⟩ := bind_eq_ok.mp ran
    obtain ⟨⟨fired₃, w₃⟩, collision, ran⟩ := bind_eq_ok.mp ran
    obtain ⟨violating, _, ran⟩ := bind_eq_ok.mp ran
    obtain ⟨w₄, committed, done⟩ := bind_eq_ok.mp ran
    cases pure_eq_ok.mp done
    have settled := keeps.runPhase (keeps.runPhase (keeps.runPhase before moving) resting) collision
    exact keeps.advance settled committed

end Engine.Keeps
end Playfield
