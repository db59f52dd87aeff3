import Mathlib.Data.List.Pairwise
import Playfield.Proofs.Course
import Playfield.Proofs.Frames

/-!
# Suspension for one round

A kind whose rules are to be suspended is noted when a firing asks for it, and the end of the tick makes what was noted the
kinds that are suspended in the next one. So a kind is suspended in a tick exactly if a firing of the tick before asked for
it, and a tick that finds it suspended names none of its sprites, not even those that are placed meanwhile.
-/
namespace Playfield

variable {ι : Type}

/-- A firing asks for the rules of a kind to be suspended. -/
def Firing.Suspends (f : Firing ι) (kind : Nat) : Prop :=
  ∃ t ∈ f.commands, t.command.inst = .block ∧ t.command.arg.toNat = kind

theorem Errand.call?_eq_block_iff {t : Errand ι} {kind : Nat} :
    t.call? = some (.block kind) ↔ t.command.inst = .block ∧ t.command.arg.toNat = kind := by
  unfold Errand.call?
  dsimp only
  cases t.command.inst with
  | block | paint | spawn => simp
  | portal => cases t.target <;> simp
  | game => cases (ofCode? t.command.arg : Option GameEvent) <;> simp
  | sprite =>
    cases t.target with
    | none => simp
    | some target => cases (ofCode? t.command.arg : Option SpriteOp) <;> simp
  | move =>
    cases t.target with
    | none => simp
    | some target =>
      cases (ofCode? t.command.arg : Option MoveOrder) with
      | none => simp
      | some order => cases order <;> simp [moveCall?]

theorem block_mem_calls {fs : List (Firing ι)} (named : ∀ f ∈ fs, f.rule.isSome) (kind : Nat) :
    .block kind ∈ fs.flatMap Firing.calls ↔ ∃ f ∈ fs, f.Suspends kind := by
  rw [List.mem_flatMap]
  refine exists_congr fun f => and_congr_right fun member => ?_
  rw [Firing.calls, if_pos (named f member), List.mem_filterMap]
  exact exists_congr fun t => and_congr_right fun _ => Errand.call?_eq_block_iff

namespace Session

variable {s : Session} {w v : World} {button : Option Button} {report : Report}

theorem named_of_matchPhase {phase : Phase} {sprites : List SpriteId} {fs : List (Firing SpriteId)}
    (matched : s.matchPhase w phase sprites button = .ok fs) : ∀ f ∈ fs, f.rule.isSome := by
  intro f member
  obtain ⟨u, shown, _, source⟩ := source_of_matchPhase matched member
  obtain ⟨_, id, own, _⟩ := Project.mem_allViews shown
  rw [source, own]
  rfl

/-- What is found around a sprite is found while its kind is not suspended. -/
theorem unblocked_of_matchPhase (c : w.Consistent) {phase : Phase} {sprites : List SpriteId} {fs : List (Firing SpriteId)}
    (matched : s.matchPhase w phase sprites button = .ok fs) {hit : Hit} (member : hit ∈ fs.filterMap Firing.hit?) :
    ∃ r, w.sprite? hit.1 = some r ∧ w.isBlocked r.kind = false := by
  obtain ⟨f, found, shown⟩ := List.mem_filterMap.mp member
  obtain ⟨source, _, rfl⟩ := Option.map_eq_some_iff.mp shown
  obtain ⟨id, sprite, there, free, _, _, tried⟩ := tried_of_matchPhase matched found
  obtain ⟨_, _, _, rfl⟩ := Matcher.firing_of_evaluate (evaluate_of_tryView tried).2
  have own : sprite.id = id := c.own_id id sprite there
  exact ⟨sprite, own ▸ there, free⟩

namespace Course

/-! ### What is suspended -/

variable (c : s.Course World.engine w button report v)

theorem blocked_eq (phase : Phase) : (c.world phase).blocked = w.blocked := by
  refine c.of_runs (P := fun u => u.blocked = w.blocked) rfl ?_ phase
  intro _ _ u _ u' same ran
  rw [(World.blocks_of_callAll (Engine.callAll_of_runFirings ran)).1, same]

/-- What is noted when the tick is committed was noted before, or is what firings have asked for. -/
theorem mem_pendingBlocks (kind : Nat) : kind ∈ (c.world .negation).pendingBlocks ↔
    kind ∈ w.pendingBlocks ∨ ∃ phase ∈ Phase.running, ∃ f ∈ c.firings phase, f.Suspends kind := by
  have step : ∀ phase ∈ Phase.running, kind ∈ (c.world phase.next).pendingBlocks ↔
      kind ∈ (c.world phase).pendingBlocks ∨ ∃ f ∈ c.firings phase, f.Suspends kind := by
    intro phase running
    rw [← block_mem_calls (named_of_matchPhase (c.matched phase))]
    exact (World.blocks_of_callAll (Engine.callAll_of_runFirings (c.runs phase running))).2 kind
  simp only [Phase.running, List.forall_mem_cons, List.exists_mem_cons_iff, Phase.next] at step ⊢
  obtain ⟨moving, resting, collision, _⟩ := step
  rw [collision, resting, moving, c.starts]
  simp [or_assoc]

/-- The end of a tick suspends what was noted, and nothing is noted any more. -/
theorem isBlocked_iff (unasked : w.pendingBlocks = []) (kind : Nat) : v.isBlocked kind ↔
    ∃ phase ∈ Phase.running, ∃ f ∈ c.firings phase, f.Suspends kind := by
  have noted := c.mem_pendingBlocks kind
  rw [unasked, ← (World.blocks_of_advance c.commits).1] at noted
  simpa [World.isBlocked] using noted

/-! ### What is named -/

/-- The worlds of a tick, one after the other. -/
def worlds : List World := [c.world .moving, c.world .resting, c.world .collision, c.world .negation, v]

theorem world_mem_worlds (phase : Phase) : c.world phase ∈ c.worlds := by
  cases phase <;> simp [worlds]

theorem follows (start : w.Consistent) : c.worlds.Pairwise World.Follows := by
  have : Trans World.Follows World.Follows World.Follows := ⟨World.Follows.trans⟩
  have next : ∀ phase ∈ Phase.running, (c.world phase).Follows (c.world phase.next) := fun phase running =>
    ((World.keeps_follows .stream (c.world phase)).runFirings ⟨c.consistent start phase, .refl _⟩
      (c.runs phase running)).2
  simp only [Phase.running, List.forall_mem_cons, Phase.next] at next
  obtain ⟨moving, resting, collision, _⟩ := next
  have last := World.Follows.advance (c.consistent start .negation) c.commits
  rw [worlds, ← List.isChain_iff_pairwise]
  simp [moving, resting, collision, last]

theorem consistent_of_mem (start : w.Consistent) : ∀ u ∈ c.worlds, u.Consistent := by
  simp only [worlds, List.forall_mem_cons]
  exact ⟨c.consistent start _, c.consistent start _, c.consistent start _, c.consistent start _,
    (c.consistent start .negation).advance c.commits, nofun⟩

/-- A sprite has one kind throughout a tick. -/
theorem kind_eq (start : w.Consistent) {u u' : World} (member : u ∈ c.worlds) (member' : u' ∈ c.worlds) {id : SpriteId}
    {r r' : Sprite} (found : u.sprite? id = some r) (found' : u'.sprite? id = some r') : r.kind = r'.kind := by
  -- The worlds of a tick follow one another in one order; two of them may come in either.
  let Alike (u u' : World) : Prop := ∀ id r r', u.sprite? id = some r → u'.sprite? id = some r' → r.kind = r'.kind
  have : Std.Symm Alike := ⟨fun _ _ alike id r r' found found' => (alike id r' r found' found).symm⟩
  have itself : ∀ u ∈ c.worlds, Alike u u := by
    intro u _ id r r' found found'
    rw [found] at found'
    cases found'
    rfl
  have pairs : c.worlds.Pairwise Alike := by
    refine (c.follows start).imp_of_mem fun member _ follows id r r' found found' => ?_
    exact follows.kind_eq (c.consistent_of_mem start _ member) found found'
  exact pairs.forall_of_forall itself member member' id r r' found found'

/-- A sprite is there in a phase, and wherever it is in the tick, its kind is not suspended. -/
def Free (phase : Phase) (id : SpriteId) : Prop :=
  (∃ r, (c.world phase).sprite? id = some r) ∧ ∀ u ∈ c.worlds, ∀ r, u.sprite? id = some r → w.isBlocked r.kind = false

/-- The report names no sprite whose kind is suspended. -/
structure Spares : Prop where
  fired : ∀ x ∈ report.fired, c.Free x.phase x.sprite
  violations : ∀ x ∈ report.violations, c.Free .negation x.sprite

theorem free_of_hit (start : w.Consistent) {phase : Phase} {hit : Hit}
    (member : hit ∈ (c.firings phase).filterMap Firing.hit?) : c.Free phase hit.1 := by
  obtain ⟨r, there, free⟩ := unblocked_of_matchPhase (c.consistent start phase) (c.matched phase) member
  rw [World.isBlocked, c.blocked_eq] at free
  refine ⟨⟨r, there⟩, fun u listed r' found => ?_⟩
  rw [World.isBlocked, c.kind_eq start listed (c.world_mem_worlds phase) found there]
  exact free

theorem spares (start : w.Consistent) : c.Spares where
  fired x member := by
    obtain ⟨running, member⟩ := c.mem_fired member
    have hit : x.hit ∈ (c.firings x.phase).filterMap Firing.hit? := c.hits_fired running ▸ List.mem_map_of_mem member
    exact c.free_of_hit start hit
  violations x member := by
    have hit : x.hit ∈ (c.firings .negation).filterMap Firing.hit? := c.hits_violations ▸ List.mem_map_of_mem member
    exact c.free_of_hit start hit

end Course

/-! ### Runs -/

theorem pendingBlocks_of_step (unasked : w.pendingBlocks = []) (stepped : s.step w button = .ok (report, v)) :
    v.pendingBlocks = [] := by
  by_cases playing : w.status = .playing
  · obtain ⟨c⟩ := (stepOn_eq_ok_iff_course playing).mp stepped
    exact (World.blocks_of_advance c.commits).2
  · rw [step, stepOn_of_ended playing] at stepped
    cases stepped
    exact unasked

theorem reachable_of_step (reached : w.Reachable) (stepped : s.step w button = .ok (report, v)) : v.Reachable :=
  .next .stream (.step s button) reached (bind_eq_ok.mpr ⟨_, stepped, rfl⟩)

/-- A suspension lasts for one round. In a run that starts with nothing suspended and nothing noted, every tick of a game
    that goes on leaves those kinds suspended for which one of its own firings has asked, and it names no sprite, be it
    an old one or a new one, of a kind that is suspended while it goes on. -/
theorem suspended_for_one_round {buttons : List (Option Button)} {log : List (Report × World)} (reached : w.Reachable)
    (clear : w.blocked = []) (unasked : w.pendingBlocks = []) (ran : s.run buttons w = .ok log) :
    (∀ kind, w.isBlocked kind = false) ∧
    ∀ (i : Nat) u report v, (stops w log)[i]? = some u → log[i]? = some (report, v) → u.status = .playing →
      (stops w log)[i + 1]? = some v ∧ ∃ button, buttons[i]? = some button ∧
        ∃ c : s.Course World.engine u button report v,
          (∀ kind, v.isBlocked kind ↔ ∃ phase ∈ Phase.running, ∃ f ∈ c.firings phase, f.Suspends kind) ∧
          (∀ phase kind, (c.world phase).isBlocked kind = u.isBlocked kind) ∧ c.Spares := by
  refine ⟨fun kind => by simp [World.isBlocked, clear], ?_⟩
  intro i u report v start logged playing
  obtain ⟨u', button, start', pressed, stepped, next⟩ := step_of_run ran logged
  rw [start] at start'
  cases start'
  have kept := forall_of_run (P := fun u => u.Reachable ∧ u.pendingBlocks = []) ⟨reached, unasked⟩
    (fun before stepped => ⟨reachable_of_step before.1 stepped, pendingBlocks_of_step before.2 stepped⟩) ran
  obtain ⟨reached, unasked⟩ := kept u (List.mem_of_getElem? start)
  obtain ⟨c⟩ := (stepOn_eq_ok_iff_course playing).mp stepped
  refine ⟨next, button, pressed, c, c.isBlocked_iff unasked, ?_, c.spares reached.consistent⟩
  intro phase kind
  rw [World.isBlocked, c.blocked_eq, World.isBlocked]

theorem suspended_for_one_round_drill : ∃ w log, World.train = .ok w ∧
    (new (.drill [⟨.block, 0⟩]) .standard).run [none, none, none] w = .ok log ∧
    log.map (fun x => x.1.fired.length) = [2, 0, 2] ∧
    ∃ report v, log[0]? = some (report, v) ∧
      ∃ c : (new (.drill [⟨.block, 0⟩]) .standard).Course World.engine w none report v,
        (∀ kind, v.isBlocked kind ↔ ∃ phase ∈ Phase.running, ∃ f ∈ c.firings phase, f.Suspends kind) ∧ c.Spares := by
  obtain ⟨w, built, playing, clear, unasked⟩ : ∃ w, World.train = .ok w ∧ w.status = .playing ∧ w.blocked = [] ∧
      w.pendingBlocks = [] := ⟨_, rfl, rfl, rfl, rfl⟩
  have computed : ((World.train >>= (new (.drill [⟨.block, 0⟩]) .standard).run [none, none, none]).toOption.map
      fun log => log.map fun x => x.1.fired.length) = some [2, 0, 2] := by decide +kernel
  rw [built, ok_bind] at computed
  cases ran : (new (.drill [⟨.block, 0⟩]) .standard).run [none, none, none] w with
  | error cause =>
    rw [ran] at computed
    cases computed
  | ok log =>
    rw [ran] at computed
    have lengths : log.map (fun x => x.1.fired.length) = [2, 0, 2] := Option.some.inj computed
    cases log with
    | nil => cases lengths
    | cons first rest =>
      obtain ⟨report, v⟩ := first
      have reached := World.reachable_of_train built
      obtain ⟨_, button, pressed, c, suspended, _, spares⟩ :=
        (suspended_for_one_round reached clear unasked ran).2 0 w report v rfl rfl playing
      cases pressed
      exact ⟨w, _, built, ran, lengths, report, v, rfl, c, suspended, spares⟩

end Session
end Playfield
