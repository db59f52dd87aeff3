import Playfield.Proofs.Expansion
import Playfield.Proofs.Frames
import Playfield.Proofs.Idle
import Playfield.Proofs.Reload

/-!
# Games after saving and loading

What is loaded lacks the idle clauses of what was saved. The game is the same all the same, tick by tick, as long as
the tiles around every sprite have names. A sprite at the far end of the widest boards has none for some of them: a
rule with an idle clause there ends the run, and the loaded rule does not.
-/
namespace Playfield

/-! ### Room on the board -/

namespace World

/-- All tiles around every sprite can be named. -/
def Roomy (w : World) : Prop := ∀ id home, w.position id = some home → home.Roomy

/-- The board ends before the last tiles that can be named. -/
def Bounded (w : World) : Prop := w.width + 1 < Word.half.reach ∧ w.height + 1 < Word.half.reach

variable {w v : World}

theorem Consistent.roomy (c : Consistent w) (bounded : w.Bounded) : w.Roomy := by
  intro id home placed
  obtain ⟨s, found, rfl⟩ := position_eq_some.mp placed
  obtain ⟨⟨col, col_lt⟩, row, row_lt⟩ := inBounds_iff.mp (c.inside id s found)
  obtain ⟨wide, high⟩ := bounded
  unfold Tile.Roomy
  omega

end World

/-! ### Sessions without idle clauses -/

namespace Session

/-- The second session has the rules of the first without their idle clauses. -/
structure Trimmed (s r : Session) : Prop where
  matcher : r.matcher = s.matcher
  player : r.project.player = s.project.player
  views : r.views = s.views.map View.stripped
  distinct : ∀ v ∈ s.views, (v.rule.clauses.map (·.cell)).Nodup

namespace Trimmed

variable {s r : Session} {v : View}

theorem tryView (trimmed : s.Trimmed r) (w : World) (sprite : Sprite) (phase : Phase) (button : Option Button)
    (member : v ∈ s.views) :
    Unless (¬w.Roomy) (s.tryView w sprite phase button v) (r.tryView w sprite phase button v.stripped) := by
  have distinct := trimmed.distinct v member
  have candidate : r.isCandidate sprite phase button v.stripped = s.isCandidate sprite phase button v := by
    rw [isCandidate, isCandidate, trimmed.player, View.selects_stripped distinct]
    rfl
  rw [Session.tryView, Session.tryView, candidate, trimmed.matcher]
  refine (Unless.refl _).bind fun selected _ => ?_
  split
  · refine (Matcher.evaluate_stripped distinct sprite.id).imp ?_
    rintro ⟨home, placed, far⟩ roomy
    exact far (roomy sprite.id home placed)
  · exact .refl _

theorem matchSprite (trimmed : s.Trimmed r) (w : World) (phase : Phase) (button : Option Button) (id : SpriteId) :
    Unless (¬w.Roomy) (s.matchSprite w phase button id) (r.matchSprite w phase button id) := by
  rw [Session.matchSprite, Session.matchSprite]
  split
  · exact .refl _
  · rename_i sprite _
    split
    · exact .refl _
    · rw [trimmed.views, List.mapM_map]
      refine Unless.map _ (Unless.mapM fun v member => ?_)
      exact trimmed.tryView w sprite phase button member

theorem matchPhase (trimmed : s.Trimmed r) (w : World) (phase : Phase) (sprites : List SpriteId)
    (button : Option Button) :
    Unless (¬w.Roomy) (s.matchPhase w phase sprites button) (r.matchPhase w phase sprites button) :=
  Unless.map _ (Unless.mapM fun id _ => trimmed.matchSprite w phase button id)

theorem runPhase (trimmed : s.Trimmed r) (e : Engine World SpriteId) (phase : Phase) (sprites : List SpriteId)
    (button : Option Button) (w : World) :
    Unless (¬w.Roomy) (s.runPhase e phase sprites button w) (r.runPhase e phase sprites button w) :=
  (trimmed.matchPhase w phase sprites button).bind fun _ _ => .refl _

section

variable {e : Engine World SpriteId} {P : World → Prop} {lacking : Prop}

/-- A tick is the same without idle clauses, unless room is lacking on the way. -/
theorem stepOn (trimmed : s.Trimmed r) (keeps : e.Keeps P) (cramped : ∀ w, P w → ¬w.Roomy → lacking) {w : World}
    (before : P w) (button : Option Button) : Unless lacking (s.stepOn e w button) (r.stepOn e w button) := by
  rw [Session.stepOn_eq, Session.stepOn_eq]
  split
  · exact .refl _
  · -- The invariant is needed at each world in which a phase is matched.
    refine ((trimmed.runPhase e .moving _ button w).imp (cramped w before)).bind ?_
    rintro ⟨_, w₁⟩ moving
    have first := keeps.runPhase before moving
    refine ((trimmed.runPhase e .resting _ button w₁).imp (cramped w₁ first)).bind ?_
    rintro ⟨_, w₂⟩ resting
    have second := keeps.runPhase first resting
    refine ((trimmed.runPhase e .collision _ none w₂).imp (cramped w₂ second)).bind ?_
    rintro ⟨_, w₃⟩ collision
    have third := keeps.runPhase second collision
    exact ((trimmed.matchPhase w₃ .negation _ none).imp (cramped w₃ third)).bind fun _ _ => .refl _

/-- A game is the same without idle clauses, unless room is lacking on the way. -/
theorem run (trimmed : s.Trimmed r) (keeps : World.engine.Keeps P) (cramped : ∀ w, P w → ¬w.Roomy → lacking)
    {w : World} (before : P w) (buttons : List (Option Button)) :
    Unless lacking (s.run buttons w) (r.run buttons w) := by
  induction buttons generalizing w with
  | nil => exact .refl _
  | cons button rest ih =>
    rw [Session.run, Session.run]
    refine (trimmed.stepOn keeps cramped before button).bind ?_
    rintro ⟨report, v⟩ stepped
    exact (ih (keeps.stepOn before stepped)).map _

end

theorem run_or_overflow (trimmed : s.Trimmed r) (buttons : List (Option Button)) (w : World) :
    s.run buttons w = r.run buttons w ∨ s.run buttons w = .error .overflow := by
  have keeps : World.engine.Keeps fun _ => True := ⟨fun _ _ => trivial, fun _ _ => trivial⟩
  have agree : Unless True _ _ := trimmed.run keeps (fun _ _ _ => trivial) (w := w) trivial buttons
  exact agree.imp_right fun lost => lost.2

/-- On a bounded board nothing makes a difference: its sprites stay on it, and it keeps its size. -/
theorem run_bounded (trimmed : s.Trimmed r) {w : World} (reached : w.Reachable) (bounded : w.Bounded)
    (buttons : List (Option Button)) : s.run buttons w = r.run buttons w := by
  have keeps := (World.keeps_consistent .stream).and (World.keeps_size .stream w.size)
  have roomy : ∀ v : World, v.Consistent ∧ v.size = w.size → ¬v.Roomy → False := by
    rintro v ⟨c, same⟩ cramped
    obtain ⟨wide, high⟩ := Prod.mk.inj same
    exact cramped (c.roomy (by rw [World.Bounded, wide, high]; exact bounded))
  exact (trimmed.run keeps roomy ⟨reached.consistent, rfl⟩ buttons).eq

end Trimmed
end Session

/-! ### Projects -/

/-- A rule can be packed, its argument has four bits and its clauses lie apart. -/
structure Rule.Storable (kinds : Kinds) (r : Rule) : Prop where
  packed : ∃ bytes, Record.encode r kinds = .ok bytes
  small : r.arg.toNat < 16
  distinct : (r.clauses.map (·.cell)).Nodup

namespace Project

variable {p q : Project}

theorem trimmed_of_toList (storable : ∀ id r, p.rule? id = some r → r.Storable p.kinds) (config : q.config = p.config)
    (listed : q.rules.toList = p.rules.toList.map fun e => (e.1, e.2.stored)) (settings : Settings) :
    (Session.new p settings).Trimmed (Session.new q settings) := by
  have kinds : q.kinds = p.kinds := congrArg ProjectConfig.kinds config
  have views : q.views = p.views.map View.stripped := by
    rw [Project.views, Project.views, listed, List.map_map, List.map_map, kinds]
    apply List.map_congr_left
    rintro ⟨id, r⟩ member
    have same := Rule.stored_of_arg_lt (storable id r (mem_toList.mp member)).small
    rw [Function.comp_apply, Function.comp_apply, same]
    rfl
  constructor
  · show Matcher.new q.kinds settings = Matcher.new p.kinds settings
    rw [kinds]
  · exact congrArg ProjectConfig.player config
  · show q.views.flatMap View.all = (p.views.flatMap View.all).map View.stripped
    rw [views, List.flatMap_map, List.map_flatMap]
    apply List.flatMap_congr
    intro v _
    simp [View.all, View.derived, View.stripped, Rule.stripped]
  · intro v member
    obtain ⟨_, id, _, found⟩ := mem_allViews member
    exact (storable id v.rule found).distinct

/-- A project of rules that can be stored can be saved and loaded, and what is loaded plays every game as before:
    under any settings, in any world, for any buttons, all reports and worlds are the same. Only where the project
    itself overflows can what is loaded go on, and only on a board as wide or as high as a board can be. -/
theorem run_reloaded (reached : p.Reached fun _ => True)
    (storable : ∀ id r, p.rule? id = some r → r.Storable p.kinds) :
    ∃ records q, p.exportRules = .ok records ∧ (new p.config).importAll records = .ok q ∧ q.config = p.config ∧
      ∀ settings w buttons,
        ((Session.new p settings).run buttons w = (Session.new q settings).run buttons w ∨
          (Session.new p settings).run buttons w = .error .overflow) ∧
        (w.Reachable → w.Bounded →
          (Session.new p settings).run buttons w = (Session.new q settings).run buttons w) := by
  obtain ⟨records, q, exported, imported, config, listed⟩ := exists_reload reached.issued fun id r found =>
    ⟨r.sized, (storable id r found).distinct.sublist (List.filter_sublist.map _), (storable id r found).packed⟩
  simp only [Rule.loaded_eq_stored] at listed
  refine ⟨records, q, exported, imported, config, fun settings w buttons => ?_⟩
  have trimmed := trimmed_of_toList storable config listed settings
  exact ⟨trimmed.run_or_overflow buttons w, fun reached bounded => trimmed.run_bounded reached bounded buttons⟩

/-- A rule for the only sprite kind, with a clause two columns to the right that asks for nothing. -/
def idler : Except (Failure ProjectError) Project := do
  let p ← Operation.run (new ⟨⟨1, 1⟩, none⟩) (.make 0 .change 6)
  Operation.run p (.edit ⟨0⟩ (.clause ⟨4, 2⟩))

theorem reached_idler (made : idler = .ok p) : p.Reached Operation.Authoring := by
  obtain ⟨_, first, later⟩ := bind_eq_ok.mp made
  have makes : Operation.Authoring (.make 0 .change 6) := trivial
  have edits : Operation.Authoring (.edit ⟨0⟩ (.clause ⟨4, 2⟩)) := trivial
  exact .next (.next (.new _) makes first) edits later

theorem storable_idler (made : idler = .ok p) : ∀ id r, p.rule? id = some r → r.Storable p.kinds := by
  intro id r found
  have authored := (reached_idler made).authored id r found
  obtain ⟨other, rule, also, only, arg, length⟩ : ∃ p rule, idler = .ok p ∧ p.rules.toList = [(⟨0⟩, rule)] ∧
      rule.arg = 0 ∧ (Record.layout rule.stripped).length = 6 := ⟨_, _, rfl, rfl, rfl, rfl⟩
  obtain rfl : other = p := Except.ok.inj (also.symm.trans made)
  rw [← mem_toList, only, List.mem_singleton] at found
  cases found
  refine ⟨⟨_, authored.encode_eq ?_⟩, ?_, authored.distinct⟩
  · rw [length]
    decide
  · rw [arg]
    decide

theorem run_reloaded_idler : ∃ p records q w, idler = .ok p ∧ p.exportRules = .ok records ∧
    (new p.config).importAll records = .ok q ∧ World.train = .ok w ∧
    ∀ buttons, (Session.new p .standard).run buttons w = (Session.new q .standard).run buttons w := by
  obtain ⟨p, made⟩ : ∃ p, idler = .ok p := ⟨_, rfl⟩
  obtain ⟨w, built, bounded⟩ : ∃ w, World.train = .ok w ∧ w.Bounded := ⟨_, rfl, by unfold World.Bounded; decide⟩
  have reached : p.Reached fun _ => True := (reached_idler made).imp fun _ _ => trivial
  obtain ⟨records, q, exported, imported, _, same⟩ := run_reloaded reached (storable_idler made)
  refine ⟨p, records, q, w, made, exported, imported, built, fun buttons => ?_⟩
  exact (same .standard w buttons).2 (World.reachable_of_train built) bounded

/-- A sprite in the last column of the widest row. -/
def verge : Checked World := do
  let w ← World.new 2147483647 1 0 ⟨1, 1⟩ .standard
  Playfield.Operation.runAll w [.spawn ⟨2147483646, 0⟩ 0 none]

/-- Where the tile under an idle clause has no name, a game that ends for want of it goes on once the project is saved
    and loaded. -/
theorem run_reloaded_verge : ∃ (p q : Project) (records : List (RuleId × List UInt8)) (w : World)
    (log : List (Report × World)), p.Reached Operation.Authoring ∧ w.Reachable ∧
    (∀ id r, p.rule? id = some r → r.Storable p.kinds) ∧
    p.exportRules = .ok records ∧ (new p.config).importAll records = .ok q ∧
    (Session.new p .standard).run [none] w = .error .overflow ∧
    (Session.new q .standard).run [none] w = .ok log := by
  obtain ⟨p, rule, q, w, log, made, only, added, built, ends, goes_on⟩ : ∃ p rule q w log, idler = .ok p ∧
      p.rules.toList = [(⟨0⟩, rule)] ∧ Operation.run (new p.config) (.add rule.stored) = .ok q ∧ verge = .ok w ∧
      (Session.new p .standard).run [none] w = .error .overflow ∧
      (Session.new q .standard).run [none] w = .ok log := ⟨_, _, _, _, _, rfl, rfl, rfl, rfl, rfl, rfl⟩
  have found : p.rule? ⟨0⟩ = some rule := mem_toList.mp (only ▸ List.mem_singleton_self _)
  obtain ⟨⟨bytes, encoded⟩, _, distinct⟩ := storable_idler made ⟨0⟩ rule found
  have exported : p.exportRules = .ok [(⟨0⟩, bytes)] := by
    rw [exportRules, only, List.mapM_cons, encoded]
    rfl
  have decoded : Record.decode bytes (new p.config).kinds = .ok rule.stored :=
    Record.decode_of_encode encoded (distinct.sublist (List.filter_sublist.map _))
  have first : ¬RuleId.last.raw ≤ (⟨0⟩ : RuleId).raw := by decide
  have imported : (new p.config).importAll [(⟨0⟩, bytes)] = .ok q := by
    rw [← added, importAll, List.foldlM_cons, importRule, if_neg first, decoded]
    rfl
  obtain ⟨w₀, started, spawned⟩ := bind_eq_ok.mp built
  exact ⟨p, q, _, w, log, reached_idler made, (World.Reachable.new started).runAll spawned, storable_idler made,
    exported, imported, ends, goes_on⟩

end Project
end Playfield
