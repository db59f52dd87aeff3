import Playfield.Proofs.Expansion

/-!
# Rules that do not fire

Matching changes nothing, so a rule matters to a tick only through the commands that it runs. Where it does not fire,
the tick is the same without it, but for the violations that it shows. Rules for patterns that must never occur do
not fire at all.
-/
namespace Playfield

/-! ### Removal -/

/-- The rules but for one. -/
theorem RuleBook.toList_remove (b : RuleBook) (id : RuleId) :
    (b.remove id).2.toList = b.toList.filter fun e => e.1 ≠ id := by
  rw [remove]
  cases found : b.get? id with
  | none =>
    refine (List.filter_eq_self.mpr fun e member => decide_eq_true ?_).symm
    rintro rfl
    rw [mem_toList.mp member] at found
    cases found
  | some rule =>
    have marked := IdMap.insert_eq_modify (Option.join_eq_some_iff.mp found) fun _ => none
    dsimp only
    rw [marked, toList, toList, IdMap.modify, List.filterMap_map, List.filter_filterMap]
    refine List.filterMap_congr fun e _ => ?_
    obtain ⟨k⟩ := id
    obtain ⟨j, slot⟩ := e
    by_cases here : j = k
    · cases slot <;> simp [here, Option.filter]
    · cases slot <;> simp [here, Option.filter]

namespace Project

/-- The project once the rule of an id is removed. -/
def without (p : Project) (id : RuleId) : Project := (p.removeRule id).2

theorem rule?_of_without {p : Project} {id j : RuleId} {rule : Rule} (found : (p.without id).rule? j = some rule) :
    p.rule? j = some rule := by
  have listed : (j, rule) ∈ (p.without id).rules.toList := RuleBook.mem_toList.mpr found
  rw [without, removeRule, RuleBook.toList_remove] at listed
  exact RuleBook.mem_toList.mp (List.mem_filter.mp listed).1

theorem allViews_without (p : Project) (id : RuleId) :
    (p.without id).allViews = p.allViews.filter fun v => v.id ≠ some id := by
  rw [allViews_eq, allViews_eq, without, removeRule, RuleBook.toList_remove]
  induction p.rules.toList with
  | nil => rfl
  | cons e rest ih =>
    rw [List.flatMap_cons, List.filter_append, ← ih, List.filter_map]
    by_cases here : e.1 = id
    · simp [here, Function.comp_def]
    · simp [here, Function.comp_def, kinds]

end Project

/-- The report without the violations of a rule. -/
def Report.without (r : Report) (id : RuleId) : Report :=
  { r with violations := r.violations.filter fun x => x.rule ≠ id }

/-- Of what comes to a value for every member of a list, a part comes to the corresponding part. -/
theorem mapM_filter_eq_ok {ε α β : Type} {f : α → Except ε (Option β)} {keep : α → Bool} {good : β → Bool}
    (own : ∀ a b, f a = .ok (some b) → good b = keep a) {l : List α} {places : List (Option β)}
    (mapped : l.mapM f = .ok places) :
    ∃ kept, (l.filter keep).mapM f = .ok kept ∧ kept.reduceOption = places.reduceOption.filter good := by
  induction l generalizing places with
  | nil =>
    cases pure_eq_ok.mp mapped
    exact ⟨[], rfl, rfl⟩
  | cons a rest ih =>
    rw [List.mapM_cons] at mapped
    obtain ⟨place, here, mapped⟩ := bind_eq_ok.mp mapped
    obtain ⟨others, later, done⟩ := bind_eq_ok.mp mapped
    cases pure_eq_ok.mp done
    obtain ⟨kept, mapped, same⟩ := ih later
    cases keeps : keep a with
    | true =>
      refine ⟨place :: kept, ?_, ?_⟩
      · rw [List.filter_cons_of_pos keeps, List.mapM_cons, here, ok_bind, mapped]
        rfl
      · cases place with
        | none => exact same
        | some b =>
          have good_b : good b = true := (own a b here).trans keeps
          show b :: kept.reduceOption = (b :: others.reduceOption).filter good
          rw [List.filter_cons_of_pos good_b, same]
    | false =>
      refine ⟨kept, by rw [List.filter_cons_of_neg (by simp [keeps]), mapped], ?_⟩
      cases place with
      | none => exact same
      | some b =>
        have bad_b : ¬good b = true := by simp [own a b here, keeps]
        show kept.reduceOption = (b :: others.reduceOption).filter good
        rw [List.filter_cons_of_neg bad_b, same]

namespace Session

variable {s r : Session} {id : RuleId}

/-- Around every sprite the second session finds what the first one does, but for the firings of a rule. -/
def Lacks (id : RuleId) (s r : Session) : Prop :=
  ∀ w phase button sprite fs, s.matchSprite w phase button sprite = .ok fs →
    r.matchSprite w phase button sprite = .ok (fs.filter fun f => f.rule ≠ some id)

theorem tryView_eq_some_iff {w : World} {sprite : Sprite} {phase : Phase} {button : Option Button} {v : View}
    {f : Firing SpriteId} : s.tryView w sprite phase button v = .ok (some f) ↔
      s.isCandidate sprite phase button v = .ok true ∧ s.matcher.evaluate w.grid sprite.id v = .ok (some f) := by
  rw [tryView, bind_eq_ok]
  constructor
  · rintro ⟨selected, candidate, tried⟩
    cases selected with
    | false => cases pure_eq_ok.mp tried
    | true => exact ⟨candidate, tried⟩
  · rintro ⟨candidate, matched⟩
    exact ⟨true, candidate, matched⟩

theorem evaluate_of_tryView {w : World} {sprite : Sprite} {phase : Phase} {button : Option Button} {v : View}
    {f : Firing SpriteId} (tried : s.tryView w sprite phase button v = .ok (some f)) :
    v.accepts phase button ∧ s.matcher.evaluate w.grid sprite.id v = .ok (some f) := by
  obtain ⟨candidate, matched⟩ := tryView_eq_some_iff.mp tried
  refine ⟨?_, matched⟩
  by_contra other
  simp [isCandidate, other] at candidate

theorem source_of_tryView {w : World} {sprite : Sprite} {phase : Phase} {button : Option Button} {v : View}
    {f : Firing SpriteId} (tried : s.tryView w sprite phase button v = .ok (some f)) :
    v.accepts phase button ∧ f.rule = v.id := by
  obtain ⟨accepted, matched⟩ := evaluate_of_tryView tried
  exact ⟨accepted, (Matcher.source_of_evaluate matched).1⟩

/-- Around a sprite nothing is matched whatever the rules are, or every view is tried. -/
theorem matchSprite_tries (w : World) (id : SpriteId) :
    (∀ (s : Session) phase button, s.matchSprite w phase button id = .ok []) ∨
      ∃ sprite, ∀ (s : Session) phase button, s.matchSprite w phase button id =
        s.views.mapM (s.tryView w sprite phase button) >>= fun found => .ok found.reduceOption := by
  cases known : w.sprite? id with
  | none =>
    refine .inl fun s phase button => ?_
    rw [matchSprite, known]
    rfl
  | some sprite =>
    by_cases blocked : w.isBlocked sprite.kind
    · refine .inl fun s phase button => ?_
      rw [matchSprite, known]
      exact if_pos blocked
    · refine .inr ⟨sprite, fun s phase button => ?_⟩
      rw [matchSprite, known]
      exact if_neg blocked

/-- What a session finds around a sprite without a rule. -/
theorem lacks_without (p : Project) (settings : Settings) (id : RuleId) :
    Lacks id (.new p settings) (.new (p.without id) settings) := by
  intro w phase button sprite fs matched
  rcases matchSprite_tries w sprite with unmatched | ⟨sprite, tries⟩
  · rw [unmatched] at matched ⊢
    cases matched
    rfl
  · rw [tries] at matched ⊢
    obtain ⟨places, mapped, done⟩ := bind_eq_ok.mp matched
    cases done
    have own (v : View) (f : Firing SpriteId)
        (tried : (Session.new p settings).tryView w sprite phase button v = .ok (some f)) :
        decide (f.rule ≠ some id) = decide (v.id ≠ some id) := by rw [(source_of_tryView tried).2]
    obtain ⟨kept, mapped, same⟩ := mapM_filter_eq_ok own mapped
    have views : (Session.new (p.without id) settings).views = _ := p.allViews_without id
    have tried : (Session.new (p.without id) settings).tryView w sprite phase button =
        (Session.new p settings).tryView w sprite phase button := rfl
    rw [views, tried, ← same]
    exact bind_eq_ok.mpr ⟨kept, mapped, rfl⟩

/-! ### Ticks without a rule -/

theorem flatten_mapM_filter {ε α β : Type} {f g : α → Except ε (List β)} {good : β → Bool} {l : List α}
    (each : ∀ a bs, f a = .ok bs → g a = .ok (bs.filter good)) {rows : List (List β)} (mapped : l.mapM f = .ok rows) :
    ∃ kept, l.mapM g = .ok kept ∧ kept.flatten = rows.flatten.filter good := by
  induction l generalizing rows with
  | nil =>
    cases pure_eq_ok.mp mapped
    exact ⟨[], rfl, rfl⟩
  | cons a rest ih =>
    rw [List.mapM_cons] at mapped
    obtain ⟨row, here, mapped⟩ := bind_eq_ok.mp mapped
    obtain ⟨others, later, done⟩ := bind_eq_ok.mp mapped
    cases pure_eq_ok.mp done
    obtain ⟨kept, mapped, same⟩ := ih later
    refine ⟨row.filter good :: kept, ?_, ?_⟩
    · rw [List.mapM_cons, each a row here, ok_bind, mapped]
      rfl
    · rw [List.flatten_cons, List.flatten_cons, List.filter_append, same]

theorem Lacks.matchPhase (lacks : Lacks id s r) {w : World} {phase : Phase} {sprites : List SpriteId}
    {button : Option Button} {fs : List (Firing SpriteId)} (matched : s.matchPhase w phase sprites button = .ok fs) :
    r.matchPhase w phase sprites button = .ok (fs.filter fun f => f.rule ≠ some id) := by
  obtain ⟨rows, mapped, done⟩ := bind_eq_ok.mp matched
  cases pure_eq_ok.mp done
  obtain ⟨kept, mapped, same⟩ := flatten_mapM_filter (fun sprite fs => lacks w phase button sprite fs) mapped
  rw [← same]
  exact bind_eq_ok.mpr ⟨kept, mapped, rfl⟩

theorem rules_of_runFirings {e : Engine World SpriteId} {phase : Phase} {fs : List (Firing SpriteId)} {w v : World}
    {fired : List Fired} (ran : runFirings e phase fs w = .ok (fired, v)) :
    fired.map (·.rule) = fs.filterMap (·.rule) := by
  have rules := congrArg (List.map fun hit : Hit => hit.2.1) (hits_of_runFirings ran).1
  rw [List.map_map, List.map_filterMap] at rules
  refine rules.trans (List.filterMap_congr fun f _ => ?_)
  rw [Firing.hit?, Firing.source, Option.map_map, Option.map_map]
  exact Option.map_id'

/-- A phase in which a rule does not fire runs as well without it. -/
theorem Lacks.runPhase (lacks : Lacks id s r) {e : Engine World SpriteId} {phase : Phase} {sprites : List SpriteId}
    {button : Option Button} {w v : World} {fired : List Fired}
    (ran : s.runPhase e phase sprites button w = .ok (fired, v)) (quiet : ∀ f ∈ fired, f.rule ≠ id) :
    r.runPhase e phase sprites button w = .ok (fired, v) := by
  obtain ⟨fs, matched, ran⟩ := bind_eq_ok.mp ran
  have all : fs.filter (fun f => f.rule ≠ some id) = fs := by
    refine List.filter_eq_self.mpr fun f member => decide_eq_true fun named => ?_
    have listed : id ∈ fired.map (·.rule) := rules_of_runFirings ran ▸ List.mem_filterMap.mpr ⟨f, member, named⟩
    obtain ⟨x, member, same⟩ := List.mem_map.mp listed
    exact quiet x member same
  have also := lacks.matchPhase matched
  rw [all] at also
  exact bind_eq_ok.mpr ⟨fs, also, ran⟩

theorem filterMap_violation? (fs : List (Firing SpriteId)) (id : RuleId) :
    (fs.filter fun f => f.rule ≠ some id).filterMap violation? =
      (fs.filterMap violation?).filter fun x => x.rule ≠ id := by
  rw [List.filterMap_filter, List.filter_filterMap]
  refine List.filterMap_congr fun f _ => ?_
  cases named : f.rule with
  | none => simp [violation?, named]
  | some rule =>
    by_cases here : rule = id
    · simp [violation?, named, here, Option.filter]
    · simp [violation?, named, here, Option.filter]

/-- The phases of a tick. -/
theorem stepOn_eq_ok_iff {e : Engine World SpriteId} {w v : World} {button : Option Button} {report : Report}
    (playing : w.status = .playing) : s.stepOn e w button = .ok (report, v) ↔
      ∃ fired₁ w₁ fired₂ w₂ fired₃ w₃ violating,
        s.runPhase e .moving (w.spritesInMotion true) button w = .ok (fired₁, w₁) ∧
        s.runPhase e .resting (w.spritesInMotion false) button w₁ = .ok (fired₂, w₂) ∧
        s.runPhase e .collision w₂.colliding none w₂ = .ok (fired₃, w₃) ∧
        s.matchPhase w₃ .negation (w₃.spriteList.map (·.id)) none = .ok violating ∧ e.advance w₃ = .ok v ∧
        report = ⟨v.tick, fired₁ ++ fired₂ ++ fired₃, commandCount (fired₁ ++ fired₂ ++ fired₃),
          violating.filterMap violation?, v.rejected⟩ := by
  rw [Session.stepOn_eq, if_neg (not_not.mpr playing)]
  constructor
  · intro ran
    obtain ⟨⟨fired₁, w₁⟩, moving, ran⟩ := bind_eq_ok.mp ran
    obtain ⟨⟨fired₂, w₂⟩, resting, ran⟩ := bind_eq_ok.mp ran
    obtain ⟨⟨fired₃, w₃⟩, collision, ran⟩ := bind_eq_ok.mp ran
    obtain ⟨violating, negation, ran⟩ := bind_eq_ok.mp ran
    obtain ⟨_, advanced, done⟩ := bind_eq_ok.mp ran
    cases pure_eq_ok.mp done
    exact ⟨_, _, _, _, _, _, _, moving, resting, collision, negation, advanced, rfl⟩
  · rintro ⟨_, _, _, _, _, _, _, moving, resting, collision, negation, advanced, rfl⟩
    refine bind_eq_ok.mpr ⟨_, moving, bind_eq_ok.mpr ⟨_, resting, bind_eq_ok.mpr ⟨_, collision, ?_⟩⟩⟩
    exact bind_eq_ok.mpr ⟨_, negation, bind_eq_ok.mpr ⟨_, advanced, rfl⟩⟩

theorem stepOn_of_ended {w : World} (ended : w.status ≠ .playing) (s : Session) (e : Engine World SpriteId)
    (button : Option Button) : s.stepOn e w button = .ok (⟨w.tick, [], 0, [], []⟩, w) := if_pos ended

/-- A tick in which a rule does not fire is the same without it, but for the violations that it shows. -/
theorem Lacks.stepOn (lacks : Lacks id s r) {e : Engine World SpriteId} {w v : World} {button : Option Button}
    {report : Report} (ran : s.stepOn e w button = .ok (report, v)) (quiet : ∀ f ∈ report.fired, f.rule ≠ id) :
    r.stepOn e w button = .ok (report.without id, v) := by
  by_cases playing : w.status = .playing
  · obtain ⟨fired₁, w₁, fired₂, w₂, fired₃, w₃, violating, moving, resting, collision, negation, advanced, rfl⟩ :=
      (stepOn_eq_ok_iff playing).mp ran
    simp only [List.mem_append, or_imp, forall_and] at quiet
    obtain ⟨⟨quiet₁, quiet₂⟩, quiet₃⟩ := quiet
    refine (stepOn_eq_ok_iff playing).mpr ⟨fired₁, w₁, fired₂, w₂, fired₃, w₃, _, lacks.runPhase moving quiet₁,
      lacks.runPhase resting quiet₂, lacks.runPhase collision quiet₃, lacks.matchPhase negation, advanced, ?_⟩
    rw [filterMap_violation?]
    rfl
  · rw [stepOn_of_ended playing] at ran ⊢
    cases ran
    rfl

/-- A run in which a rule does not fire is the same without it, but for the violations that it shows. -/
theorem Lacks.run (lacks : Lacks id s r) {buttons : List (Option Button)} {w : World} {log : List (Report × World)}
    (ran : s.run buttons w = .ok log) (quiet : ∀ x ∈ log, ∀ f ∈ x.1.fired, f.rule ≠ id) :
    r.run buttons w = .ok (log.map fun x => (x.1.without id, x.2)) := by
  induction buttons generalizing w log with
  | nil =>
    cases pure_eq_ok.mp ran
    rfl
  | cons button rest ih =>
    rw [Session.run] at ran
    obtain ⟨⟨report, u⟩, stepped, ran⟩ := bind_eq_ok.mp ran
    obtain ⟨logged, later, done⟩ := bind_eq_ok.mp ran
    cases pure_eq_ok.mp done
    obtain ⟨quiet, others⟩ := List.forall_mem_cons.mp quiet
    have first : r.step w button = .ok (report.without id, u) := lacks.stepOn stepped quiet
    rw [Session.run, first, ok_bind]
    dsimp only
    rw [ih later others]
    rfl

/-! ### Rules that never fire -/

/-- What is found in a phase is found of a view around a sprite that is there and whose kind is not suspended. -/
theorem tried_of_matchPhase {w : World} {phase : Phase} {sprites : List SpriteId} {button : Option Button}
    {fs : List (Firing SpriteId)} (matched : s.matchPhase w phase sprites button = .ok fs) {f : Firing SpriteId}
    (member : f ∈ fs) : ∃ id sprite, w.sprite? id = some sprite ∧ w.isBlocked sprite.kind = false ∧
      ∃ v ∈ s.views, s.tryView w sprite phase button v = .ok (some f) := by
  obtain ⟨rows, mapped, done⟩ := bind_eq_ok.mp matched
  cases pure_eq_ok.mp done
  obtain ⟨row, listed, member⟩ := List.mem_flatten.mp member
  obtain ⟨id, _, matched⟩ := (mem_mapM_iff mapped).mp listed
  rw [matchSprite] at matched
  split at matched
  · cases pure_eq_ok.mp matched
    cases member
  · rename_i sprite there
    split at matched
    · cases pure_eq_ok.mp matched
      cases member
    · rename_i free
      obtain ⟨places, mapped, done⟩ := bind_eq_ok.mp matched
      cases pure_eq_ok.mp done
      obtain ⟨_, place, rfl⟩ := List.mem_filterMap.mp member
      obtain ⟨v, shown, tried⟩ := (mem_mapM_iff mapped).mp place
      exact ⟨id, sprite, there, by simpa using free, v, shown, tried⟩

theorem source_of_matchPhase {w : World} {phase : Phase} {sprites : List SpriteId} {button : Option Button}
    {fs : List (Firing SpriteId)} (matched : s.matchPhase w phase sprites button = .ok fs) {f : Firing SpriteId}
    (member : f ∈ fs) : ∃ v ∈ s.views, v.accepts phase button ∧ f.rule = v.id := by
  obtain ⟨_, _, _, _, v, shown, tried⟩ := tried_of_matchPhase matched member
  exact ⟨v, shown, source_of_tryView tried⟩

theorem source_of_runPhase {e : Engine World SpriteId} {phase : Phase} {sprites : List SpriteId}
    {button : Option Button} {w v : World} {fired : List Fired}
    (ran : s.runPhase e phase sprites button w = .ok (fired, v)) {x : Fired} (member : x ∈ fired) :
    ∃ v ∈ s.views, v.accepts phase button ∧ v.id = some x.rule := by
  obtain ⟨fs, matched, ran⟩ := bind_eq_ok.mp ran
  have listed : x.rule ∈ fs.filterMap (·.rule) := rules_of_runFirings ran ▸ List.mem_map_of_mem member
  obtain ⟨f, found, named⟩ := List.mem_filterMap.mp listed
  obtain ⟨v, shown, accepted, source⟩ := source_of_matchPhase matched found
  exact ⟨v, shown, accepted, source.symm.trans named⟩

theorem trigger_of_accepts {v : View} {phase : Phase} {button : Option Button} (running : phase ≠ .negation)
    (accepted : v.accepts phase button) : v.rule.trigger ≠ .negation := by
  intro never
  cases phase with
  | negation => exact running rfl
  | moving | resting | collision => simp [View.accepts, never] at accepted

/-- What fires is a rule of the project, and none for patterns that must never occur. -/
theorem rule_of_fired {p : Project} {settings : Settings} {e : Engine World SpriteId} {w v : World}
    {button : Option Button} {report : Report} (ran : (new p settings).stepOn e w button = .ok (report, v)) {x : Fired}
    (member : x ∈ report.fired) : ∃ rule, p.rule? x.rule = some rule ∧ rule.trigger ≠ .negation := by
  have shown {phase : Phase} {sprites : List SpriteId} {button : Option Button} {w v : World} {fired : List Fired}
      (running : phase ≠ .negation) (ran : (new p settings).runPhase e phase sprites button w = .ok (fired, v))
      (member : x ∈ fired) : ∃ rule, p.rule? x.rule = some rule ∧ rule.trigger ≠ .negation := by
    obtain ⟨v, shown, accepted, named⟩ := source_of_runPhase ran member
    obtain ⟨_, id, own, found⟩ := Project.mem_allViews shown
    obtain rfl := Option.some.inj (own.symm.trans named)
    exact ⟨v.rule, found, trigger_of_accepts running accepted⟩
  by_cases playing : w.status = .playing
  · obtain ⟨_, _, _, _, _, _, _, moving, resting, collision, _, _, rfl⟩ := (stepOn_eq_ok_iff playing).mp ran
    rcases List.mem_append.mp member with member | member
    · rcases List.mem_append.mp member with member | member
      · exact shown (by decide) moving member
      · exact shown (by decide) resting member
    · exact shown (by decide) collision member
  · rw [stepOn_of_ended playing] at ran
    cases ran
    cases member

/-- A tick in which a rule does not fire takes the world to the same one without the rule, and is reported alike but for
    the violations that the rule shows. Rules for patterns that must never occur can all be removed. -/
theorem step_without {p : Project} {settings : Settings} {w v : World} {button : Option Button} {report : Report}
    (ran : (new p settings).step w button = .ok (report, v)) :
    (∀ id, (∀ f ∈ report.fired, f.rule ≠ id) →
      (new (p.without id) settings).step w button = .ok (report.without id, v)) ∧
    ∀ ids : List RuleId, (∀ id ∈ ids, ∀ rule, p.rule? id = some rule → rule.trigger = .negation) →
      (new (ids.foldl Project.without p) settings).step w button = .ok (ids.foldl Report.without report, v) := by
  have single {q : Project} {told : Report} (ran : (new q settings).step w button = .ok (told, v)) (id : RuleId)
      (quiet : ∀ f ∈ told.fired, f.rule ≠ id) :
      (new (q.without id) settings).step w button = .ok (told.without id, v) :=
    (lacks_without q settings id).stepOn ran quiet
  refine ⟨single ran, fun ids => ?_⟩
  induction ids generalizing p report with
  | nil => exact fun _ => ran
  | cons id rest ih =>
    intro never
    obtain ⟨here, others⟩ := List.forall_mem_cons.mp never
    have quiet : ∀ f ∈ report.fired, f.rule ≠ id := by
      rintro f member rfl
      obtain ⟨rule, found, fires⟩ := rule_of_fired ran member
      exact fires (here rule found)
    refine ih (single ran id quiet) fun j member rule found => ?_
    exact others j member rule (Project.rule?_of_without found)

/-- A rule that fires for every sprite, and one that says that there must be none. -/
def watch : Except (Failure ProjectError) Project := do
  let (_, p) ← (Project.new ⟨⟨1, 1⟩, none⟩).makeRule 0 .change 6
  return (← p.makeRule 0 .negation 6).2

/-- A single sprite on a single tile. -/
def alone : Checked World := do return (← (← World.new 1 1 0 ⟨1, 1⟩ .standard).spawn ⟨0, 0⟩ 0 none).2

theorem step_without_watch : ∃ p w report v, watch = .ok p ∧ alone = .ok w ∧
    (new p .standard).step w none = .ok (report, v) ∧ report.fired.map (·.rule) = [⟨0⟩] ∧
    report.violations.map (·.rule) = [⟨1⟩] ∧ (report.without ⟨1⟩).violations = [] ∧
    (new (p.without ⟨1⟩) .standard).step w none = .ok (report.without ⟨1⟩, v) := by
  obtain ⟨p, w, report, v, made, built, ran, fired, shown, gone⟩ : ∃ p w report v, watch = .ok p ∧ alone = .ok w ∧
      (new p .standard).step w none = .ok (report, v) ∧ report.fired.map (·.rule) = [⟨0⟩] ∧
      report.violations.map (·.rule) = [⟨1⟩] ∧ (report.without ⟨1⟩).violations = [] :=
    ⟨_, _, _, _, rfl, rfl, rfl, rfl, rfl, rfl⟩
  refine ⟨p, w, report, v, made, built, ran, fired, shown, gone, (step_without ran).1 ⟨1⟩ fun f member => ?_⟩
  have listed : f.rule ∈ report.fired.map (·.rule) := List.mem_map_of_mem member
  rw [fired, List.mem_singleton] at listed
  rw [listed]
  decide

end Session
end Playfield
