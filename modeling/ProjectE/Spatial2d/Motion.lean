import ProjectE.Ecs.History
import ProjectE.Render.Animation

/-!
# Motion

The two fixed systems of the spatial module: one adds the acceleration to the velocity, the other,
right after it, the velocity to the position. A fixed update so takes an entity one step further on
a trajectory (`Body.after`), and where it is depends on how many updates there were.

As these depend on the time that has passed, and not on how it was cut into calls of `addTime`, so
does the motion (`motion`): it is the same at every frame rate, whatever else goes on in the world,
as long as no other system pushes the entity. Floats are exact rationals.
-/

namespace ProjectE.Spatial2d

open Ecs Render Verif

/-! ## The systems -/

/-- `Velocity`. -/
structure Velocity where
  x : ℚ
  y : ℚ
deriving DecidableEq, Repr

/-- `Acceleration`. -/
structure Acceleration where
  x : ℚ
  y : ℚ
deriving DecidableEq, Repr

/-- `ApplyVelocitySystem::_innerOperate`: the position moves on by the velocity times the delta of
the tree. -/
def ApplyVelocitySystem.innerOperate (deltaTime : ℚ) (position : Position) (velocity : Velocity) :
    Position :=
  ⟨position.x + velocity.x * deltaTime, position.y + velocity.y * deltaTime⟩

/-- `ApplyAccelerationSystem::_innerOperate`: the velocity changes by the acceleration times the
delta. -/
def ApplyAccelerationSystem.innerOperate (deltaTime : ℚ) (velocity : Velocity)
    (acceleration : Acceleration) : Velocity :=
  ⟨velocity.x + acceleration.x * deltaTime, velocity.y + acceleration.y * deltaTime⟩

/-- `Spatial2D`, by the pointers to its two systems, which are two objects. -/
structure Spatial2D (S : Type) where
  applyAccelerationSystem : S
  applyVelocitySystem : S
  ne : applyAccelerationSystem ≠ applyVelocitySystem

/-- The group of the two systems. -/
def SPATIAL2D_SYS_GROUP : String := "SPATIAL2D"

/-- The node the module adds to the fixed tree: the acceleration is applied first. -/
def Spatial2D.spatial2DNode {S : Type} (module : Spatial2D S) : SystemTreeNode S :=
  .node true SPATIAL2D_SYS_GROUP [module.applyAccelerationSystem, module.applyVelocitySystem] [] []

/-! ## The trajectory -/

/-- The components of an entity that moves. Other components it may have do not matter here. -/
structure Body where
  position : Position
  velocity : Velocity
  acceleration : Acceleration
deriving DecidableEq, Repr

namespace Body

/-- What a run of the first system does to a body. -/
def accelerate (deltaTime : ℚ) (b : Body) : Body :=
  { b with velocity :=
      ApplyAccelerationSystem.innerOperate deltaTime b.velocity b.acceleration }

/-- What a run of the second does: it uses the velocity as the first has left it. -/
def move (deltaTime : ℚ) (b : Body) : Body :=
  { b with position := ApplyVelocitySystem.innerOperate deltaTime b.position b.velocity }

/-- After `n` updates of this time. The update adds the velocity it has made. -/
def after (deltaTime : ℚ) (n : ℕ) (b : Body) : Body where
  position := ⟨
    b.position.x + n * deltaTime * b.velocity.x +
      n * (n + 1) / 2 * deltaTime ^ 2 * b.acceleration.x,
    b.position.y + n * deltaTime * b.velocity.y +
      n * (n + 1) / 2 * deltaTime ^ 2 * b.acceleration.y⟩
  velocity := ⟨b.velocity.x + n * deltaTime * b.acceleration.x,
    b.velocity.y + n * deltaTime * b.acceleration.y⟩
  acceleration := b.acceleration

variable (deltaTime : ℚ) (m n : ℕ) (b : Body)

/-- No update, no motion. -/
theorem after_zero : b.after deltaTime 0 = b := by simp [after]

/-- One more update. -/
theorem move_accelerate_after :
    ((b.after deltaTime n).accelerate deltaTime).move deltaTime = b.after deltaTime (n + 1) := by
  simp only [after, accelerate, move, ApplyAccelerationSystem.innerOperate,
    ApplyVelocitySystem.innerOperate, mk.injEq, Position.mk.injEq, Velocity.mk.injEq, and_true,
    Nat.cast_add, Nat.cast_one]
  refine ⟨⟨?_, ?_⟩, ?_, ?_⟩ <;> ring

/-- A trajectory goes on from where it has come to. -/
theorem after_after : (b.after deltaTime m).after deltaTime n = b.after deltaTime (m + n) := by
  induction n with
  | zero => exact after_zero deltaTime _
  | succ n ih => rw [← move_accelerate_after, ih, move_accelerate_after, Nat.add_assoc]

end Body

/-! ## What is run on an entity -/

section Systems

variable {S : Type} [DecidableEq S] (module : Spatial2D S)

/-- What a run of a system does to a body. -/
def act (b : Body) (run : S × ℚ) : Body :=
  if run.1 = module.applyAccelerationSystem then b.accelerate run.2
  else if run.1 = module.applyVelocitySystem then b.move run.2
  else b

/-- The two systems. -/
def Ours (s : S) : Prop := s = module.applyAccelerationSystem ∨ s = module.applyVelocitySystem

instance : DecidablePred (Ours module) := fun _ => inferInstanceAs (Decidable (_ ∨ _))

variable {module}

/-- Another system leaves the body alone. -/
theorem act_of_not_ours {b : Body} {run : S × ℚ} (h : ¬Ours module run.1) :
    act module b run = b := by
  rw [act, if_neg (mt .inl h), if_neg (mt .inr h)]

/-- Only the runs of the two systems count. -/
theorem foldl_act_filter (deltaTime : ℚ) (systems : List S) (b : Body) :
    (systems.map (·, deltaTime)).foldl (act module) b =
      ((systems.filter (Ours module ·)).map (·, deltaTime)).foldl (act module) b := by
  induction systems generalizing b with
  | nil => rfl
  | cons s systems ih =>
    rw [List.map_cons, List.foldl_cons, ih]
    by_cases hs : Ours module s
    · rw [List.filter_cons, if_pos (decide_eq_true hs)]
      rfl
    · rw [List.filter_cons, if_neg (mt of_decide_eq_true hs), act_of_not_ours hs]

/-- A run of a tree in which one is run right after the other is an update. -/
theorem foldl_act_of_filter {systems : List S}
    (h : systems.filter (Ours module ·) =
      [module.applyAccelerationSystem, module.applyVelocitySystem]) (deltaTime : ℚ) (b : Body) :
    (systems.map (·, deltaTime)).foldl (act module) b =
      (b.accelerate deltaTime).move deltaTime := by
  rw [foldl_act_filter, h]
  simp only [List.map_cons, List.map_nil, List.foldl_cons, List.foldl_nil, act, if_true,
    if_neg module.ne.symm]

/-- What `addTime` runs is an update for every run of the fixed systems. -/
theorem foldl_act_runs {systemTree fixedSystemTree : SystemTree S} {F time : ℚ} {count : ℕ}
    {runs : List (TreeRun S)}
    (hnone : systemTree.runNode.filter (Ours module ·) = [])
    (hboth : fixedSystemTree.runNode.filter (Ours module ·) =
      [module.applyAccelerationSystem, module.applyVelocitySystem])
    (hruns : Clock.CallRuns systemTree fixedSystemTree F time (runs, count)) (b : Body) :
    (runs.flatMap fun run => run.systems.map (·, run.deltaTime)).foldl (act module) b =
      b.after F count := by
  have hfixed (n : ℕ) (b : Body) : ((List.replicate n
      (⟨.fixedSystemTree, F, fixedSystemTree.runNode⟩ : TreeRun S)).flatMap
        fun run => run.systems.map (·, run.deltaTime)).foldl (act module) b = b.after F n := by
    induction n with
    | zero => exact (Body.after_zero F b).symm
    | succ n ih =>
      rw [List.replicate_succ', List.flatMap_append, List.foldl_append, ih, List.flatMap_singleton,
        foldl_act_of_filter hboth, Body.move_accelerate_after]
  have hcalls : runs = _ := hruns
  rw [hcalls, List.flatMap_cons, List.foldl_append, foldl_act_filter, hnone]
  exact hfixed count b

end Systems

/-! ## Bodies in slots -/

/-- How the body is read and written of an archetype that has one: what is written is read. -/
structure Bodies (R V : Type) [ComponentPools R] [ComponentSlots R V] [ReadsBack R V] where
  body : V → Option Body
  put : V → Body → V
  body_put : ∀ (others : V) (b b' : Body), body others = some b →
    body (ReadsBack.stored R others (put others b')) = some b'

section Slots

variable {R S V : Type} [ComponentPools R] [slots : ComponentSlots R V] [ReadsBack R V]
  [DecidableEq S] (bodies : Bodies R V) (module : Spatial2D S)
  (statusOf : S → Option EntityStatus)

/-- The systems do to bodies what they are for, and no other system pushes them. -/
def Steered (operate : Nat → S → ℚ → Nat → Slot V → Slot V) : Prop :=
  ∀ n deltaTime visit (slot : Slot V) b, bodies.body slot.others = some b →
    operate n module.applyAccelerationSystem deltaTime visit slot =
      { slot with others := bodies.put slot.others (b.accelerate deltaTime) } ∧
    operate n module.applyVelocitySystem deltaTime visit slot =
      { slot with others := bodies.put slot.others (b.move deltaTime) } ∧
    ∀ s, ¬Ours module s → bodies.body
      (slot.given R (statusOf s) (operate n s deltaTime visit)).others = some b

variable {bodies module statusOf}

/-- Runs of systems on a slot do to its body what the runs of the two systems do. -/
theorem body_systemRuns {operate : Nat → S → ℚ → Nat → Slot V → Slot V}
    (h : Steered bodies module statusOf operate) {takes : S → Prop} [DecidablePred takes]
    (htakes : ∀ s, Ours module s → takes s ∧ statusOf s = none) {runs : List (S × ℚ)}
    {slot : Slot V} {b : Body} (hbody : bodies.body slot.others = some b) :
    bodies.body ((systemRuns statusOf takes operate runs).foldl (SystemRun.apply R) slot).others =
      some (runs.foldl (act module) b) := by
  induction runs generalizing operate slot b with
  | nil => exact hbody
  | cons run runs ih =>
    obtain ⟨s, deltaTime⟩ := run
    have hrest {slot : Slot V} {b : Body} (hbody : bodies.body slot.others = some b) :=
      ih (fun n => h (n + 1)) hbody
    obtain ⟨haccelerate, hmove, hothers⟩ := h 0 deltaTime 0 slot b hbody
    have hgiven : bodies.body (slot.given R (statusOf s) (operate 0 s deltaTime 0)).others =
        some (act module b (s, deltaTime)) := by
      by_cases hs : Ours module s
      · rw [(htakes s hs).2]
        rcases hs with rfl | rfl
        · rw [Slot.given_none, act, if_pos rfl, haccelerate]
          exact bodies.body_put _ b _ hbody
        · rw [Slot.given_none, act, if_neg module.ne.symm, if_pos rfl, hmove]
          exact bodies.body_put _ b _ hbody
      · rw [act_of_not_ours hs]
        exact hothers s hs
    rw [systemRuns, List.foldl_cons]
    by_cases htake : takes s
    · rw [if_pos htake, List.foldl_cons]
      exact hrest hgiven
    · rw [if_neg htake, act_of_not_ours fun hs => htake (htakes s hs).1]
      exact hrest hbody

/-! ## Worlds -/

variable (bodies module statusOf) in
/-- The two systems are those of the module, when time is added. -/
def Steers : Ecs.Act R S V → Prop
  | .addTime _ _ operate => Steered bodies module statusOf operate
  | _ => True

variable (module) in
/-- The two systems take the entity, the fixed tree runs one after the other with none of them
elsewhere, and the other tree runs neither. -/
def Loaded (entity : EntityRef) (w : World R S) : Ecs.Act R S V → Prop
  | .addTime _ _ _ => (w.Takes entity module.applyAccelerationSystem ∧
    w.Takes entity module.applyVelocitySystem) ∧
    w.registry.systemTree.runNode.filter (Ours module ·) = [] ∧
    w.registry.fixedSystemTree.runNode.filter (Ours module ·) =
      [module.applyAccelerationSystem, module.applyVelocitySystem]
  | _ => True

instance (entity : EntityRef) (w : World R S) :
    ∀ action : Ecs.Act R S V, Decidable (Loaded module entity w action)
  | .addTime _ _ _ => inferInstanceAs (Decidable (_ ∧ _))
  | .registerEntityPool _ _ _ _ | .register _ | .createEntity _ _ | .createEntities _ _ _
  | .destroyEntity _ | .destroyEntities _ _ | .destroyEntitiesRange _ | .deleteEverything =>
    inferInstanceAs (Decidable True)

/-- No time added is negative. -/
def Forward : Ecs.Act R S V → Prop
  | .addTime time _ _ => 0 ≤ time
  | _ => True

instance : ∀ action : Ecs.Act R S V, Decidable (Forward action)
  | .addTime _ _ _ => inferInstanceAs (Decidable (_ ≤ _))
  | .registerEntityPool _ _ _ _ | .register _ | .createEntity _ _ | .createEntities _ _ _
  | .destroyEntity _ | .destroyEntities _ _ | .destroyEntitiesRange _ | .deleteEverything =>
    inferInstanceAs (Decidable True)

variable {start : Systems S Nat} {w w' : World R S} {action : Ecs.Act R S V} {c : Created}
  {F : ℚ} {updates : ℕ}

omit slots [ComponentPools R] [ReadsBack R V] [DecidableEq S] in
/-- A call of `addTime` does not change the length of an update. -/
theorem fixedUpdateTime_addTime {clock clock' : Clock} {systemTree fixedSystemTree : SystemTree S}
    {fuel count : ℕ} {time : ℚ} {runs : List (TreeRun S)}
    (h : clock.addTime systemTree fixedSystemTree fuel time = some (clock', runs, count)) :
    clock'.fixedUpdateTime = clock.fixedUpdateTime := by
  by_cases hzero : clock.fixedUpdateTime = 0
  · rw [Clock.addTime, if_pos hzero] at h
    cases h
    rfl
  · rw [Clock.addTime_eq hzero] at h
    obtain ⟨drained, -, heq⟩ := Option.map_eq_some_iff.mp h
    cases heq
    rfl

omit [ReadsBack R V] [DecidableEq S] in
/-- The books of the clock go by the time that has passed. -/
theorem kept_addTime (h : w.clock.Kept F w.clock.timePassed updates) {time : ℚ} (htime : 0 ≤ time)
    {fuel : ℕ} {operate : Nat → S → ℚ → Nat → Slot V → Slot V} {visits : List (Visit V)}
    (hstep : w.addTime statusOf time fuel operate = some (w', visits)) : ∃ runs count,
      w.clock.addTime w.registry.systemTree w.registry.fixedSystemTree fuel time =
        some (w'.clock, runs, count) ∧
      Clock.CallRuns w.registry.systemTree w.registry.fixedSystemTree F time (runs, count) ∧
      w'.clock.Kept F w'.clock.timePassed (updates + count) := by
  obtain ⟨⟨clock, runs, count⟩, hclock, hstep⟩ := Option.bind_eq_some_iff.mp hstep
  obtain ⟨⟨manager, visits⟩, -, hstep⟩ := Option.bind_eq_some_iff.mp hstep
  cases hstep
  obtain ⟨hkept, hruns⟩ := h.addTime htime hclock
  have hF : w.clock.fixedUpdateTime ≠ 0 := by
    rw [h.fixedUpdateTime_eq]
    exact h.pos.ne'
  rw [Clock.addTime_eq hF] at hclock
  have hpassed : clock.timePassed = w.clock.timePassed + time := by
    obtain ⟨drained, -, heq⟩ := Option.map_eq_some_iff.mp hclock
    cases heq
    rfl
  refine ⟨runs, count, ?_, hruns, ?_⟩
  · rw [Clock.addTime_eq hF]
    exact hclock
  · rw [hpassed]
    exact hkept

omit [ReadsBack R V] in
/-- The clock has kept its account in every state, as long as time goes forward. -/
theorem kept_of_reach {G : World R S → Ecs.Act R S V → Prop} (hG : ∀ w action, G w action →
      Forward action) (h : (World.machine R S statusOf).ReachUnder G w) :
    0 < w.clock.fixedUpdateTime →
      ∃ updates, w.clock.Kept w.clock.fixedUpdateTime w.clock.timePassed updates := by
  refine h.invariant (I := fun w => 0 < w.clock.fixedUpdateTime →
    ∃ updates, w.clock.Kept w.clock.fixedUpdateTime w.clock.timePassed updates)
    (fun w hw hF => ?_) fun w action w' hw hact hstep hF => ?_
  · obtain ⟨systems, fixedUpdateTime, -, -, rfl⟩ := hw
    exact ⟨0, Clock.kept_new hF⟩
  · obtain ⟨time, fuel, operate, visits, rfl, htime⟩ | ⟨hclock, -, -⟩ := World.step_cases hstep
    · have hbefore : 0 < w.clock.fixedUpdateTime := by
        obtain ⟨⟨clock, runs, count⟩, hclock, htime⟩ := Option.bind_eq_some_iff.mp htime
        obtain ⟨⟨manager, visits⟩, -, htime⟩ := Option.bind_eq_some_iff.mp htime
        cases htime
        rw [← fixedUpdateTime_addTime hclock]
        exact hF
      obtain ⟨updates, hkept⟩ := hw hbefore
      obtain ⟨runs, count, -, -, hkept'⟩ := kept_addTime hkept (hG w _ hact) htime
      rw [← hkept'.fixedUpdateTime_eq] at hkept'
      exact ⟨_, hkept'⟩
    · rw [hclock] at hF ⊢
      exact hw hF

/-- One step: the entity goes on by the fixed updates that the step makes. -/
theorem body_step (h : StatusInv start w) (hfresh : start.Fresh)
    (hact : World.Orderly statusOf w action) (hforward : Forward action)
    (hsteers : Steers bodies module statusOf action)
    (hloaded : Loaded module c.entity w action)
    (hstatus : ∀ s, Ours module s → statusOf s = none)
    (hstep : World.step statusOf w action = some w') (hc : c ∈ w.created) (hc' : c ∈ w'.created)
    (hkept : w.clock.Kept F w.clock.timePassed updates) {slot : Slot V} {b : Body}
    (hslot : w.manager.slot c.entity = some slot) (hbody : bodies.body slot.others = some b) :
    ∃ slot' count, w'.manager.slot c.entity = some slot' ∧
      bodies.body slot'.others = some (b.after F count) ∧
      w'.clock.Kept F w'.clock.timePassed (updates + count) := by
  have hafter := h.slot_step hfresh hact hstep hc hc' hslot
  obtain ⟨time, fuel, operate, visits, rfl, htime⟩ | ⟨hclock, hnone, -⟩ := World.step_cases hstep
  · obtain ⟨runs, count, hruns, hcalls, hkept'⟩ := kept_addTime hkept hforward htime
    obtain ⟨⟨haccelerated, hmoved⟩, hneither, hboth⟩ := hloaded
    refine ⟨_, count, hafter, ?_, hkept'⟩
    have htakes : ∀ s, Ours module s → w.Takes c.entity s ∧ statusOf s = none := by
      rintro s (rfl | rfl)
      · exact ⟨haccelerated, hstatus _ (.inl rfl)⟩
      · exact ⟨hmoved, hstatus _ (.inr rfl)⟩
    rw [World.runsOn, hruns, body_systemRuns hsteers htakes hbody]
    exact congrArg some (foldl_act_runs hneither hboth hcalls b)
  · rw [hnone] at hafter
    refine ⟨slot, 0, hafter, ?_, ?_⟩
    · rw [Body.after_zero]
      exact hbody
    · rw [hclock]
      exact hkept

end Slots

/-! ### A ball -/

instance : Component Position := ⟨⟨0, 0⟩, ⟨0, 0⟩⟩

instance : Component Velocity := ⟨⟨0, 0⟩, ⟨0, 0⟩⟩

instance : Component Acceleration := ⟨⟨0, 0⟩, ⟨0, 0⟩⟩

/-- An archetype with the three components of motion. -/
abbrev Ball := Position × Velocity × Acceleration

/-- The pools of its components. -/
abbrev BallPools :=
  ComponentPool Position × ComponentPool Velocity × ComponentPool Acceleration

/-- A ball is its body. -/
def ballBodies : Bodies BallPools Ball where
  body ball := some ⟨ball.1, ball.2.1, ball.2.2⟩
  put _ b := (b.position, b.velocity, b.acceleration)
  body_put _ _ _ _ := rfl

/-- The systems of the module, besides one that throws live balls. -/
def ballModule : Spatial2D (Option Bool) := ⟨some true, some false, by decide⟩

/-- The queries of the two systems of the module, and of one that throws balls. -/
def ballSystems : Systems (Option Bool) Nat
  | none => .mono (.new ["EntityStatus", "Velocity"])
  | some true => .mono (.new ["Velocity", "Acceleration"])
  | some false => .mono (.new ["Position", "Velocity"])

/-- The status that a system asks for, if it asks. -/
def ballStatus : Option Bool → Option EntityStatus
  | none => some ENT_ALIVE
  | some _ => none

/-- Balls are thrown, or not. -/
def ballOperate (throws : Bool) : Nat → Option Bool → ℚ → Nat → Slot Ball → Slot Ball
  | _, none, _, _, ball =>
    if throws then { ball with others := (⟨0, 10⟩, ⟨1, 0⟩, ⟨0, -10⟩) } else ball
  | _, some true, deltaTime, _, ⟨(position, velocity, acceleration), chunkPos, entityStatus⟩ =>
    ⟨(position, ApplyAccelerationSystem.innerOperate deltaTime velocity acceleration, acceleration),
      chunkPos, entityStatus⟩
  | _, some false, deltaTime, _, ⟨(position, velocity, acceleration), chunkPos, entityStatus⟩ =>
    ⟨(ApplyVelocitySystem.innerOperate deltaTime position velocity, velocity, acceleration),
      chunkPos, entityStatus⟩

theorem steered_ballOperate : Steered ballBodies ballModule ballStatus (ballOperate false) := by
  intro n deltaTime visit ball b hbody
  cases hbody
  refine ⟨rfl, rfl, fun s hs => ?_⟩
  cases s with
  | some s => cases s <;> exact absurd (by decide) hs
  | none =>
    rw [Slot.given]
    split <;> rfl

theorem init_ballSystems :
    (World.machine BallPools (Option Bool) ballStatus).init (World.new ballSystems (1 / 2)) := by
  refine ⟨ballSystems, 1 / 2, fun s query hquery => ?_, fun s hs => ?_, rfl⟩
  · rcases s with - | - | - <;>
    · cases List.mem_singleton.mp hquery
      rfl
  · cases s with
    | none => exact ⟨["Velocity"], rfl⟩
    | some s => cases hs

/-- A ball is thrown before the first fixed update. -/
def thrownBall : List (Ecs.Act BallPools (Option Bool) Ball) :=
  [.register (.fixedSystemNode ballModule.spatial2DNode FIXED_ROOT_SYS_GROUP false true),
    .register (.system none ROOT_SYS_GROUP true),
    .registerEntityPool "Ball" 2 ([], [], [])
      ["EntityStatus", "ChunkPos", "Position", "Velocity", "Acceleration"],
    .createEntity "Ball" ENT_ALIVE, .addTime (1 / 4) 4 (ballOperate true)]

/-- A second and a half in three calls, while other balls come and go. -/
def flight : List (Ecs.Act BallPools (Option Bool) Ball) :=
  [.addTime (1 / 3) 4 (ballOperate false), .createEntities "Ball" 3 ENT_ALIVE,
    .addTime 1 4 (ballOperate false), .destroyEntity (0, 1),
    .addTime (1 / 6) 4 (ballOperate false)]

end ProjectE.Spatial2d
