import ProjectE.Ecs.Resting
import ProjectE.Render.Frame

/-!
# What a frame draws

The systems that draw go over every slot of the pools they have taken, and draw those of their own
layer. A frame so draws from back to front, everything that there is to see once, and nothing else
(`frame_painted`).

The systems of sprites have no status, and so are given the slots nobody owns too. These are not
seen because no texture has the id 0 that slots are made and reset with, and because a system that
writes to all slots leaves the id alone.
-/

namespace ProjectE

open Ecs Verif

namespace Render

/-! ## The systems -/

/-- `Sprite`. -/
structure Sprite where
  textureId : ℕ
deriving DecidableEq, Repr

/-- `Color`. -/
structure Color where
  r : UInt8
  g : UInt8
  b : UInt8
  a : UInt8
deriving DecidableEq, Repr

/-- A call of `DrawRectangle`, after `BeginMode2D` or not. The position and the size are cut to
whole numbers. -/
structure DrawRectangle where
  inCamera : Bool
  posX : ℤ
  posY : ℤ
  width : ℤ
  height : ℤ
  color : Color
deriving DecidableEq, Repr

/-- A call into raylib that paints. -/
inductive DrawCall where
  | rectangle (call : DrawRectangle)
  | texture (call : DrawTexturePro)
deriving DecidableEq, Repr

/-- `(int) x`. -/
def toInt (x : ℚ) : ℤ := x.num.tdiv x.den

/-- `DebugDrawSystem`: it draws a rectangle for every entity of one layer. -/
structure DebugDrawSystem where
  systemLayer : ℕ
  hasCamera : Bool

/-- `DebugDrawSystem::_statusOperate`: what it draws. -/
def DebugDrawSystem.statusOperate (system : DebugDrawSystem) (position : Position) (color : Color)
    (size : Size) (layer : RLayer) : Option DrawRectangle :=
  if layer.layer ≠ system.systemLayer then none
  else some
    ⟨system.hasCamera, toInt position.x, toInt position.y, toInt size.x, toInt size.y, color⟩

/-- `DrawSpriteSystem`: it draws the sprites of one layer that are not animated. -/
structure DrawSpriteSystem where
  systemLayer : ℕ
  assetsLoader : AssetsLoader
  hasCamera : Bool

/-- `DrawSpriteSystem::_innerOperate`: what it draws. -/
def DrawSpriteSystem.innerOperate (system : DrawSpriteSystem) (position : Position) (size : Size)
    (rotation : Rotation) (sprite : Sprite) (layer : RLayer) : Option DrawTexturePro :=
  if layer.layer ≠ system.systemLayer then none
  else if sprite.textureId = 0 then none
  else
    let texture := system.assetsLoader.getAssetFromId sprite.textureId
    some {
      inCamera := system.hasCamera
      texture := texture
      source := ⟨0, 0, texture.width, texture.height⟩
      dest := ⟨position.x, position.y, size.x, size.y⟩
      origin := (size.x / 2, size.y / 2)
      rotation := rotation.degres }

/-- The components of an archetype; those that it does not have are not asked for, since no query
that asks for them takes its pools. -/
structure View (V : Type) where
  position : V → Position
  size : V → Size
  rotation : V → Rotation
  color : V → Color
  sprite : V → Sprite
  animatedSprite : V → AnimatedSprite
  layer : V → RLayer

namespace RenderSystem

/-- The components of its query. -/
def componentNames : RenderSystem → List String
  | .spriteAnimation => ["AnimatedSprite", "Timer"]
  | .debugDraw _ => ["EntityStatus", "Position", "Color", "Size", "RLayer"]
  | .drawSprite _ => ["Position", "Size", "Rotation", "Sprite", "RLayer"]
  | .drawAnimatedSprite _ => ["Position", "Size", "Rotation", "AnimatedSprite", "RLayer"]

/-- That of an `AStatusMonoSystem`. -/
def status : RenderSystem → Option EntityStatus
  | .debugDraw _ => some ENT_ALIVE
  | _ => none

end RenderSystem

variable {R S V : Type} [ComponentPools R] [ComponentSlots R V] (module : Render) (view : View V)
  (sys : RenderSystem → S)

/-- What a system draws where these components are. -/
def draw (others : V) : RenderSystem → Option DrawCall
  | .spriteAnimation => none
  | .debugDraw i =>
    let system : DebugDrawSystem := ⟨i, module.useCamera⟩
    (system.statusOperate (view.position others) (view.color others) (view.size others)
      (view.layer others)).map .rectangle
  | .drawSprite i =>
    let system : DrawSpriteSystem := ⟨i, module.assetsLoader, module.useCamera⟩
    (system.innerOperate (view.position others) (view.size others) (view.rotation others)
      (view.sprite others) (view.layer others)).map .texture
  | .drawAnimatedSprite i =>
    let system : DrawAnimatedSpriteSystem := ⟨i, module.assetsLoader, module.useCamera⟩
    (system.innerOperate (view.position others) (view.size others) (view.rotation others)
      (view.animatedSprite others) (view.layer others)).map .texture

/-- What was drawn: by which system, and of which entity. The picture is the list of these, from
back to front. -/
structure Drawn where
  system : RenderSystem
  entity : EntityRef
  call : DrawCall
deriving DecidableEq, Repr

/-- `run()` of a system that draws: it writes nothing to what it is given. -/
def runDraw (systems : Systems S Nat) (m : EntityManager R) (s : RenderSystem) :
    Option (List Drawn) := do
  let (_, visits) ← m.runSystem (systems (sys s)) s.status fun _ slot => slot
  return visits.filterMap fun visit =>
    (module.draw view visit.before.others s).map fun call => ⟨s, visit.entity, call⟩

/-- The systems that draw, run one after the other. -/
def paint (systems : Systems S Nat) (m : EntityManager R) (run : List RenderSystem) :
    Option (List Drawn) := do
  let drawn ← run.mapM (module.runDraw view sys systems m)
  return drawn.flatten

/-! ## What is to be seen -/

/-- Sprites, animated sprites and rectangles. -/
inductive Kind where
  | sprite
  | animatedSprite
  | rectangle
deriving DecidableEq, Repr

/-- What a system draws, if it draws. -/
def RenderSystem.kind : RenderSystem → Option Kind
  | .spriteAnimation => none
  | .debugDraw _ => some .rectangle
  | .drawSprite _ => some .sprite
  | .drawAnimatedSprite _ => some .animatedSprite

/-- How far in front a system draws: layer upon layer, animated sprites upon sprites, and rectangles
upon all of them. -/
def depth : RenderSystem → ℕ
  | .spriteAnimation => 0
  | .drawSprite i => 2 * i
  | .drawAnimatedSprite i => 2 * i + 1
  | .debugDraw i => 2 * module.layers + i

/-- There is something to be seen in a slot, for this system. -/
def Visible (slot : Slot V) : RenderSystem → Prop
  | .spriteAnimation => False
  | .debugDraw i => slot.entityStatus = ENT_ALIVE ∧ (view.layer slot.others).layer = i
  | .drawSprite i =>
    (view.sprite slot.others).textureId ≠ 0 ∧ (view.layer slot.others).layer = i
  | .drawAnimatedSprite i =>
    (view.animatedSprite slot.others).textureId ≠ 0 ∧ (view.layer slot.others).layer = i

/-- No sprite of the slot has a texture. -/
def Untextured (slot : Slot V) : Prop :=
  (view.sprite slot.others).textureId = 0 ∧ (view.animatedSprite slot.others).textureId = 0

instance : DecidablePred (Untextured view) := fun _ => inferInstanceAs (Decidable (_ ∧ _))

/-- `load(entityManager)`: the module registers its whole tree at once, under the root, and every
system in it is offered the pools there are. -/
def load [DecidableEq S] (registry : AEntityManager S Nat) : Bool × AEntityManager S Nat :=
  registry.registerSystemNode (module.rootRenderNode sys true false).forget ROOT_SYS_GROUP false
    true

/-- The systems that draw have the queries they are made with. -/
def Named (systems : Systems S Nat) : Prop :=
  ∀ s ∈ module.drawSystems ++ module.debugDrawSystems, ∃ query : Query Nat,
    systems (sys s) = .mono query ∧ query.componentNames = s.componentNames

/-- They are registered. -/
structure Loaded (registry : AEntityManager S Nat) : Prop where
  registered : ∀ s ∈ module.drawSystems ++ module.debugDrawSystems, sys s ∈ registry.registered
  named : module.Named sys registry.systems

instance [DecidableEq S] (registry : AEntityManager S Nat) :
    Decidable (module.Loaded sys registry) :=
  decidable_of_iff
    ((∀ s ∈ module.drawSystems ++ module.debugDrawSystems, sys s ∈ registry.registered) ∧
      ∀ s ∈ module.drawSystems ++ module.debugDrawSystems,
        ∃ query ∈ match registry.systems (sys s) with
            | .mono query => some query
            | .dual _ _ => none,
          query.componentNames = s.componentNames)
    ⟨fun h => ⟨h.1, fun s hs => by
      obtain ⟨query, hquery, hnames⟩ := h.2 s hs
      split at hquery
      next heq =>
        cases hquery
        exact ⟨_, heq, hnames⟩
      next => cases hquery⟩,
    fun h => ⟨h.registered, fun s hs => by
      obtain ⟨query, hquery, hnames⟩ := h.named s hs
      rw [hquery]
      exact ⟨query, rfl, hnames⟩⟩⟩

/-- What systems that were run in the step so far have made of the world. They leave the status of
free slots alone, and give them no texture. -/
def Midway (statusOf : S → Option EntityStatus) (w : World R S) (m : EntityManager R) : Prop :=
  ∃ operate runs visits,
    EntityManager.runSystems w.registry.systems statusOf operate runs w.manager = some (m, visits) ∧
    ∀ visit ∈ visits, w.manager.Free visit.entity →
      visit.after.entityStatus = visit.before.entityStatus ∧
        (Untextured view visit.before → Untextured view visit.after)

/-- The frame is drawn from back to front, with everything that there is to see, once, and with
nothing else. -/
structure Painted (w : World R S) (m : EntityManager R) (run : List RenderSystem)
    (drawn : List Drawn) : Prop where
  backToFront : drawn.Pairwise fun a b => module.depth a.system ≤ module.depth b.system
  once : (drawn.map fun d => (d.system.kind, d.entity)).Nodup
  seen : ∀ s entity, (∃ call, ⟨s, entity, call⟩ ∈ drawn) ↔ s ∈ run ∧
    (∃ c ∈ w.created, c.entity = entity) ∧ w.Takes entity (sys s) ∧
    ∃ slot ∈ m.slot entity, Visible view slot s
  own : ∀ d ∈ drawn, ∃ slot ∈ m.slot d.entity, module.draw view slot.others d.system = some d.call

/-! ## The order -/

variable {module view sys}

theorem pairwise_drawSystems :
    module.drawSystems.Pairwise fun s t => module.depth s < module.depth t := by
  rw [drawSystems, List.pairwise_flatMap]
  constructor
  · intro i _
    exact List.pairwise_pair.mpr (Nat.lt_succ_self _)
  · refine List.pairwise_lt_range.imp fun {i j} hij s hs t ht => ?_
    simp only [List.mem_cons, List.not_mem_nil, or_false] at hs ht
    rcases hs with rfl | rfl <;> rcases ht with rfl | rfl <;> simp only [depth] <;> omega

theorem pairwise_debugDrawSystems :
    module.debugDrawSystems.Pairwise fun s t => module.depth s < module.depth t := by
  rw [debugDrawSystems, List.pairwise_map]
  exact List.pairwise_lt_range.imp fun {i j} hij => Nat.add_lt_add_left hij _

/-- The systems of a frame draw from back to front. -/
theorem pairwise_draws (before after : Bool) :
    (module.draws before after).Pairwise fun s t => module.depth s < module.depth t := by
  rw [draws, List.pairwise_append]
  refine ⟨?_, ?_, fun s hs t ht => ?_⟩
  · cases before with
    | false => exact pairwise_drawSystems
    | true => exact List.Pairwise.nil
  · cases after with
    | false => exact List.Pairwise.nil
    | true => exact pairwise_debugDrawSystems
  · -- every sprite is behind every rectangle
    have hsprite : s ∈ module.drawSystems := by
      cases before with
      | false => exact hs
      | true => cases hs
    have hrectangle : t ∈ module.debugDrawSystems := by
      cases after with
      | false => cases ht
      | true => exact ht
    obtain ⟨j, -, rfl⟩ := List.mem_map.mp hrectangle
    obtain ⟨i, hi, hs⟩ := List.mem_flatMap.mp hsprite
    have hlt := List.mem_range.mp hi
    simp only [List.mem_cons, List.not_mem_nil, or_false] at hs
    rcases hs with rfl | rfl <;> simp only [depth] <;> omega

theorem draws_subset (before after : Bool) :
    module.draws before after ⊆ module.drawSystems ++ module.debugDrawSystems := by
  rw [draws]
  refine List.append_subset_of_subset_of_subset ?_ ?_
  · cases before with
    | false => exact List.subset_append_left _ _
    | true => exact List.nil_subset _
  · cases after with
    | false => exact List.nil_subset _
    | true => exact List.subset_append_right _ _

/-! ## One system -/

/-- What is to be seen is what is drawn, of a slot that the system is given. -/
theorem visible_iff (slot : Slot V) (s : RenderSystem) : Visible view slot s ↔
    s.status.all (· = slot.entityStatus) = true ∧ (module.draw view slot.others s).isSome := by
  cases s with
  | spriteAnimation => simp [Visible, draw]
  | debugDraw i =>
    simp only [Visible, draw, RenderSystem.status, DebugDrawSystem.statusOperate, Option.all_some,
      decide_eq_true_eq, Option.isSome_map, eq_comm (a := ENT_ALIVE)]
    split <;> simp_all
  | drawSprite i =>
    simp only [Visible, draw, RenderSystem.status, DrawSpriteSystem.innerOperate, Option.all_none,
      Option.isSome_map]
    split
    · simp_all
    · split <;> simp_all
  | drawAnimatedSprite i =>
    simp only [Visible, draw, RenderSystem.status, DrawAnimatedSpriteSystem.innerOperate,
      Option.all_none, Option.isSome_map]
    split
    · simp_all
    · split <;> simp_all

/-- A slot is of one layer. -/
theorem Visible.unique {slot : Slot V} {s t : RenderSystem} (hs : Visible view slot s)
    (ht : Visible view slot t) (hkind : s.kind = t.kind) : s = t := by
  cases s <;> cases t <;> simp_all [Visible, RenderSystem.kind]

/-- There is nothing to be seen in a slot with neither status nor texture. -/
theorem not_visible {slot : Slot V} (hstatus : slot.entityStatus = ENT_NONE)
    (huntextured : Untextured view slot) (s : RenderSystem) : ¬Visible view slot s := by
  cases s with
  | spriteAnimation => exact id
  | debugDraw i =>
    rintro ⟨halive, -⟩
    rw [hstatus] at halive
    exact absurd halive (by decide)
  | drawSprite i => exact fun h => h.1 huntextured.1
  | drawAnimatedSprite i => exact fun h => h.1 huntextured.2

section World

variable {statusOf : S → Option EntityStatus} {start : Systems S Nat} {w : World R S}
  {m : EntityManager R}

/-- Pools are offered to a system, and its query stays that of the same components. -/
theorem named_run [DecidableEq S] {registry : AEntityManager S Nat}
    (h : module.Named sys registry.systems) (call : Call S Nat) :
    module.Named sys (call.run registry).2.systems := by
  intro s hs
  obtain ⟨query, hquery, hnames⟩ := h s hs
  rw [(call.effect_of_run registry).systems, Systems.offer_apply, hquery]
  exact ⟨_, rfl, hnames⟩

theorem Loaded.run [DecidableEq S] {registry : AEntityManager S Nat}
    (h : module.Loaded sys registry) (call : Call S Nat) :
    module.Loaded sys (call.run registry).2 := by
  have heffect := call.effect_of_run registry
  refine ⟨fun s hs => ?_, named_run h.named call⟩
  cases hanswer : (call.run registry).1 with
  | true =>
    exact (heffect.succeeded hanswer).mem_iff.mpr (List.mem_append_right _ (h.registered s hs))
  | false =>
    obtain ⟨-, htree, hfixed⟩ := heffect.failed hanswer
    rw [AEntityManager.registered, htree, hfixed]
    exact h.registered s hs

/-- A module that is loaded with success is. -/
theorem loaded_of_load [DecidableEq S] {registry : AEntityManager S Nat}
    (h : module.Named sys registry.systems) (hload : (module.load sys registry).1 = true) :
    module.Loaded sys (module.load sys registry).2 := by
  set call : Call S Nat :=
    .systemNode (module.rootRenderNode sys true false).forget ROOT_SYS_GROUP false true with hcall
  refine ⟨fun s hs => ?_, named_run h call⟩
  refine ((call.effect_of_run registry).succeeded hload).mem_iff.mpr (List.mem_append_left _ ?_)
  rw [hcall, Call.involved, systems_rootRenderNode]
  exact List.mem_map_of_mem (List.mem_cons_of_mem _ hs)

/-- Once it is loaded, the module stays so. -/
theorem Loaded.step [DecidableEq S] (h : module.Loaded sys w.registry) {w' : World R S}
    {act : Ecs.Act R S V} (hstep : World.step statusOf w act = some w') :
    module.Loaded sys w'.registry := by
  cases act with
  | registerEntityPool entityName chunkSize others componentNames =>
    simp only [World.step] at hstep
    split at hstep
    next nodup =>
      cases hstep
      exact h.run (.entityPool ⟨w.manager.entityPools.length, componentNames, nodup⟩)
    next => cases hstep
  | register call =>
    simp only [World.step] at hstep
    split at hstep
    next =>
      cases hstep
      exact h.run call
    next => cases hstep
  | createEntity | createEntities =>
    obtain ⟨⟨m, entity⟩, -, hstep⟩ := Option.bind_eq_some_iff.mp hstep
    obtain ⟨created, -, hstep⟩ := Option.bind_eq_some_iff.mp hstep
    cases hstep
    exact h
  | destroyEntity | destroyEntities | destroyEntitiesRange =>
    obtain ⟨m, -, hstep⟩ := Option.bind_eq_some_iff.mp hstep
    cases hstep
    exact h
  | deleteEverything =>
    cases hstep
    exact h
  | addTime time fuel operate =>
    obtain ⟨⟨w₁, visits⟩, htime, rfl⟩ := Option.map_eq_some_iff.mp hstep
    rw [(World.addTime_cases htime).2.1]
    exact h

/-- What is to be seen in a slot is of an entity that is there. -/
theorem exists_created (howned : Owned m w.created)
    (hidle : Rests (fun slot => slot.entityStatus = ENT_NONE) m)
    (huntextured : Rests (Untextured view) m) {entity : EntityRef} {slot : Slot V}
    (hslot : m.slot entity = some slot) {s : RenderSystem} (hvisible : Visible view slot s) :
    ∃ c ∈ w.created, c.entity = entity := by
  obtain ⟨pool, hpool, hread⟩ := Option.bind_eq_some_iff.mp hslot
  have hnot : entity.cPos ∉ pool.freePos := fun hmem => by
    have hfree : m.Free entity := (free_iff hpool).mpr hmem
    exact not_visible (hidle.free entity hfree slot hslot)
      (huntextured.free entity hfree slot hslot) s hvisible
  have hused := ((howned.pools _ pool hpool).places.mem_used_iff (Grid.nodup_cells _)).mpr
    ⟨ArchetypePool.mem_cells_of_slot hread, hnot⟩
  exact mem_positions.mp hused

/-- A system draws the entities that it takes and that are to be seen, each once. -/
theorem exists_runDraw (hinv : StatusInv start w) (hfresh : start.Fresh)
    (hloaded : module.Loaded sys w.registry) (hsame : w.manager.Same m)
    (hidle : Rests (fun slot => slot.entityStatus = ENT_NONE) m)
    (huntextured : Rests (Untextured view) m) {s : RenderSystem}
    (hs : s ∈ module.drawSystems ++ module.debugDrawSystems) :
    ∃ drawn, module.runDraw view sys w.registry.systems m s = some drawn ∧
      (drawn.map Drawn.entity).Nodup ∧
      (∀ d ∈ drawn, d.system = s ∧ ∃ slot ∈ m.slot d.entity, Visible view slot s ∧
        module.draw view slot.others s = some d.call) ∧
      ∀ entity, (∃ call, ⟨s, entity, call⟩ ∈ drawn) ↔ (∃ c ∈ w.created, c.entity = entity) ∧
        w.Takes entity (sys s) ∧ ∃ slot ∈ m.slot entity, Visible view slot s := by
  obtain ⟨query, hquery, hnames⟩ := hloaded.named s hs
  have hmono : (w.registry.systems (sys s)).Mono := by
    rw [hquery]
    show query.componentNames ≠ []
    rw [hnames]
    cases s <;> exact List.cons_ne_nil _ _
  obtain ⟨m', visits, hrun, hnodup, hbefore, hvisited⟩ := hinv.exists_visits hfresh
    (hloaded.registered s hs) hmono hsame s.status fun _ slot => slot
  have hdrawn : ∀ visit ∈ visits, ∀ call, module.draw view visit.before.others s = some call →
      w.Takes visit.entity (sys s) ∧ m.slot visit.entity = some visit.before ∧
        Visible view visit.before s := by
    intro visit hvisit call hcall
    obtain ⟨htakes, slot, hslot, hall⟩ := (hvisited _).mp (List.mem_map_of_mem hvisit)
    cases (hbefore visit hvisit).symm.trans hslot
    exact ⟨htakes, hslot, (visible_iff _ s).mpr ⟨hall, Option.isSome_of_eq_some hcall⟩⟩
  refine ⟨_, by rw [runDraw, hrun]; rfl, ?_, fun d hd => ?_, fun entity => ⟨?_, ?_⟩⟩
  · rw [List.Nodup, List.pairwise_map, List.pairwise_filterMap]
    refine (List.pairwise_map.mp hnodup).imp fun {visit visit'} hne d hd d' hd' => ?_
    obtain ⟨call, -, rfl⟩ := Option.map_eq_some_iff.mp hd
    obtain ⟨call', -, rfl⟩ := Option.map_eq_some_iff.mp hd'
    exact hne
  · obtain ⟨visit, hvisit, hd⟩ := List.mem_filterMap.mp hd
    obtain ⟨call, hcall, rfl⟩ := Option.map_eq_some_iff.mp hd
    obtain ⟨-, hslot, hvisible⟩ := hdrawn visit hvisit call hcall
    exact ⟨rfl, _, hslot, hvisible, hcall⟩
  · rintro ⟨call, hmem⟩
    obtain ⟨visit, hvisit, hd⟩ := List.mem_filterMap.mp hmem
    obtain ⟨call', hcall, heq⟩ := Option.map_eq_some_iff.mp hd
    cases heq
    obtain ⟨htakes, hslot, hvisible⟩ := hdrawn visit hvisit call hcall
    exact ⟨exists_created (hinv.owned.same hsame) hidle huntextured hslot hvisible, htakes, _,
      hslot, hvisible⟩
  · rintro ⟨-, htakes, slot, hslot, hvisible⟩
    obtain ⟨hall, hdraw⟩ := (visible_iff slot s).mp hvisible
    obtain ⟨visit, hvisit, rfl⟩ :=
      List.mem_map.mp ((hvisited entity).mpr ⟨htakes, slot, hslot, hall⟩)
    cases (hbefore visit hvisit).symm.trans hslot
    obtain ⟨call, hcall⟩ := Option.isSome_iff_exists.mp hdraw
    exact ⟨call, List.mem_filterMap.mpr ⟨visit, hvisit, by rw [hcall]; rfl⟩⟩

/-- The systems of a frame, one after the other. -/
theorem painted_of_pairwise (hinv : StatusInv start w) (hfresh : start.Fresh)
    (hloaded : module.Loaded sys w.registry) (hsame : w.manager.Same m)
    (hidle : Rests (fun slot => slot.entityStatus = ENT_NONE) m)
    (huntextured : Rests (Untextured view) m) {run : List RenderSystem}
    (hrun : run ⊆ module.drawSystems ++ module.debugDrawSystems)
    (hdepth : run.Pairwise fun s t => module.depth s < module.depth t) :
    ∃ drawn, module.paint view sys w.registry.systems m run = some drawn ∧
      module.Painted view sys w m run drawn := by
  have hone := fun (s : RenderSystem) (hs : s ∈ run) =>
    exists_runDraw hinv hfresh hloaded hsame hidle huntextured (hrun hs)
  choose! drawn hpaint hnodup hown hseen using hone
  refine ⟨run.flatMap drawn, ?_, ?_, ?_, fun s entity => ?_, fun d hd => ?_⟩
  · rw [paint, Grid.mapM_eq_some_map hpaint, List.flatMap_def]
    rfl
  · rw [List.pairwise_flatMap]
    refine ⟨fun s hs => ?_, hdepth.imp_of_mem fun {s t} hs ht hlt d hd d' hd' => ?_⟩
    · refine List.pairwise_iff_forall_sublist.mpr fun {d d'} hsub => ?_
      rw [(hown s hs d (hsub.subset List.mem_cons_self)).1,
        (hown s hs d' (hsub.subset (List.mem_cons_of_mem _ List.mem_cons_self))).1]
    · rw [(hown s hs d hd).1, (hown t ht d' hd').1]
      exact hlt.le
  · rw [List.Nodup, List.pairwise_map, List.pairwise_flatMap]
    refine ⟨fun s hs => ?_, hdepth.imp_of_mem fun {s t} hs ht hlt d hd d' hd' heq => ?_⟩
    · refine (List.pairwise_map.mp (hnodup s hs)).imp fun hne heq => hne (congrArg Prod.snd heq)
    · -- an entity is of one layer
      obtain ⟨rfl, slot, hslot, hvisible, -⟩ := hown s hs d hd
      obtain ⟨rfl, slot', hslot', hvisible', -⟩ := hown t ht d' hd'
      obtain ⟨hkind, hentity⟩ := Prod.mk.inj heq
      rw [hentity] at hslot
      cases hslot.symm.trans hslot'
      exact hlt.ne (congrArg module.depth (hvisible.unique hvisible' hkind))
  · constructor
    · rintro ⟨call, hmem⟩
      obtain ⟨t, ht, hmem⟩ := List.mem_flatMap.mp hmem
      cases (hown t ht _ hmem).1
      exact ⟨ht, (hseen s ht entity).mp ⟨call, hmem⟩⟩
    · rintro ⟨hs, hvisible⟩
      obtain ⟨call, hmem⟩ := (hseen s hs entity).mpr hvisible
      exact ⟨call, List.mem_flatMap.mpr ⟨s, hs, hmem⟩⟩
  · obtain ⟨s, hs, hmem⟩ := List.mem_flatMap.mp hd
    obtain ⟨rfl, slot, hslot, -, hcall⟩ := hown s hs d hmem
    exact ⟨slot, hslot, hcall⟩

end World

/-! ### Tiles -/

instance : Component Position := ⟨⟨0, 0⟩, ⟨0, 0⟩⟩

instance : Component Size := ⟨⟨0, 0⟩, ⟨0, 0⟩⟩

instance : Component Rotation := ⟨⟨0⟩, ⟨0⟩⟩

instance : Component Sprite := ⟨⟨0⟩, ⟨0⟩⟩

instance : Component RLayer := ⟨⟨0⟩, ⟨0⟩⟩

/-- An archetype with sprites that are not animated. -/
abbrev Tile := Position × Size × Rotation × Sprite × RLayer

/-- The pools of its components. -/
abbrev TilePools := ComponentPool Position × ComponentPool Size × ComponentPool Rotation ×
  ComponentPool Sprite × ComponentPool RLayer

/-- Its colour and its animated sprite are not there, and read as zeros. -/
def tileView : View Tile where
  position tile := tile.1
  size tile := tile.2.1
  rotation tile := tile.2.2.1
  color _ := ⟨0, 0, 0, 0⟩
  sprite tile := tile.2.2.2.1
  animatedSprite _ := ⟨0, 0, 0, 0⟩
  layer tile := tile.2.2.2.2

/-- Two layers. -/
def tileModule : Render := ⟨2, ⟨fun _ => ⟨16, 16⟩, fun _ => "tile.png"⟩, false⟩

/-- The systems of the module, and one that gives live tiles their texture and their layer. -/
def tileSystems : Systems (Option RenderSystem) Nat
  | none => .mono (.new ["EntityStatus", "Sprite", "RLayer"])
  | some s => .mono (.new s.componentNames)

/-- The statuses that the systems ask for. -/
def tileStatus : Option RenderSystem → Option EntityStatus
  | none => some ENT_ALIVE
  | some s => s.status

theorem init_tileSystems :
    (World.machine TilePools (Option RenderSystem) tileStatus).init (World.new tileSystems 0) := by
  refine ⟨tileSystems, 0, fun s query hquery => ?_, fun s hs => ?_, rfl⟩
  · cases s with
    | none =>
      cases List.mem_singleton.mp hquery
      rfl
    | some s =>
      cases List.mem_singleton.mp hquery
      rfl
  · cases s with
    | none => exact ⟨["Sprite", "RLayer"], rfl⟩
    | some s =>
      cases s with
      | debugDraw => exact ⟨["Position", "Color", "Size", "RLayer"], rfl⟩
      | _ => cases hs

/-- Three tiles, of which one is destroyed, on a layer each. -/
def threeTiles : List (Ecs.Act TilePools (Option RenderSystem) Tile) :=
  [.register (.systemNode (tileModule.rootRenderNode some true false).forget ROOT_SYS_GROUP false
      true),
    .register (.system none ROOT_SYS_GROUP true),
    .registerEntityPool "Tile" 2 ([], [], [], [], [])
      ["EntityStatus", "ChunkPos", "Position", "Size", "Rotation", "Sprite", "RLayer"],
    .createEntities "Tile" 3 ENT_ALIVE, .destroyEntity (0, 1),
    .addTime 1 1 fun _ s _ visit slot =>
      if s = none then
        let (position, size, rotation, _, _) := slot.others
        { slot with others := (position, size, rotation, ⟨1⟩, ⟨1 - visit⟩) }
      else slot]

end Render

end ProjectE
