import ProjectE.Ecs.StartCallback
import ProjectE.Render.Animation

/-!
# Frames

The tree of the render module: the system that animates, then the systems that draw, sprites and
animated sprites of each layer in turn, then those that draw rectangles for debugging. Each of the
two groups has a start callback that says whether it runs; F3 is asked in that of the second.

So a frame in which F3 is pressed is a mixture: the first group still goes by what held before, and
the second by what holds now. Both draw when debugging is turned on, and neither when it is turned
off (`debug_frames`).
-/

namespace ProjectE

namespace Render

/-- The groups of the three nodes. -/
def ROOT_RENDER_SYS_GROUP : String := "ROOT_RENDER"
def RENDER_SYS_GROUP : String := "RENDER"
def DEBUG_RENDER_SYS_GROUP : String := "DEBUG_RENDER"

/-- The systems of `Render<Layers>`, those of an array by their index. -/
inductive RenderSystem where
  | spriteAnimation
  | debugDraw (layer : ℕ)
  | drawSprite (layer : ℕ)
  | drawAnimatedSprite (layer : ℕ)
deriving DecidableEq, Repr

end Render

/-- `Render<Layers>(assetsLoader, useCamera)`: the module is a template in the number of its layers,
each with its own systems. -/
structure Render where
  layers : ℕ
  assetsLoader : Render.AssetsLoader
  useCamera : Bool

namespace Render

open Ecs

variable {S : Type} (module : Render) (sys : RenderSystem → S)

/-! ## The tree -/

/-- The start callback of `RENDER`. The state is `debugRender`. -/
def renderCallback (_ : Bool) (debugRender _ : Bool) : Bool × Bool := (debugRender, !debugRender)

/-- That of `DEBUG_RENDER`. The input is `IsKeyPressed(KEY_F3)`. -/
def debugRenderCallback (isKeyPressed debugRender _ : Bool) : Bool × Bool :=
  let debugRender := if isKeyPressed then !debugRender else debugRender
  (debugRender, debugRender)

/-- `renderNode`, with the systems that `initRenderModule` adds to it. -/
def renderNode : SystemTreeNode S :=
  (List.range module.layers).foldl (fun rnode i =>
    let (_, rnode) := rnode.addSystem (sys (.drawSprite i)) RENDER_SYS_GROUP false
    let (_, rnode) := rnode.addSystem (sys (.drawAnimatedSprite i)) RENDER_SYS_GROUP false
    rnode) (.new RENDER_SYS_GROUP)

/-- `debugRenderNode`, with the systems that `initRenderModule` adds to it. -/
def debugRenderNode : SystemTreeNode S :=
  (List.range module.layers).foldl (fun dnode i =>
    let (_, dnode) := dnode.addSystem (sys (.debugDraw i)) DEBUG_RENDER_SYS_GROUP false
    dnode) (.new DEBUG_RENDER_SYS_GROUP)

/-- A node without children is given a callback, and `shouldRun`. -/
def withCallback (callback : Bool → Bool → Bool → Bool × Bool) (shouldRun : Bool) :
    SystemTreeNode S → CallbackNode S Bool Bool
  | .node _ group startSystems _ endSystems =>
    .node (some callback) shouldRun group startSystems [] endSystems

/-- `rootRenderNode`; the two callbacks have last set `shouldRun` so. -/
def rootRenderNode (shouldRun debugShouldRun : Bool) : CallbackNode S Bool Bool :=
  .node none true ROOT_RENDER_SYS_GROUP [sys .spriteAnimation]
    [withCallback renderCallback shouldRun (module.renderNode sys),
      withCallback debugRenderCallback debugShouldRun (module.debugRenderNode sys)] []

/-! ## What a frame runs -/

/-- The systems that draw sprites. -/
def drawSystems : List RenderSystem :=
  (List.range module.layers).flatMap fun i => [.drawSprite i, .drawAnimatedSprite i]

/-- Those that draw rectangles. -/
def debugDrawSystems : List RenderSystem := (List.range module.layers).map .debugDraw

/-- What draws in a frame, with `debugRender` before and after it. -/
def draws (before after : Bool) : List RenderSystem :=
  (if before then [] else module.drawSystems) ++ if after then module.debugDrawSystems else []

/-- `debugRender` after F3 was pressed in some frames. -/
def toggled (pressed : List Bool) : Bool := pressed.count true % 2 = 1

variable {module sys}

theorem renderNode_eq : module.renderNode sys =
    .node true RENDER_SYS_GROUP [] [] (module.drawSystems.map sys) := by
  unfold renderNode drawSystems
  induction module.layers with
  | zero => rfl
  | succ n ih =>
    rw [List.range_succ, List.foldl_append, ih, List.flatMap_append, List.map_append]
    simp [SystemTreeNode.addSystem, SystemTreeNode.addFirst]

theorem debugRenderNode_eq : module.debugRenderNode sys =
    .node true DEBUG_RENDER_SYS_GROUP [] [] (module.debugDrawSystems.map sys) := by
  unfold debugRenderNode debugDrawSystems
  induction module.layers with
  | zero => rfl
  | succ n ih =>
    rw [List.range_succ, List.foldl_append, ih, List.map_append, List.map_append]
    simp [SystemTreeNode.addSystem, SystemTreeNode.addFirst]

/-- The tree points to every system of the module. -/
theorem systems_rootRenderNode (shouldRun debugShouldRun : Bool) :
    (module.rootRenderNode sys shouldRun debugShouldRun).forget.systems =
      (.spriteAnimation :: (module.drawSystems ++ module.debugDrawSystems)).map sys := by
  simp only [rootRenderNode, renderNode_eq, debugRenderNode_eq, withCallback, CallbackNode.forget,
    CallbackNode.forgetChildren, SystemTreeNode.systems, SystemTreeNode.childrenSystems,
    List.nil_append, List.append_nil, List.map_cons, List.map_append]
  rfl

/-- One frame. -/
theorem runNode_rootRenderNode (isKeyPressed debugRender shouldRun debugShouldRun : Bool) :
    (module.rootRenderNode sys shouldRun debugShouldRun).runNode isKeyPressed debugRender =
      ((.spriteAnimation :: module.draws debugRender (debugRender ^^ isKeyPressed)).map sys,
        module.rootRenderNode sys (!debugRender) (debugRender ^^ isKeyPressed),
        debugRender ^^ isKeyPressed) := by
  simp only [rootRenderNode, renderNode_eq, debugRenderNode_eq, withCallback, renderCallback,
    debugRenderCallback, CallbackNode.runNode, CallbackNode.runChildren, draws]
  cases debugRender <;> cases isKeyPressed <;> simp

theorem toggled_append (pressed : List Bool) (isKeyPressed : Bool) :
    toggled (pressed ++ [isKeyPressed]) = (toggled pressed ^^ isKeyPressed) := by
  unfold toggled
  rw [List.count_append]
  rcases Nat.mod_two_eq_zero_or_one (pressed.count true) with h | h <;>
    cases isKeyPressed <;> simp [Nat.add_mod, h]

/-- The frames from any one on. -/
theorem runAll_rootRenderNode (pressed before : List Bool) (shouldRun debugShouldRun : Bool) :
    (module.rootRenderNode sys shouldRun debugShouldRun).runAll pressed (toggled before) =
      (List.range pressed.length).map fun k =>
        (.spriteAnimation :: module.draws (toggled (before ++ pressed.take k))
          (toggled (before ++ pressed.take (k + 1)))).map sys := by
  induction pressed generalizing before shouldRun debugShouldRun with
  | nil => rfl
  | cons isKeyPressed pressed ih =>
    simp only [CallbackNode.runAll, runNode_rootRenderNode, ← toggled_append]
    rw [ih, List.length_cons, List.range_succ_eq_map]
    simp only [List.map_cons, List.map_map, Function.comp_def, List.take_zero, List.append_nil,
      List.take_succ_cons, Nat.succ_eq_add_one, List.append_assoc, List.singleton_append]

/-- **Debugging is by the number of times F3 was pressed**, wherever the module is loaded in a tree
whose other nodes have no start callback and run, and whatever else runs: in every frame the sprites
are drawn if it was off before the frame, and the rectangles if it is on after it, after the
animation and the sprites. -/
theorem debug_frames {t : CallbackNode S Bool Bool} {before after : List S}
    (h : CallbackNode.Hosts (module.rootRenderNode sys true false) t before after)
    (pressed : List Bool) :
    t.runAll pressed false = (List.range pressed.length).map fun k =>
      before ++ ((.spriteAnimation ::
        module.draws (toggled (pressed.take k)) (toggled (pressed.take (k + 1)))).map sys ++
          after) := by
  have hframes : (module.rootRenderNode sys true false).runAll pressed false = _ :=
    runAll_rootRenderNode pressed [] true false
  rw [h.runAll, hframes, List.map_map]
  rfl

/-- One layer. -/
def oneLayer : Render := ⟨1, ⟨fun _ => ⟨0, 0⟩, fun _ => ""⟩, true⟩

/-- It is loaded in a tree with systems before and after: debugging is turned on, and off. -/
theorem debug_frames_twice : ∃ t : CallbackNode (Option RenderSystem) Bool Bool,
    CallbackNode.Hosts (oneLayer.rootRenderNode some true false) t [none] [none, none] ∧
    t.runAll [true, false, true, false] false =
      [[none, some .spriteAnimation, some (.drawSprite 0), some (.drawAnimatedSprite 0),
          some (.debugDraw 0), none, none],
        [none, some .spriteAnimation, some (.debugDraw 0), none, none],
        [none, some .spriteAnimation, none, none],
        [none, some .spriteAnimation, some (.drawSprite 0), some (.drawAnimatedSprite 0), none,
          none]] := by
  have hhosts : CallbackNode.Hosts (oneLayer.rootRenderNode some true false)
      (.node none true "ROOT" [none] ([] ++ oneLayer.rootRenderNode some true false ::
        [.node none true "NETWORK" [] [] [none]]) [none]) [none] [none, none] := by
    refine .child "ROOT" [none] [none] ?_ .here ?_
    · exact trivial
    · exact ⟨⟨rfl, trivial⟩, trivial⟩
  exact ⟨_, hhosts, (debug_frames hhosts [true, false, true, false]).trans (by decide)⟩

end Render

end ProjectE
