import ProjectE.Lib.Transition
import Mathlib.Algebra.Order.Field.Rat
import Mathlib.Tactic.FieldSimp
import Mathlib.Tactic.Ring
import Mathlib.Tactic.NormNum

/-!
# Animated sprites

An animated sprite is a sheet of `nbFrames` frames side by side, and the place where the frame that
is shown starts. `IncrementTimerSystem` lets the timer of its entity run, `SpriteAnimationSystem`
takes an animation time off the timer and moves the sprite to its next frame, and
`DrawAnimatedSpriteSystem` draws the frame. Floats are exact rationals.

The wrap-around comes one frame late: a sprite goes back to 0 only when it starts at the right edge
of its texture, so it moves there from its last frame, and what is drawn is outside. A sprite so
cycles through `nbFrames + 1` places (`Placed`). `onSheet_of_reach` says where it stays on its
sheet: as long as it does not move on from its last frame.
-/

namespace ProjectE.Render

open Verif

/-- The members of a `Texture2D` that the systems read. -/
structure Texture2D where
  width : ℤ
  height : ℤ
deriving DecidableEq, Repr

/-- The textures by path, and the paths by id. `operator[]` answers a key that is not there with a
value of its own, so both answer every key. -/
structure AssetsLoader where
  assets : String → Texture2D
  assetsId : ℕ → String

/-- `get_asset_from_id`: two lookups, from the id to the path and from the path to the texture. -/
def AssetsLoader.getAssetFromId (assetsLoader : AssetsLoader) (id : ℕ) : Texture2D :=
  assetsLoader.assets (assetsLoader.assetsId id)

/-- `Position`. -/
structure Position where
  x : ℚ
  y : ℚ
deriving DecidableEq, Repr

/-- `Size`. -/
structure Size where
  x : ℚ
  y : ℚ
deriving DecidableEq, Repr

/-- `Rotation`. -/
structure Rotation where
  degres : ℚ
deriving DecidableEq, Repr

/-- `RLayer`: the layer an entity is drawn in. -/
structure RLayer where
  layer : ℕ
deriving DecidableEq, Repr

/-- `Timer`. -/
structure Timer where
  ellapsedSeconds : ℚ
deriving DecidableEq, Repr

/-- `AnimatedSprite`: a sheet of frames side by side, and where on it the frame begins that is
shown. -/
structure AnimatedSprite where
  textureId : ℕ
  nbFrames : ℕ
  startPosition : ℚ
  animationSpeed : ℚ
deriving DecidableEq, Repr

/-- `Rectangle`, as raylib has it. -/
structure Rectangle where
  x : ℚ
  y : ℚ
  width : ℚ
  height : ℚ
deriving DecidableEq, Repr

/-- A call of `DrawTexturePro`, after `BeginMode2D` or not: the part of the texture that is drawn,
and where it is drawn to. -/
structure DrawTexturePro where
  inCamera : Bool
  texture : Texture2D
  source : Rectangle
  dest : Rectangle
  origin : ℚ × ℚ
  rotation : ℚ
deriving DecidableEq, Repr

/-- `IncrementTimerSystem::_innerOperate`: the timer of an entity counts the time its tree is run
with. -/
def IncrementTimerSystem.innerOperate (deltaTime : ℚ) (timer : Timer) : Timer :=
  { timer with ellapsedSeconds := timer.ellapsedSeconds + deltaTime }

/-- `DrawAnimatedSpriteSystem`: it draws the animated sprites of one layer, in the camera's view if
it has a camera. -/
structure DrawAnimatedSpriteSystem where
  systemLayer : ℕ
  assetsLoader : AssetsLoader
  hasCamera : Bool

/-- `DrawAnimatedSpriteSystem::_innerOperate`: what it draws. -/
def DrawAnimatedSpriteSystem.innerOperate (system : DrawAnimatedSpriteSystem) (position : Position)
    (size : Size) (rotation : Rotation) (sprite : AnimatedSprite) (layer : RLayer) :
    Option DrawTexturePro :=
  if layer.layer ≠ system.systemLayer then none
  else if sprite.textureId = 0 then none
  else
    let texture := system.assetsLoader.getAssetFromId sprite.textureId
    some {
      inCamera := system.hasCamera
      texture := texture
      source := ⟨sprite.startPosition, 0, texture.width / sprite.nbFrames, texture.height⟩
      dest := ⟨position.x, position.y, size.x, size.y⟩
      origin := (size.x / 2, size.y / 2)
      rotation := rotation.degres }

/-- `SpriteAnimationSystem`: it moves the sprites of all layers on. -/
structure SpriteAnimationSystem where
  assetsLoader : AssetsLoader

/-- `SpriteAnimationSystem::_innerOperate`: a sprite whose time has come moves on by the width of a
frame, or goes back to the first one if it is at the end of the sheet or past it. The end is not
looked at after the move. -/
def SpriteAnimationSystem.innerOperate (system : SpriteAnimationSystem) (sprite : AnimatedSprite)
    (timer : Timer) : AnimatedSprite × Timer :=
  let textureWidth := (system.assetsLoader.getAssetFromId sprite.textureId).width
  if sprite.textureId = 0 ∨ timer.ellapsedSeconds < sprite.animationSpeed then (sprite, timer)
  else
    let timer := { timer with ellapsedSeconds := timer.ellapsedSeconds - sprite.animationSpeed }
    if sprite.startPosition < textureWidth then
      let startPosition := sprite.startPosition + textureWidth / sprite.nbFrames
      ({ sprite with startPosition := startPosition }, timer)
    else ({ sprite with startPosition := 0 }, timer)

/-! ## The runs of an entity -/

/-- An animated entity, and how often its sprite has moved on. The number is a record, which the
systems do not read. -/
structure Animation where
  sprite : AnimatedSprite
  timer : Timer
  advances : ℕ

/-- The two systems that act on an animated entity. -/
inductive Act where
  | incrementTimer (deltaTime : ℚ)
  | animate
deriving DecidableEq, Repr

/-- The sprite moves on: there is a texture, and an animation time is over. -/
def Animation.Advances (s : Animation) : Prop :=
  ¬(s.sprite.textureId = 0 ∨ s.timer.ellapsedSeconds < s.sprite.animationSpeed)

instance (s : Animation) : Decidable s.Advances := inferInstanceAs (Decidable ¬(_ ∨ _))

section Entity

variable (assetsLoader : AssetsLoader)

/-- The entity after one of them was run on it. -/
def Animation.act (s : Animation) : Act → Animation
  | .incrementTimer deltaTime =>
    { s with timer := IncrementTimerSystem.innerOperate deltaTime s.timer }
  | .animate =>
    let (sprite, timer) := SpriteAnimationSystem.innerOperate ⟨assetsLoader⟩ s.sprite s.timer
    ⟨sprite, timer, if s.Advances then s.advances + 1 else s.advances⟩

namespace AnimatedSprite

/-- The width of the sheet. -/
def textureWidth (sprite : AnimatedSprite) : ℤ :=
  (assetsLoader.getAssetFromId sprite.textureId).width

/-- Where frame `k` starts. -/
def frame (sprite : AnimatedSprite) (k : ℕ) : ℚ :=
  k * sprite.textureWidth assetsLoader / sprite.nbFrames

/-- The sheet has a width, and frames. -/
structure Sheet (sprite : AnimatedSprite) : Prop where
  width_pos : 0 < sprite.textureWidth assetsLoader
  one_le_nbFrames : 1 ≤ sprite.nbFrames

end AnimatedSprite

/-- The timer and the sprite of an entity that starts at 0, in any order of the systems and with any
times. -/
def animation : Machine Animation Act where
  init s := s.sprite.Sheet assetsLoader ∧ s.sprite.startPosition = 0 ∧ s.advances = 0
  step s a := some (s.act assetsLoader a)

end Entity

/-- The rectangle lies in the texture. -/
def Rectangle.Within (r : Rectangle) (texture : Texture2D) : Prop :=
  0 ≤ r.x ∧ r.x + r.width ≤ texture.width ∧ 0 ≤ r.y ∧ r.y + r.height ≤ texture.height

/-- The sprite starts at one of its frames, what is drawn of it lies in its texture, and it has gone
through its frames in turn. -/
structure OnSheet (assetsLoader : AssetsLoader) (s : Animation) : Prop where
  frame : ∃ k < s.sprite.nbFrames, s.sprite.startPosition = s.sprite.frame assetsLoader k
  drawn : ∀ (system : DrawAnimatedSpriteSystem) (position : Position) (size : Size)
    (rotation : Rotation) (layer : RLayer) (call : DrawTexturePro),
    system.assetsLoader = assetsLoader →
    system.innerOperate position size rotation s.sprite layer = some call →
    call.source.Within call.texture
  cycle : s.sprite.startPosition = s.sprite.frame assetsLoader (s.advances % s.sprite.nbFrames)

/-- The step does not move the sprite on from its last frame. -/
def BeforeLast (assetsLoader : AssetsLoader) (s : Animation) (a : Act) : Prop :=
  a = .animate → s.Advances →
    s.sprite.startPosition + s.sprite.textureWidth assetsLoader / s.sprite.nbFrames <
      s.sprite.textureWidth assetsLoader

/-! ## The frames -/

variable {assetsLoader : AssetsLoader} {sprite : AnimatedSprite} {s t : Animation} {j k m : ℕ}

namespace AnimatedSprite

theorem frame_zero : sprite.frame assetsLoader 0 = 0 := by
  rw [frame, Nat.cast_zero, zero_mul, zero_div]

/-- A frame ends where the next one starts. -/
theorem frame_add : sprite.frame assetsLoader k +
    sprite.textureWidth assetsLoader / sprite.nbFrames = sprite.frame assetsLoader (k + 1) := by
  unfold frame
  push_cast
  ring

namespace Sheet

theorem width_cast_pos (h : sprite.Sheet assetsLoader) :
    (0 : ℚ) < sprite.textureWidth assetsLoader :=
  Int.cast_pos.mpr h.width_pos

theorem nbFrames_cast_pos (h : sprite.Sheet assetsLoader) : (0 : ℚ) < sprite.nbFrames :=
  Nat.cast_pos.mpr h.one_le_nbFrames

/-- The sheet ends where a frame after the last one would start. -/
theorem frame_nbFrames (h : sprite.Sheet assetsLoader) :
    sprite.frame assetsLoader sprite.nbFrames = sprite.textureWidth assetsLoader :=
  mul_div_cancel_left₀ _ h.nbFrames_cast_pos.ne'

theorem frame_strictMono (h : sprite.Sheet assetsLoader) :
    StrictMono (sprite.frame assetsLoader) := by
  intro j k hjk
  have hcast : (j : ℚ) < k := Nat.cast_lt.mpr hjk
  exact div_lt_div_of_pos_right (mul_lt_mul_of_pos_right hcast h.width_cast_pos)
    h.nbFrames_cast_pos

theorem frame_inj (h : sprite.Sheet assetsLoader) :
    sprite.frame assetsLoader j = sprite.frame assetsLoader k ↔ j = k :=
  h.frame_strictMono.injective.eq_iff

theorem frame_lt_width (h : sprite.Sheet assetsLoader) :
    sprite.frame assetsLoader k < sprite.textureWidth assetsLoader ↔ k < sprite.nbFrames := by
  rw [← h.frame_nbFrames]
  exact h.frame_strictMono.lt_iff_lt

/-- A frame of the sheet lies in its texture. -/
theorem within (h : sprite.Sheet assetsLoader) (hk : k < sprite.nbFrames) :
    Rectangle.Within ⟨sprite.frame assetsLoader k, 0,
        sprite.textureWidth assetsLoader / sprite.nbFrames,
        (assetsLoader.getAssetFromId sprite.textureId).height⟩
      (assetsLoader.getAssetFromId sprite.textureId) := by
  refine ⟨?_, ?_, le_rfl, (zero_add _).le⟩
  · exact frame_zero.ge.trans (h.frame_strictMono.monotone (Nat.zero_le k))
  · have hnext : sprite.frame assetsLoader (k + 1) ≤ sprite.textureWidth assetsLoader := by
      rw [← h.frame_nbFrames]
      exact h.frame_strictMono.monotone hk
    exact frame_add.trans_le hnext

end Sheet

end AnimatedSprite

/-! ## The places of a sprite -/

theorem advances_animate (h : s.Advances) :
    (s.act assetsLoader .animate).advances = s.advances + 1 :=
  if_pos h

/-- What a step does to the sprite: nothing, or it moves it on. -/
theorem act_cases (assetsLoader : AssetsLoader) (s : Animation) (a : Act) :
    ((s.act assetsLoader a).sprite = s.sprite ∧ (s.act assetsLoader a).advances = s.advances ∧
      (a = .animate → ¬s.Advances)) ∨
    (a = .animate ∧ s.Advances ∧ (s.act assetsLoader a).advances = s.advances + 1 ∧
      (s.act assetsLoader a).sprite = { s.sprite with
        startPosition :=
          if s.sprite.startPosition < s.sprite.textureWidth assetsLoader then
            s.sprite.startPosition + s.sprite.textureWidth assetsLoader / s.sprite.nbFrames
          else 0 }) := by
  cases a with
  | incrementTimer deltaTime => exact .inl ⟨rfl, rfl, nofun⟩
  | animate =>
    by_cases hadvances : s.Advances
    · right
      refine ⟨rfl, hadvances, advances_animate hadvances, ?_⟩
      simp only [Animation.act, SpriteAnimationSystem.innerOperate, if_neg hadvances]
      by_cases hinside : s.sprite.startPosition < s.sprite.textureWidth assetsLoader
      · rw [if_pos hinside]
        exact congrArg Prod.fst (if_pos hinside)
      · rw [if_neg hinside]
        exact congrArg Prod.fst (if_neg hinside)
    · left
      refine ⟨?_, if_neg hadvances, fun _ => hadvances⟩
      simp only [Animation.act, SpriteAnimationSystem.innerOperate, if_pos (not_not.mp hadvances)]

/-- A counter that wraps. -/
theorem add_one_mod (h : 0 < m) (j : ℕ) :
    (j + 1) % m = if j % m + 1 = m then 0 else j % m + 1 := by
  have hlt : j % m < m := Nat.mod_lt j h
  rw [← Nat.mod_add_mod]
  by_cases hlast : j % m + 1 = m
  · rw [if_pos hlast, hlast, Nat.mod_self]
  · rw [if_neg hlast]
    exact Nat.mod_eq_of_lt (by omega)

/-- The sprite goes through its frames, and one place more. -/
structure Placed (assetsLoader : AssetsLoader) (s : Animation) : Prop
    extends s.sprite.Sheet assetsLoader where
  startPosition_eq :
    s.sprite.startPosition = s.sprite.frame assetsLoader (s.advances % (s.sprite.nbFrames + 1))

theorem Placed.act (h : Placed assetsLoader s) (a : Act) :
    Placed assetsLoader (s.act assetsLoader a) := by
  obtain ⟨hsprite, hadvances, -⟩ | ⟨-, -, hadvances, hsprite⟩ := act_cases assetsLoader s a
  · refine ⟨?_, ?_⟩
    · rw [hsprite]
      exact h.toSheet
    · rw [hsprite, hadvances]
      exact h.startPosition_eq
  · have hlt : s.advances % (s.sprite.nbFrames + 1) < s.sprite.nbFrames + 1 :=
      Nat.mod_lt _ (Nat.add_one_pos _)
    have hnext : (if s.sprite.startPosition < s.sprite.textureWidth assetsLoader then
          s.sprite.startPosition + s.sprite.textureWidth assetsLoader / s.sprite.nbFrames
        else 0) =
        s.sprite.frame assetsLoader ((s.advances + 1) % (s.sprite.nbFrames + 1)) := by
      rw [h.startPosition_eq, add_one_mod (Nat.add_one_pos _)]
      -- The place is one of the frames, or the edge after the last of them.
      by_cases hframe : s.advances % (s.sprite.nbFrames + 1) < s.sprite.nbFrames
      · rw [if_pos (h.toSheet.frame_lt_width.mpr hframe), if_neg (by omega)]
        exact AnimatedSprite.frame_add
      · rw [if_neg (mt h.toSheet.frame_lt_width.mp hframe), if_pos (by omega)]
        exact AnimatedSprite.frame_zero.symm
    refine ⟨?_, ?_⟩
    · rw [hsprite]
      exact ⟨h.width_pos, h.one_le_nbFrames⟩
    · rw [hsprite, hadvances]
      exact hnext

theorem placed_of_reach (h : (animation assetsLoader).Reach s) : Placed assetsLoader s := by
  refine Machine.Reach.invariant (fun s h => ?_) (fun s a t h hstep => ?_) h
  · obtain ⟨hsheet, hstart, hadvances⟩ := h
    refine ⟨hsheet, ?_⟩
    rw [hadvances, Nat.zero_mod, AnimatedSprite.frame_zero]
    exact hstart
  · cases hstep
    exact h.act a

/-- A sprite is on its sheet exactly where the two cycles agree: the one through its frames, and the
one that it goes through. -/
theorem Placed.onSheet_iff (h : Placed assetsLoader s) :
    OnSheet assetsLoader s ↔
      s.advances % (s.sprite.nbFrames + 1) = s.advances % s.sprite.nbFrames := by
  constructor
  · intro hon
    rw [← h.toSheet.frame_inj, ← h.startPosition_eq]
    exact hon.cycle
  · intro hmod
    have hlt : s.advances % s.sprite.nbFrames < s.sprite.nbFrames :=
      Nat.mod_lt _ h.one_le_nbFrames
    have hcycle : s.sprite.startPosition =
        s.sprite.frame assetsLoader (s.advances % s.sprite.nbFrames) := by
      rw [h.startPosition_eq, hmod]
    refine ⟨⟨_, hlt, hcycle⟩, ?_, hcycle⟩
    rintro ⟨systemLayer, loader, hasCamera⟩ position size rotation layer call rfl hcall
    unfold DrawAnimatedSpriteSystem.innerOperate at hcall
    split at hcall
    · cases hcall
    · split at hcall
      · cases hcall
      · cases hcall
        rw [hcycle]
        exact h.toSheet.within hlt

/-- A step from a sprite on its sheet leaves it there exactly if it does not move it on from its
last frame. -/
theorem Placed.onSheet_act_iff (h : Placed assetsLoader s) (hon : OnSheet assetsLoader s)
    (a : Act) :
    OnSheet assetsLoader (s.act assetsLoader a) ↔ BeforeLast assetsLoader s a := by
  have hmod : s.advances % (s.sprite.nbFrames + 1) = s.advances % s.sprite.nbFrames :=
    h.onSheet_iff.mp hon
  rw [(h.act a).onSheet_iff]
  obtain ⟨hsprite, hadvances, hstays⟩ | ⟨rfl, hmoves, hadvances, hsprite⟩ :=
    act_cases assetsLoader s a
  · rw [hsprite, hadvances]
    exact iff_of_true hmod fun ha hmoves => absurd hmoves (hstays ha)
  · rw [hsprite, hadvances]
    show (s.advances + 1) % (s.sprite.nbFrames + 1) = (s.advances + 1) % s.sprite.nbFrames ↔ _
    have hlt : s.advances % s.sprite.nbFrames < s.sprite.nbFrames := Nat.mod_lt _ h.one_le_nbFrames
    have hbefore : BeforeLast assetsLoader s .animate ↔
        s.advances % s.sprite.nbFrames + 1 < s.sprite.nbFrames := by
      rw [← h.toSheet.frame_lt_width, ← AnimatedSprite.frame_add, ← hon.cycle]
      exact ⟨fun hbefore => hbefore rfl hmoves, fun hbefore _ _ => hbefore⟩
    rw [hbefore, add_one_mod (Nat.add_one_pos _), add_one_mod h.one_le_nbFrames, hmod,
      if_neg (by omega)]
    by_cases hlast : s.advances % s.sprite.nbFrames + 1 = s.sprite.nbFrames
    · rw [if_pos hlast]
      exact iff_of_false (Nat.succ_ne_zero _) (by omega)
    · rw [if_neg hlast]
      exact iff_of_true rfl (by omega)

theorem onSheet_of_init (h : (animation assetsLoader).init s) : OnSheet assetsLoader s := by
  have hplaced : Placed assetsLoader s := placed_of_reach (.init h)
  obtain ⟨-, -, hadvances⟩ := h
  rw [hplaced.onSheet_iff, hadvances, Nat.zero_mod, Nat.zero_mod]

/-- **Sprite animation stays on the sheet** as long as no step moves the sprite on from its last
frame, and leaves it with the first step that does. -/
theorem onSheet_of_reach (h : (animation assetsLoader).ReachUnder (BeforeLast assetsLoader) s) :
    OnSheet assetsLoader s ∧ ∀ a t, (animation assetsLoader).step s a = some t →
      (OnSheet assetsLoader t ↔ BeforeLast assetsLoader s a) := by
  have hon : OnSheet assetsLoader s := by
    refine h.induction (fun _ => placed_of_reach) (fun _ => onSheet_of_init) ?_
    intro s a t hplaced _ hon hbefore hstep
    cases hstep
    exact (hplaced.onSheet_act_iff hon a).mpr hbefore
  refine ⟨hon, fun a t hstep => ?_⟩
  cases hstep
  exact (placed_of_reach h.any).onSheet_act_iff hon a

/-- One texture, for every id. -/
def oneTexture (width height : ℤ) : AssetsLoader where
  assets _ := ⟨width, height⟩
  assetsId _ := "walk.png"

/-- An entity that starts at 0, with three animation times on its timer. -/
def walker (nbFrames : ℕ) : Animation where
  sprite := ⟨1, nbFrames, 0, 1⟩
  timer := ⟨3⟩
  advances := 0

theorem walker_advances (n : ℕ) : (walker n).Advances := by
  unfold Animation.Advances walker
  norm_num

theorem walker_init {n : ℕ} {width height : ℤ} (hwidth : 0 < width) (hn : 1 ≤ n) :
    (animation (oneTexture width height)).init (walker n) :=
  ⟨⟨hwidth, hn⟩, rfl, rfl⟩

/-- The second of two frames is shown, and the next step does not leave the sheet only if it does
not move the sprite on. -/
theorem onSheet_of_reach_two : ∃ s : Animation, s.advances = 1 ∧ OnSheet (oneTexture 2 1) s ∧
    (OnSheet (oneTexture 2 1) (s.act (oneTexture 2 1) .animate) ↔
      BeforeLast (oneTexture 2 1) s .animate) := by
  have hbefore : BeforeLast (oneTexture 2 1) (walker 2) .animate := by
    intro _ _
    show (0 : ℚ) + (2 : ℤ) / (2 : ℕ) < (2 : ℤ)
    norm_num
  have hinit : (animation (oneTexture 2 1)).init (walker 2) := walker_init two_pos one_le_two
  obtain ⟨hon, hnext⟩ := onSheet_of_reach ((Machine.ReachUnder.init hinit).step hbefore rfl)
  exact ⟨_, advances_animate (walker_advances 2), hon, hnext .animate _ rfl⟩

/-- A sprite of one frame, moved on once. -/
theorem not_onSheet_of_reach :
    ¬ ∀ (assetsLoader : AssetsLoader) (s : Animation), (animation assetsLoader).Reach s →
      OnSheet assetsLoader s := by
  intro h
  have hinit : (animation (oneTexture 1 1)).init (walker 1) := walker_init one_pos le_rfl
  have hreach : (animation (oneTexture 1 1)).Reach ((walker 1).act (oneTexture 1 1) .animate) :=
    Machine.ReachUnder.step (.init hinit) trivial rfl
  have hmod := (placed_of_reach hreach).onSheet_iff.mp (h _ _ hreach)
  obtain ⟨-, -, hno⟩ | ⟨-, -, hadvances, hsprite⟩ :=
    act_cases (oneTexture 1 1) (walker 1) .animate
  · exact hno rfl (walker_advances 1)
  · rw [hadvances, hsprite] at hmod
    exact absurd hmod (by decide)

end ProjectE.Render
