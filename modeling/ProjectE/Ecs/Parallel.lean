import ProjectE.Lib.Parallel
import ProjectE.Ecs.Coverage
import ProjectE.Ecs.Resting

/-!
# Systems that run in parallel

A system made with `isParallel` goes over each pool in a thread of its own. What a thread does at an
element is a list of accesses: one looks at the components, or writes them, by what the thread has
in hand. The accesses of all threads come in any order that keeps the one of each thread.

As a system is given each pool once, no thread touches what another does. So however the threads are
mixed, the pools come out as if one had been gone over after the other (`systemAtOnce_iff`), and
`addTime` with parallel systems does what it does with the same systems one pool at a time
(`runAtOnce_iff`). What `_innerOperate` does is what its accesses do when nobody else is there
(`Implements`).
-/

namespace ProjectE.Ecs

open Verif

variable {R S V L : Type} [ComponentPools R] [slots : ComponentSlots R V]

/-! ## Accesses -/

/-- One access to the components of an element: by what the thread has in hand and what is there,
what it has in hand then, and what it writes, if it does. -/
abbrev Access (L V : Type) := L → Slot V → L × Option (Slot V)

/-- One turn of a thread: an access to the components of an element. -/
structure Turn (L V : Type) where
  entity : EntityRef
  access : Access L V

/-- A manager while threads run, and what the thread of each pool has in hand. -/
structure AtOnce (R L : Type) where
  manager : EntityManager R
  hand : Nat → L

namespace EntityManager

variable {m m' : EntityManager R} {entity other : EntityRef}

/-- What an access writes. -/
def write (m : EntityManager R) (entity : EntityRef) : Option (Slot V) → Option (EntityManager R)
  | none => some m
  | some after => m.operate entity fun _ => after

theorem slot_write_ne {written : Option (Slot V)} (hne : other ≠ entity)
    (h : m.write entity written = some m') : m'.slot other = m.slot other := by
  cases written with
  | none =>
    cases h
    rfl
  | some after => exact (same_of_operate h).2 other hne

/-- To change what is there is to write what it becomes. -/
theorem operate_const {slot : Slot V} (h : m.slot entity = some slot) (f : Slot V → Slot V) :
    (m.operate entity fun _ => f slot) = m.operate entity f := by
  obtain ⟨pool, hpool, h⟩ := Option.bind_eq_some_iff.mp h
  simp only [operate, hpool, ArchetypePool.operate, h, Option.bind_eq_bind, Option.bind_some]

/-- The pool of an element after it was changed. -/
def operated (m : EntityManager R) (entity : EntityRef) (f : Slot V → Slot V) :
    Option (ArchetypePool R) :=
  m.entityPools[entity.pool]?.bind fun pool => pool.operate entity.cPos f

theorem operate_eq (m : EntityManager R) (entity : EntityRef) (f : Slot V → Slot V) :
    m.operate entity f = (m.operated entity f).map fun pool =>
      { m with entityPools := m.entityPools.set entity.pool pool } := by
  rw [operated, Option.map_bind]
  refine Option.bind_congr fun pool _ => ?_
  rw [Function.comp_apply, Option.map_eq_bind]
  rfl

/-- A pool is changed the same if another was changed before. -/
theorem operated_set (hne : entity.pool ≠ other.pool) (pool : ArchetypePool R)
    (f : Slot V → Slot V) :
    operated { m with entityPools := m.entityPools.set other.pool pool } entity f =
      m.operated entity f := by
  rw [operated, List.getElem?_set_ne hne.symm]
  rfl

theorem operate_comm (hne : entity.pool ≠ other.pool) (f g : Slot V → Slot V) :
    ((m.operate entity f).bind fun m => m.operate other g) =
      (m.operate other g).bind fun m => m.operate entity f := by
  simp only [operate_eq, Option.bind_map, Function.comp_def, operated_set hne,
    operated_set hne.symm]
  cases m.operated entity f with
  | none =>
    cases m.operated other g with
    | none => rfl
    | some pool' => rfl
  | some pool =>
    cases m.operated other g with
    | none => rfl
    | some pool' =>
      simp only [Option.bind_some, Option.map_some, List.set_comm _ _ hne]

theorem write_comm (hne : entity.pool ≠ other.pool) (written written' : Option (Slot V)) :
    ((m.write entity written).bind fun m => m.write other written') =
      (m.write other written').bind fun m => m.write entity written := by
  cases written with
  | none => exact (Option.bind_fun_some _).symm
  | some after =>
    cases written' with
    | none => exact Option.bind_fun_some _
    | some after' => exact operate_comm hne _ _

end EntityManager

namespace AtOnce

/-- A thread makes its next access. -/
def turn (t : AtOnce R L) (turn : Turn L V) : Option (AtOnce R L) := do
  let slot ← t.manager.slot turn.entity
  let (inHand, written) := turn.access (t.hand turn.entity.pool) slot
  let manager ← t.manager.write turn.entity written
  return ⟨manager, Function.update t.hand turn.entity.pool inHand⟩

variable {t : AtOnce R L} {a b : Turn L V} {slot : Slot V}

theorem turn_of_slot (h : t.manager.slot a.entity = some slot) :
    t.turn a = (t.manager.write a.entity (a.access (t.hand a.entity.pool) slot).2).map fun m =>
      ⟨m, Function.update t.hand a.entity.pool (a.access (t.hand a.entity.pool) slot).1⟩ := by
  rw [turn, h, Option.map_eq_bind]
  rfl

theorem turn_of_none (h : t.manager.slot a.entity = none) : t.turn a = none := by
  rw [turn, h]
  rfl

/-- An access to another pool does not see it. -/
theorem slot_turn {t' : AtOnce R L} (hne : a.entity.pool ≠ b.entity.pool)
    (h : t.turn b = some t') : t'.manager.slot a.entity = t.manager.slot a.entity ∧
      t'.hand a.entity.pool = t.hand a.entity.pool := by
  obtain ⟨slot, -, h⟩ := Option.bind_eq_some_iff.mp h
  obtain ⟨m, hwrite, h⟩ := Option.bind_eq_some_iff.mp h
  cases h
  exact ⟨EntityManager.slot_write_ne (fun heq => hne (congrArg EntityRef.pool heq)) hwrite,
    Function.update_of_ne hne _ _⟩

/-- Two accesses to different pools, one after the other. -/
theorem turn_turn {slot' : Slot V} (hne : a.entity.pool ≠ b.entity.pool)
    (hslot : t.manager.slot a.entity = some slot)
    (hslot' : t.manager.slot b.entity = some slot') : ((t.turn a).bind fun t => t.turn b) =
      ((t.manager.write a.entity (a.access (t.hand a.entity.pool) slot).2).bind fun m =>
        m.write b.entity (b.access (t.hand b.entity.pool) slot').2).map fun m =>
          ⟨m, Function.update
            (Function.update t.hand a.entity.pool (a.access (t.hand a.entity.pool) slot).1)
            b.entity.pool (b.access (t.hand b.entity.pool) slot').1⟩ := by
  rw [turn_of_slot hslot, Option.bind_map, Option.map_bind]
  refine Option.bind_congr fun m hm => ?_
  have hslot₁ : m.slot b.entity = some slot' := by
    rw [EntityManager.slot_write_ne (fun heq => hne (congrArg EntityRef.pool heq).symm) hm]
    exact hslot'
  rw [Function.comp_apply, Function.comp_apply, turn_of_slot hslot₁]
  simp only [Function.update_of_ne hne.symm]

/-- Accesses to different pools can be made in either order. -/
theorem commutes_turn (hne : a.entity.pool ≠ b.entity.pool) :
    Commutes (turn : AtOnce R L → Turn L V → Option (AtOnce R L)) a b := by
  intro t
  cases hslot : t.manager.slot a.entity with
  | none =>
    rw [turn_of_none hslot, Option.bind_none]
    refine (Option.bind_eq_none_iff.mpr fun t' ht' => turn_of_none ?_).symm
    exact (slot_turn hne ht').1.trans hslot
  | some slot =>
    cases hslot' : t.manager.slot b.entity with
    | none =>
      rw [turn_of_none hslot', Option.bind_none]
      refine Option.bind_eq_none_iff.mpr fun t' ht' => turn_of_none ?_
      exact (slot_turn hne.symm ht').1.trans hslot'
    | some slot' =>
      rw [turn_turn hne hslot hslot', turn_turn hne.symm hslot' hslot,
        EntityManager.write_comm hne, Function.update_comm hne]

end AtOnce

/-! ## Systems -/

/-- A visit of an element. -/
def turns (body : List (Access L V)) (entity : EntityRef) : List (Turn L V) :=
  body.map (⟨entity, ·⟩)

/-- Threads, or one pool after the other: it is the same where threads do not disturb each other. -/
theorem Runs.foldlM_eq {σ E : Type} {act : σ → E → Option σ} {isParallel : Bool}
    {work : List (List E)} {trace : List E} (h : Runs isParallel work trace)
    (hcomm : work.Pairwise fun l l' => ∀ a ∈ l, ∀ b ∈ l', Commutes act a b) (s : σ) :
    trace.foldlM act s = work.flatten.foldlM act s := by
  unfold Runs at h
  split at h
  · exact h.foldlM_eq hcomm s
  · rw [h]

/-- What the thread of each pool does. -/
def work (body : List (Access L V)) (pools : List (List (List EntityRef))) :
    List (List (Turn L V)) :=
  pools.map fun chunks => chunks.flatten.flatMap (turns body)

/-- Where nobody else is, a visit does what `_innerOperate` does. -/
def Implements (R : Type) [ComponentPools R] [ComponentSlots R V] (body : List (Access L V))
    (status : Option EntityStatus) (f : Slot V → Slot V) : Prop :=
  ∀ (t : AtOnce R L) (entity : EntityRef), t.manager.Readable entity →
    ((turns body entity).foldlM AtOnce.turn t).map AtOnce.manager =
      (EntityManager.innerOperate status f t.manager entity).map Prod.fst

namespace EntityManager

/-- `run()` of a system of one query, in threads if it `isParallel`. -/
def SystemAtOnce (system : ISystem Nat) (isParallel : Bool) (body : List (Access L V))
    (m m' : EntityManager R) : Prop :=
  ∃ query pools trace, ∃ t t' : AtOnce R L, system = .mono query ∧
    query.elements m.entityPools = some pools ∧ Runs isParallel (work body pools) trace ∧
    t.manager = m ∧ trace.foldlM AtOnce.turn t = some t' ∧ t'.manager = m'

/-- Systems run one after the other, each with the time its tree gives it. -/
def SystemsAtOnce (systems : Systems S Nat) (isParallel : S → Bool) :
    (Nat → S → ℚ → List (Access L V)) → List (S × ℚ) → EntityManager R → EntityManager R → Prop
  | _, [], m, m' => m' = m
  | body, (s, deltaTime) :: runs, m, m' => ∃ m₁ : EntityManager R,
    SystemAtOnce (systems s) (isParallel s) (body 0 s deltaTime) m m₁ ∧
      SystemsAtOnce systems isParallel (fun n => body (n + 1)) runs m₁ m'

variable {m m' : EntityManager R} {status : Option EntityStatus} {body : List (Access L V)}
  {f : Slot V → Slot V} {entities : List EntityRef} {pools : List (IArchetypePool Nat)}

/-- One element after the other is visited as the system visits them. -/
theorem foldlM_turns (h : Implements R body status f) (t : AtOnce R L)
    (hread : ∀ entity ∈ entities, t.manager.Readable entity) :
    ((entities.flatMap (turns body)).foldlM AtOnce.turn t).map AtOnce.manager =
      (operateEach status (fun _ => f) entities t.manager).map Prod.fst := by
  induction entities generalizing t with
  | nil => rfl
  | cons entity entities ih =>
    obtain ⟨hentity, hread⟩ := List.forall_mem_cons.mp hread
    obtain ⟨⟨m₁, visit⟩, hone⟩ :=
      Option.isSome_iff_exists.mp (hentity.isSome_innerOperate status f)
    have hvisit := h t entity hentity
    rw [hone] at hvisit
    obtain ⟨t₁, hturns, rfl⟩ := Option.map_eq_some_iff.mp hvisit
    have hsame : t.manager.Same t₁.manager := by
      obtain ⟨before, -, ⟨-, heq, -⟩ | ⟨-, hsame, -⟩⟩ := innerOperate_cases hone
      · rw [heq]
        exact Same.refl _
      · exact hsame
    rw [List.flatMap_cons, List.foldlM_append, hturns, operateEach, hone]
    refine (ih t₁ fun other hother => hsame.readable (hread other hother)).trans ?_
    simp only [Option.bind_eq_bind, Option.bind_some, Option.map_bind]
    rw [Option.map_eq_bind]
    rfl

omit [ComponentPools R] slots in
theorem flatten_work (body : List (Access L V)) (pools : List (List (List EntityRef))) :
    (work body pools).flatten = pools.flatten.flatten.flatMap (turns body) := by
  induction pools with
  | nil => rfl
  | cons chunks pools ih =>
    rw [work, List.map_cons, List.flatten_cons, ← work, ih, List.flatten_cons,
      List.flatten_append, List.flatMap_append]

/-- The threads of different pools do not disturb each other. -/
theorem pairwise_work (body : List (Access L V)) {taken : List (IArchetypePool Nat)}
    (hnodup : (taken.map (·.ptr)).Nodup) (shape : Nat → List Nat) :
    (work body (taken.map fun entityPool => (chunks (shape entityPool.ptr)).map fun chunk =>
      chunk.map fun cPos => ⟨entityPool.ptr, cPos⟩)).Pairwise fun l l' =>
        ∀ a ∈ l, ∀ b ∈ l', Commutes (AtOnce.turn : AtOnce R L → Turn L V → _) a b := by
  have hpool {entityPool : IArchetypePool Nat} {a : Turn L V}
      (ha : a ∈ (((chunks (shape entityPool.ptr)).map fun chunk =>
        chunk.map fun cPos => (⟨entityPool.ptr, cPos⟩ : EntityRef)).flatten.flatMap
          (turns body))) : a.entity.pool = entityPool.ptr := by
    obtain ⟨entity, hentity, ha⟩ := List.mem_flatMap.mp ha
    obtain ⟨access, -, rfl⟩ := List.mem_map.mp ha
    obtain ⟨chunk, hchunk, hentity⟩ := List.mem_flatten.mp hentity
    obtain ⟨positions, -, rfl⟩ := List.mem_map.mp hchunk
    obtain ⟨cPos, -, rfl⟩ := List.mem_map.mp hentity
    rfl
  rw [work, List.map_map, List.pairwise_map]
  refine (List.pairwise_map.mp hnodup).imp fun {entityPool entityPool'} hne a ha b hb => ?_
  apply AtOnce.commutes_turn
  rw [hpool ha, hpool hb]
  exact hne

/-- A system that is given each pool once leaves the pools the same however its threads are
mixed, and as it does alone. -/
theorem systemAtOnce_iff {name : String} {names : List String} (h : Implements R body status f)
    (hm : m.Shaped) (hptrs : ∀ entityPool ∈ pools, entityPool.ptr < m.entityPools.length)
    (hnodup : (pools.map (·.ptr)).Nodup) (isParallel : Bool) [Nonempty L] :
    SystemAtOnce (.mono ((Query.new (name :: names)).withPools pools)) isParallel body m m' ↔
      (m.runSystem (.mono ((Query.new (name :: names)).withPools pools)) status fun _ => f).map
        Prod.fst = some m' := by
  set taken := pools.filter ((Query.new (name :: names) : Query Nat).Matches ·) with htaken
  generalize hwork : (taken.map fun entityPool =>
    (chunks (shapeAt m.entityPools entityPool.ptr)).map fun chunk =>
      chunk.map fun cPos => (⟨entityPool.ptr, cPos⟩ : EntityRef)) = elements
  have helements : ((Query.new (name :: names)).withPools pools).elements m.entityPools =
      some elements := by
    rw [elements_withPools hptrs, ← htaken, hwork]
  have hflat : elements.flatten.flatten = elementsOf m.entityPools taken := by
    have hmono : (ISystem.mono ((Query.new (name :: names)).withPools pools)).elements
        m.entityPools = some (elementsOf m.entityPools taken) := elements_mono hptrs
    rw [ISystem.elements, helements] at hmono
    exact Option.some.inj hmono
  have hrun : m.runSystem (.mono ((Query.new (name :: names)).withPools pools)) status
      (fun _ => f) = operateEach status (fun _ => f) (elementsOf m.entityPools taken) m := by
    rw [runSystem, elements_mono hptrs]
    rfl
  have hdistinct : (taken.map (·.ptr)).Nodup := hnodup.sublist (List.filter_sublist.map _)
  have hcomm := pairwise_work (R := R) body hdistinct (shapeAt m.entityPools)
  rw [hwork] at hcomm
  have hthreads (t : AtOnce R L) (ht : t.manager = m) :
      ((work body elements).flatten.foldlM AtOnce.turn t).map AtOnce.manager =
        (operateEach status (fun _ => f) (elementsOf m.entityPools taken) m).map Prod.fst := by
    subst ht
    rw [flatten_work, hflat]
    exact foldlM_turns h t (readable_of_mem_elementsOf hm
      fun entityPool hmem => hptrs entityPool (List.mem_of_mem_filter hmem))
  rw [hrun]
  constructor
  · rintro ⟨query, elements', trace, t, t', hquery, helements', hruns, ht, hfold, rfl⟩
    cases hquery
    cases helements.symm.trans helements'
    rw [hruns.foldlM_eq hcomm] at hfold
    rw [← hthreads t ht, hfold]
    rfl
  · intro halone
    obtain ⟨inHand⟩ := ‹Nonempty L›
    rw [← hthreads ⟨m, fun _ => inHand⟩ rfl] at halone
    obtain ⟨t', hfold, hmanager⟩ := Option.map_eq_some_iff.mp halone
    exact ⟨_, elements, _, _, t', rfl, helements, runs_flatten isParallel _, rfl, hfold, hmanager⟩

/-- So do systems that are given the same pools, run one after the other. -/
theorem systemsAtOnce_iff [Nonempty L] {systems : Systems S Nat} {isParallel : S → Bool}
    {statusOf : S → Option EntityStatus} {body : Nat → S → ℚ → List (Access L V)}
    {operate : Nat → S → ℚ → Slot V → Slot V} {runs : List (S × ℚ)}
    (himplements : ∀ n s deltaTime,
      Implements R (body n s deltaTime) (statusOf s) (operate n s deltaTime))
    (hsystems : ∀ run ∈ runs, ∃ name names,
      systems run.1 = .mono ((Query.new (name :: names)).withPools pools))
    (hm : m.Shaped) (hptrs : ∀ entityPool ∈ pools, entityPool.ptr < m.entityPools.length)
    (hnodup : (pools.map (·.ptr)).Nodup) :
    SystemsAtOnce systems isParallel body runs m m' ↔
      (runSystems systems statusOf (fun n s deltaTime _ => operate n s deltaTime) runs m).map
        Prod.fst = some m' := by
  induction runs generalizing body operate m with
  | nil =>
    rw [SystemsAtOnce, runSystems, Option.map_some, Option.some.injEq]
    exact eq_comm
  | cons run runs ih =>
    obtain ⟨s, deltaTime⟩ := run
    obtain ⟨⟨name, names, hsystem⟩, hsystems⟩ := List.forall_mem_cons.mp hsystems
    have hfirst (m₁ : EntityManager R) :
        SystemAtOnce (systems s) (isParallel s) (body 0 s deltaTime) m m₁ ↔
          (m.runSystem (systems s) (statusOf s) fun _ => operate 0 s deltaTime).map Prod.fst =
            some m₁ := by
      rw [hsystem]
      exact systemAtOnce_iff (himplements 0 s deltaTime) hm hptrs hnodup (isParallel s)
    have hrest {m₁ : EntityManager R} {visits : List (Visit V)}
        (hone : m.runSystem (systems s) (statusOf s) (fun _ => operate 0 s deltaTime) =
          some (m₁, visits)) :
        SystemsAtOnce systems isParallel (fun n => body (n + 1)) runs m₁ m' ↔
          (runSystems systems statusOf (fun n s deltaTime _ => operate (n + 1) s deltaTime) runs
            m₁).map Prod.fst = some m' := by
      have hsame := same_of_runSystem hone
      refine ih (fun n => himplements (n + 1)) hsystems (hsame.shaped hm) ?_
      rw [hsame.length]
      exact hptrs
    simp only [SystemsAtOnce, hfirst]
    cases hone : m.runSystem (systems s) (statusOf s) (fun _ => operate 0 s deltaTime) with
    | none =>
      simp only [runSystems, hone, Option.bind_eq_bind, Option.bind_none, Option.map_none,
        reduceCtorEq, false_and, exists_false]
    | some first =>
      obtain ⟨m₁, visits⟩ := first
      simp only [runSystems, hone, Option.bind_eq_bind, Option.bind_some, Option.map_some,
        Option.some.injEq, exists_eq_left', hrest hone, Option.map_bind]
      rw [Option.map_eq_bind]
      rfl

end EntityManager

/-! ## Worlds -/

section Worlds

variable [DecidableEq S] {statusOf : S → Option EntityStatus} {isParallel : S → Bool}
  {w w' : World R S} {act : Act R S V} {G : World R S → Act R S V → Prop}

namespace World

/-- `addTime` with the systems in threads that are parallel. -/
def AddsTimeAtOnce (w : World R S) (isParallel : S → Bool) (time : ℚ) (fuel : Nat)
    (body : Nat → S → ℚ → List (Access L V)) (w' : World R S) : Prop :=
  ∃ clock runs count manager,
    w.clock.addTime w.registry.systemTree w.registry.fixedSystemTree fuel time =
      some (clock, runs, count) ∧
    EntityManager.SystemsAtOnce w.registry.systems isParallel body
      (runs.flatMap fun run => run.systems.map fun s => (s, run.deltaTime)) w.manager manager ∧
    w' = { w with manager := manager, clock := clock }

/-- A step, with the systems in threads that are parallel. -/
def StepAtOnce (statusOf : S → Option EntityStatus) (isParallel : S → Bool) (L : Type)
    (w : World R S) (act : Act R S V) (w' : World R S) : Prop :=
  match act with
  | .addTime time fuel operate => ∃ body : Nat → S → ℚ → List (Access L V),
    (∀ n s deltaTime, Implements R (body n s deltaTime) (statusOf s) (operate n s deltaTime 0)) ∧
      w.AddsTimeAtOnce isParallel time fuel body w'
  | act => step statusOf w act = some w'

/-- A run all of whose steps meet the condition, with the systems in threads that are parallel. -/
def RunAtOnce (statusOf : S → Option EntityStatus) (isParallel : S → Bool) (L : Type)
    (G : World R S → Act R S V → Prop) : World R S → World R S → Prop :=
  Relation.ReflTransGen fun w w' => ∃ act, G w act ∧ StepAtOnce statusOf isParallel L w act w'

end World

omit [DecidableEq S] in
theorem addsTimeAtOnce_iff [Nonempty L] {start : Systems S Nat} (h : StatusInv start w)
    (hfresh : start.Fresh) (hmono : ∀ s ∈ w.registry.registered, (w.registry.systems s).Mono)
    {time : ℚ} {fuel : Nat} {body : Nat → S → ℚ → List (Access L V)}
    {operate : Nat → S → ℚ → Slot V → Slot V}
    (himplements : ∀ n s deltaTime,
      Implements R (body n s deltaTime) (statusOf s) (operate n s deltaTime)) :
    w.AddsTimeAtOnce isParallel time fuel body w' ↔
      (w.addTime statusOf time fuel fun n s deltaTime _ => operate n s deltaTime).map Prod.fst =
        some w' := by
  have hnodup : (w.registry.entityPools.map (·.ptr)).Nodup := h.ptrs ▸ List.nodup_range
  cases hclock : w.clock.addTime w.registry.systemTree w.registry.fixedSystemTree fuel time with
  | none =>
    simp only [World.AddsTimeAtOnce, World.addTime, hclock, reduceCtorEq, false_and, exists_false,
      Option.bind_eq_bind, Option.bind_none, Option.map_none]
  | some added =>
    obtain ⟨clock, runs, count⟩ := added
    have hsystems := h.exists_names_of_runs hfresh hmono hclock
    have hatOnce (m : EntityManager R) :
        EntityManager.SystemsAtOnce w.registry.systems isParallel body
            (runs.flatMap fun run => run.systems.map fun s => (s, run.deltaTime)) w.manager m ↔
          (EntityManager.runSystems w.registry.systems statusOf
            (fun n s deltaTime _ => operate n s deltaTime)
            (runs.flatMap fun run => run.systems.map fun s => (s, run.deltaTime)) w.manager).map
              Prod.fst = some m :=
      EntityManager.systemsAtOnce_iff himplements hsystems h.owned.shaped h.ptr_lt hnodup
    have hadd : w.addTime statusOf time fuel (fun n s deltaTime _ => operate n s deltaTime) =
        (EntityManager.runSystems w.registry.systems statusOf
          (fun n s deltaTime _ => operate n s deltaTime)
          (runs.flatMap fun run => run.systems.map fun s => (s, run.deltaTime)) w.manager).map
          fun ran => ({ w with manager := ran.1, clock := clock }, ran.2) := by
      rw [World.addTime, hclock, Option.map_eq_bind]
      rfl
    rw [hadd, Option.map_map]
    constructor
    · rintro ⟨clock', runs', count', manager, hclock', hthreads, rfl⟩
      cases hclock.symm.trans hclock'
      obtain ⟨⟨m, visits⟩, hruns, rfl⟩ :=
        Option.map_eq_some_iff.mp ((hatOnce manager).mp hthreads)
      rw [hruns]
      rfl
    · intro htime
      obtain ⟨⟨m, visits⟩, hruns, rfl⟩ := Option.map_eq_some_iff.mp htime
      refine ⟨clock, runs, count, m, hclock, (hatOnce m).mpr ?_, rfl⟩
      rw [hruns]
      rfl

/-- A visit made in one access. -/
def visitOnce (status : Option EntityStatus) (f : Slot V → Slot V) : Access L V :=
  fun inHand slot => (inHand, if status.all (· = slot.entityStatus) then some (f slot) else none)

theorem implements_visitOnce (status : Option EntityStatus) (f : Slot V → Slot V) :
    Implements R [(visitOnce status f : Access L V)] status f := by
  intro t entity hread
  obtain ⟨⟨m, visits⟩, hone⟩ := Option.isSome_iff_exists.mp (hread.isSome_innerOperate status f)
  obtain ⟨slot, hslot⟩ := hread.exists_slot
  have hturn : (turns [(visitOnce status f : Access L V)] entity).foldlM AtOnce.turn t =
      t.turn ⟨entity, visitOnce status f⟩ := Option.bind_fun_some _
  rw [hturn, AtOnce.turn_of_slot (a := ⟨entity, visitOnce status f⟩) hslot, hone, Option.map_map]
  simp only [EntityManager.innerOperate, hslot, Option.bind_eq_bind, Option.bind_some] at hone
  split at hone
  next hcall =>
    obtain ⟨m₁, hoperate, hone⟩ := Option.bind_eq_some_iff.mp hone
    obtain ⟨after, -, hone⟩ := Option.bind_eq_some_iff.mp hone
    cases hone
    rw [← EntityManager.operate_const hslot] at hoperate
    simp only [visitOnce, if_pos hcall, EntityManager.write, hoperate]
    rfl
  next hcall =>
    cases hone
    simp only [visitOnce, if_neg hcall]
    rfl

theorem stepAtOnce_iff [Nonempty L] {start : Systems S Nat} (h : StatusInv start w)
    (hfresh : start.Fresh) (hact : World.Orderly statusOf w act) :
    World.StepAtOnce statusOf isParallel L w act w' ↔ World.step statusOf w act = some w' := by
  obtain ⟨⟨-, hmono⟩, hsame⟩ := hact
  cases act with
  | addTime time fuel operate =>
    have hoperate : operate = fun n s deltaTime _ => operate n s deltaTime 0 := by
      funext n s deltaTime visit
      exact hsame n s deltaTime visit
    rw [World.step, hoperate]
    constructor
    · rintro ⟨body, himplements, htime⟩
      exact (addsTimeAtOnce_iff h hfresh hmono himplements).mp htime
    · intro htime
      have himplements (n : Nat) (s : S) (deltaTime : ℚ) :=
        implements_visitOnce (R := R) (L := L) (statusOf s) (operate n s deltaTime 0)
      exact ⟨_, himplements, (addsTimeAtOnce_iff h hfresh hmono himplements).mpr htime⟩
  | registerEntityPool | register | createEntity | createEntities | destroyEntity | destroyEntities
    | destroyEntitiesRange | deleteEverything => exact Iff.rfl

/-- Timers in two pools, and time. -/
def twoPools : List (Act (ComponentPool ℚ) Bool ℚ) :=
  [.registerEntityPool "Timer" 2 [] ["EntityStatus", "ChunkPos", "Timer"],
    .registerEntityPool "Clock" 1 [] ["EntityStatus", "Timer"],
    .register (.system true ROOT_SYS_GROUP true), .createEntity "Timer" ENT_ALIVE,
    .createEntities "Clock" 2 ENT_ALIVE,
    .addTime 1 1 fun _ _ deltaTime _ => IncrementTimerSystem.innerOperate deltaTime]

end Worlds

end ProjectE.Ecs
