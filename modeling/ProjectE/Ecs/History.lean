import ProjectE.Ecs.Defaults

/-!
# What an entity holds

What a live entity holds is what the systems that take its archetype have made of it, each once for
every time it was run, in the order they ran (`entity_history`). Nothing else reaches it: entities
created and destroyed beside it, slots used again, chunks added, pools and systems registered.

The systems are `AMonoSystem`s that do the same at every visit: what an `ADualSystem` does to an
entity depends on the slots of the others, free ones included.
-/

namespace ProjectE.Ecs

open Verif

/-! ## Reading back -/

/-- What a slot holds once a value was written over another. A pool of one archetype does not take
values of another. -/
class ReadsBack (R : Type) (V : outParam Type) [ComponentPools R] [ComponentSlots R V] where
  stored : V → V → V
  read_write : ∀ (pools : R) cPos before value (pools' : R),
    ComponentSlots.read pools cPos = some before →
      ComponentSlots.write pools cPos value = some pools' →
        ComponentSlots.read pools' cPos = some (stored before value)

instance {T : Type} [Component T] : ReadsBack (ComponentPool T) T where
  stored _ value := value
  read_write _ _ _ _ _ _ h := Grid.read_write h

instance : ReadsBack Unit Unit where
  stored _ value := value
  read_write _ _ _ _ _ _ _ := rfl

instance {R S V W : Type} [ComponentPools R] [ComponentPools S] [ComponentSlots R V]
    [ComponentSlots S W] [ReadsBack R V] [ReadsBack S W] : ReadsBack (R × S) (V × W) where
  stored before value :=
    (ReadsBack.stored R before.1 value.1, ReadsBack.stored S before.2 value.2)
  read_write pools cPos before value pools' hread h := by
    obtain ⟨fst, hfst, hread⟩ := Option.bind_eq_some_iff.mp hread
    obtain ⟨snd, hsnd, hread⟩ := Option.bind_eq_some_iff.mp hread
    cases hread
    obtain ⟨fst', hfst', h⟩ := Option.bind_eq_some_iff.mp h
    obtain ⟨snd', hsnd', h⟩ := Option.bind_eq_some_iff.mp h
    cases h
    simp only [ComponentSlots.read, ReadsBack.read_write _ _ _ _ _ hfst hfst',
      ReadsBack.read_write _ _ _ _ _ hsnd hsnd']
    rfl

instance {Archetype : Type} [DecidableEq Archetype] {Pools Values : Archetype → Type}
    [∀ a, ComponentPools (Pools a)] [∀ a, ComponentSlots (Pools a) (Values a)]
    [∀ a, ReadsBack (Pools a) (Values a)] : ReadsBack (Σ a, Pools a) (Σ a, Values a) where
  stored before value :=
    if h : value.1 = before.1 then
      ⟨before.1, ReadsBack.stored (Pools before.1) before.2 (h ▸ value.2)⟩
    else before
  read_write pools cPos before value pools' hread h := by
    obtain ⟨old, hold, rfl⟩ := Option.map_eq_some_iff.mp hread
    simp only [ComponentSlots.write] at h
    split at h
    next heq =>
      obtain ⟨snd, hsnd, rfl⟩ := Option.map_eq_some_iff.mp h
      simp only [ComponentSlots.read, ReadsBack.read_write _ _ _ _ _ hold hsnd, Option.map_some,
        dif_pos heq]
    next hne =>
      cases h
      simp only [ComponentSlots.read, hold, Option.map_some, dif_neg hne]

section Slots

variable {R V : Type} [ComponentPools R] [slots : ComponentSlots R V] [ReadsBack R V]

variable (R) in
/-- What a slot holds once it was offered to a system with this status. -/
def Slot.given (status : Option EntityStatus) (f : Slot V → Slot V) (slot : Slot V) : Slot V :=
  if status.all (· = slot.entityStatus) then
    { f slot with others := ReadsBack.stored R slot.others (f slot).others }
  else slot

theorem Slot.given_none (f : Slot V → Slot V) (slot : Slot V) : slot.given R none f =
    { f slot with others := ReadsBack.stored R slot.others (f slot).others } := rfl

namespace ArchetypePool

theorem slot_operate {pool pool' : ArchetypePool R} {cPos : ChunkPos} {f : Slot V → Slot V}
    (h : pool.operate cPos f = some pool') : ∃ before, pool.slot cPos = some before ∧
      pool'.slot cPos =
        some { f before with others := ReadsBack.stored R before.others (f before).others } := by
  obtain ⟨before, hbefore, h⟩ := Option.bind_eq_some_iff.mp h
  obtain ⟨others, hothers, h⟩ := Option.bind_eq_some_iff.mp h
  obtain ⟨chunkPos, hchunkPos, h⟩ := Option.bind_eq_some_iff.mp h
  obtain ⟨entityStatus, hstatus, h⟩ := Option.bind_eq_some_iff.mp h
  cases h
  refine ⟨before, hbefore, slot_eq_some.mpr ⟨?_, Grid.read_write hchunkPos,
    Grid.read_write hstatus⟩⟩
  exact ReadsBack.read_write _ _ _ _ _ (slot_eq_some.mp hbefore).1 hothers

end ArchetypePool

namespace EntityManager

variable {m m' : EntityManager R} {entity : EntityRef} {entities : List EntityRef}
  {status : Option EntityStatus} {slot : Slot V} {visits : List (Visit V)}

theorem slot_operate {f : Slot V → Slot V} (h : m.operate entity f = some m') :
    ∃ before, m.slot entity = some before ∧ m'.slot entity =
      some { f before with others := ReadsBack.stored R before.others (f before).others } := by
  obtain ⟨pool, hpool, h⟩ := Option.bind_eq_some_iff.mp h
  obtain ⟨pool', hoperate, h⟩ := Option.bind_eq_some_iff.mp h
  cases h
  obtain ⟨before, hbefore, hafter⟩ := ArchetypePool.slot_operate hoperate
  refine ⟨before, (slot_of_getElem? hpool).trans hbefore, ?_⟩
  rw [slot_set hpool, if_pos rfl]
  exact hafter

theorem slot_innerOperate {f : Slot V → Slot V}
    (h : innerOperate status f m entity = some (m', visits)) :
    (∃ before, m.slot entity = some before ∧ m'.slot entity = some (before.given R status f)) ∧
      ∀ other, other ≠ entity → m'.slot other = m.slot other := by
  obtain ⟨before, hbefore, h⟩ := Option.bind_eq_some_iff.mp h
  split at h
  next hcall =>
    obtain ⟨m₁, hoperate, h⟩ := Option.bind_eq_some_iff.mp h
    obtain ⟨after, -, h⟩ := Option.bind_eq_some_iff.mp h
    cases h
    obtain ⟨slot, hslot, hafter⟩ := slot_operate hoperate
    cases hbefore.symm.trans hslot
    refine ⟨⟨before, hbefore, ?_⟩, (same_of_operate hoperate).2⟩
    rw [Slot.given, if_pos hcall]
    exact hafter
  next hcall =>
    cases h
    refine ⟨⟨before, hbefore, ?_⟩, fun _ _ => rfl⟩
    rw [Slot.given, if_neg hcall]
    exact hbefore

/-- A run over different elements gives each of them to the system once. -/
theorem slot_operateEach {operate : Nat → Slot V → Slot V} {f : Slot V → Slot V}
    (hsame : ∀ n, operate n = f) (hnodup : entities.Nodup)
    (h : operateEach status operate entities m = some (m', visits))
    (hslot : m.slot entity = some slot) :
    m'.slot entity = some (if entity ∈ entities then slot.given R status f else slot) := by
  induction entities generalizing operate m visits slot with
  | nil =>
    cases h
    rw [if_neg List.not_mem_nil]
    exact hslot
  | cons first entities ih =>
    obtain ⟨hnot, hnodup⟩ := List.nodup_cons.mp hnodup
    obtain ⟨⟨m₁, visit⟩, hone, h⟩ := Option.bind_eq_some_iff.mp h
    obtain ⟨⟨m₂, rest⟩, hrest, h⟩ := Option.bind_eq_some_iff.mp h
    cases h
    rw [hsame 0] at hone
    obtain ⟨⟨before, hbefore, hafter⟩, hothers⟩ := slot_innerOperate hone
    have hrun (slot : Slot V) (hslot : m₁.slot entity = some slot) :=
      ih (fun n => hsame (n + 1)) hnodup hrest hslot
    by_cases heq : entity = first
    · subst heq
      cases hbefore.symm.trans hslot
      rw [hrun _ hafter, if_neg hnot, if_pos List.mem_cons_self]
    · rw [hrun slot ((hothers entity heq).trans hslot)]
      simp only [List.mem_cons, heq, false_or]

end EntityManager

end Slots

/-! ## The systems run on an entity -/

/-- A system was run: with which delta, for entities of which status, and what it does to what it is
given, wherever that is. -/
structure SystemRun (S V : Type) where
  system : S
  deltaTime : ℚ
  status : Option EntityStatus
  operate : Slot V → Slot V

/-- What the run makes of the slot of an entity. -/
def SystemRun.apply (R : Type) {S V : Type} [ComponentPools R] [ComponentSlots R V]
    [ReadsBack R V] (slot : Slot V) (run : SystemRun S V) : Slot V :=
  slot.given R run.status run.operate

/-- The runs of the systems that take an entity. -/
def systemRuns {S V : Type} (statusOf : S → Option EntityStatus) (takes : S → Prop)
    [DecidablePred takes] :
    (Nat → S → ℚ → Nat → Slot V → Slot V) → List (S × ℚ) → List (SystemRun S V)
  | _, [] => []
  | operate, (s, deltaTime) :: runs =>
    let rest := systemRuns statusOf takes (fun n => operate (n + 1)) runs
    if takes s then ⟨s, deltaTime, statusOf s, operate 0 s deltaTime 0⟩ :: rest else rest

/-- A system of one query, which names a component. -/
def ISystem.Mono {P : Type} : ISystem P → Prop
  | .mono query => query.componentNames ≠ []
  | .dual _ _ => False

instance {P : Type} : ∀ system : ISystem P, Decidable system.Mono
  | .mono query => inferInstanceAs (Decidable (query.componentNames ≠ []))
  | .dual _ _ => .isFalse id

/-- What its systems do does not depend on the visit. -/
def Act.SameEverywhere {R S V : Type} : Act R S V → Prop
  | .addTime _ _ operate => ∀ n s deltaTime visit,
    operate n s deltaTime visit = operate n s deltaTime 0
  | _ => True

section Worlds

variable {R S V : Type} [ComponentPools R] [slots : ComponentSlots R V] [DecidableEq S]
  {statusOf : S → Option EntityStatus} {start : Systems S Nat} {w w' : World R S} {act : Act R S V}

namespace World

/-- The system takes the archetype of the entity. -/
def Takes (w : World R S) (entity : EntityRef) (s : S) : Prop :=
  ∃ entityPool ∈ w.registry.entityPools, entityPool.ptr = entity.pool ∧
    ∀ query ∈ (w.registry.systems s).queries, query.Matches entityPool

instance (w : World R S) (entity : EntityRef) : DecidablePred (w.Takes entity) := fun _ =>
  inferInstanceAs (Decidable (∃ _ ∈ _, _))

/-- The runs of systems on an entity that a step makes. -/
def runsOn (statusOf : S → Option EntityStatus) (w : World R S) (entity : EntityRef) :
    Act R S V → List (SystemRun S V)
  | .addTime time fuel operate =>
    match w.clock.addTime w.registry.systemTree w.registry.fixedSystemTree fuel time with
    | none => []
    | some (_, runs, _) => systemRuns statusOf (w.Takes entity) operate
        (runs.flatMap fun run => run.systems.map fun s => (s, run.deltaTime))
  | _ => []

/-- The systems that are run have one query. -/
def MonoSystems (w : World R S) : Act R S V → Prop
  | .addTime _ _ _ => ∀ s ∈ w.registry.registered, (w.registry.systems s).Mono
  | _ => True

instance (w : World R S) : ∀ act : Act R S V, Decidable (MonoSystems w act)
  | .addTime _ _ _ => inferInstanceAs (Decidable (∀ _ ∈ _, _))
  | .registerEntityPool _ _ _ _ | .register _ | .createEntity _ _ | .createEntities _ _ _
  | .destroyEntity _ | .destroyEntities _ _ | .destroyEntitiesRange _ | .deleteEverything =>
    inferInstanceAs (Decidable True)

/-- Callers keep to what systems with a status need, and the systems that are run have one query and
do the same at every visit. -/
def Orderly (statusOf : S → Option EntityStatus) (w : World R S) (act : Act R S V) : Prop :=
  (KeepsStatus statusOf w act ∧ MonoSystems w act) ∧ act.SameEverywhere

end World

/-! ## Trees run what is registered -/

mutual

theorem runNode_subset {S : Type} : ∀ t : SystemTreeNode S, t.runNode ⊆ t.systems
  | .node shouldRun _ startSystems children endSystems => by
    unfold SystemTreeNode.runNode SystemTreeNode.systems
    split
    · intro s hs
      rcases List.mem_append.mp hs with hstart | hs
      · exact List.mem_append_left _ hstart
      · refine List.mem_append_right _ ?_
        rcases List.mem_append.mp hs with hchild | hend
        · exact List.mem_append_left _ (runChildren_subset children hchild)
        · exact List.mem_append_right _ hend
    · exact List.nil_subset _

theorem runChildren_subset {S : Type} : ∀ ts : List (SystemTreeNode S),
    SystemTreeNode.runChildren ts ⊆ SystemTreeNode.childrenSystems ts
  | [] => List.nil_subset _
  | t :: ts => by
    unfold SystemTreeNode.runChildren SystemTreeNode.childrenSystems
    intro s hs
    rcases List.mem_append.mp hs with hfirst | hrest
    · exact List.mem_append_left _ (runNode_subset t hfirst)
    · exact List.mem_append_right _ (runChildren_subset ts hrest)

end

/-- What a call of `addTime` runs is one of the trees. -/
theorem Clock.systems_of_addTime {S : Type} {systemTree fixedSystemTree : SystemTree S}
    {fuel count : ℕ} {c c' : Clock} {time : ℚ} {runs : List (TreeRun S)}
    (h : c.addTime systemTree fixedSystemTree fuel time = some (c', runs, count)) :
    ∀ run ∈ runs, run.systems = systemTree.runNode ∨ run.systems = fixedSystemTree.runNode := by
  by_cases hzero : c.fixedUpdateTime = 0
  · rw [addTime, if_pos hzero] at h
    cases h
    intro run hrun
    rcases List.mem_pair.mp hrun with rfl | rfl
    · exact .inl rfl
    · exact .inr rfl
  · rw [addTime_eq hzero] at h
    obtain ⟨⟨count, left⟩, -, heq⟩ := Option.map_eq_some_iff.mp h
    cases heq
    intro run hrun
    rcases List.mem_cons.mp hrun with rfl | hrun
    · exact .inl rfl
    · rw [List.eq_of_mem_replicate hrun]
      exact .inr rfl

omit [DecidableEq S] in
/-- The system was given its pools: those that have its components. -/
theorem ISystem.exists_names {systems : Systems S Nat} {pools : List (IArchetypePool Nat)} {s : S}
    (hfresh : start.Fresh) (hsystem : systems s = (start s).mapQueries (Query.withPools pools))
    (hmono : (systems s).Mono) : ∃ name names,
      systems s = .mono ((Query.new (name :: names)).withPools pools) := by
  rw [hsystem] at hmono ⊢
  have hnew := hfresh s
  cases hstart : start s with
  | dual query1 query2 =>
    rw [hstart] at hmono
    exact hmono.elim
  | mono query =>
    rw [hstart] at hmono hnew
    have hquery := hnew query (List.mem_singleton_self query)
    obtain ⟨name, names, hnames⟩ := List.exists_cons_of_ne_nil
      (show query.componentNames ≠ [] from hmono)
    refine ⟨name, names, ?_⟩
    rw [hquery, hnames]
    rfl

namespace EntityManager

variable [ReadsBack R V] {m m' : EntityManager R} {entity : EntityRef} {slot : Slot V}
  {visits : List (Visit V)} {pools : List (IArchetypePool Nat)} {systems : Systems S Nat}

omit [DecidableEq S] in
/-- A system that does the same at every visit is given the slot once, if it takes its pool. -/
theorem slot_runSystem {s : S} {name : String} {names : List String}
    (hsystem : systems s = .mono ((Query.new (name :: names)).withPools pools))
    (hptrs : ∀ entityPool ∈ pools, entityPool.ptr < m.entityPools.length)
    (hnodup : (pools.map (·.ptr)).Nodup) {operate : Nat → Slot V → Slot V} {f : Slot V → Slot V}
    (hsame : ∀ n, operate n = f) {status : Option EntityStatus}
    (h : m.runSystem (systems s) status operate = some (m', visits))
    (hslot : m.slot entity = some slot) :
    m'.slot entity = some (if ∃ entityPool ∈ pools, entityPool.ptr = entity.pool ∧
        ∀ query ∈ (systems s).queries, query.Matches entityPool
      then slot.given R status f else slot) := by
  obtain ⟨entities, helements, h⟩ := Option.bind_eq_some_iff.mp h
  rw [hsystem, elements_mono hptrs] at helements
  cases helements
  rw [slot_operateEach hsame (nodup_elementsOf (hnodup.sublist (List.filter_sublist.map _))) h
    hslot]
  -- the slot is at a position of its pool
  obtain ⟨pool, hpool, hread⟩ := Option.bind_eq_some_iff.mp hslot
  have hcell : entity.cPos ∈ Grid.cells (shapeAt m.entityPools entity.pool) := by
    rw [shapeAt_of_getElem? hpool]
    exact ArchetypePool.mem_cells_of_slot hread
  congr 1
  refine if_congr ?_ rfl rfl
  rw [mem_elementsOf, and_iff_left hcell, List.mem_map, hsystem]
  refine exists_congr fun entityPool => ?_
  rw [List.mem_filter, decide_eq_true_eq, and_assoc, and_comm (a := Query.Matches _ _)]
  refine and_congr_right fun _ => and_congr_right fun _ => ?_
  constructor
  · intro hmatches query hquery
    cases List.mem_singleton.mp hquery
    exact hmatches
  · intro hall
    exact hall ((Query.new (name :: names)).withPools pools) (List.mem_singleton_self _)

omit [DecidableEq S] in
/-- So are systems run one after the other. -/
theorem slot_runSystems {operate : Nat → S → ℚ → Nat → Slot V → Slot V} {runs : List (S × ℚ)}
    (hsystems : ∀ run ∈ runs, ∃ name names,
      systems run.1 = .mono ((Query.new (name :: names)).withPools pools))
    (hptrs : ∀ entityPool ∈ pools, entityPool.ptr < m.entityPools.length)
    (hnodup : (pools.map (·.ptr)).Nodup)
    (hsame : ∀ n s deltaTime visit, operate n s deltaTime visit = operate n s deltaTime 0)
    {takes : S → Prop} [DecidablePred takes]
    (htakes : ∀ s, takes s ↔ ∃ entityPool ∈ pools, entityPool.ptr = entity.pool ∧
      ∀ query ∈ (systems s).queries, query.Matches entityPool)
    (h : runSystems systems statusOf operate runs m = some (m', visits))
    (hslot : m.slot entity = some slot) :
    m'.slot entity =
      some ((systemRuns statusOf takes operate runs).foldl (SystemRun.apply R) slot) := by
  induction runs generalizing operate m visits slot with
  | nil =>
    cases h
    exact hslot
  | cons run runs ih =>
    obtain ⟨s, deltaTime⟩ := run
    obtain ⟨⟨m₁, first⟩, hone, h⟩ := Option.bind_eq_some_iff.mp h
    obtain ⟨⟨m₂, more⟩, hrest, h⟩ := Option.bind_eq_some_iff.mp h
    cases h
    obtain ⟨⟨name, names, hsystem⟩, hsystems⟩ := List.forall_mem_cons.mp hsystems
    have hafter := slot_runSystem hsystem hptrs hnodup (hsame 0 s deltaTime) hone hslot
    have hptrs' : ∀ entityPool ∈ pools, entityPool.ptr < m₁.entityPools.length := by
      rw [(same_of_runSystem hone).length]
      exact hptrs
    rw [ih hsystems hptrs' (fun n => hsame (n + 1)) hrest hafter, systemRuns]
    by_cases htake : takes s
    · rw [if_pos htake, if_pos ((htakes s).mp htake), List.foldl_cons]
      rfl
    · rw [if_neg htake, if_neg fun h => htake ((htakes s).mpr h)]

end EntityManager

/-! ## One step -/

/-- Time is added, or the clock is left as it is and no system runs; what is registered changes by a
call that registers. -/
theorem World.step_cases (h : World.step statusOf w act = some w') :
    (∃ time fuel operate visits, act = .addTime time fuel operate ∧
      w.addTime statusOf time fuel operate = some (w', visits)) ∨
    (w'.clock = w.clock ∧ (∀ entity, w.runsOn statusOf entity act = []) ∧
      (w'.registry = w.registry ∨ ∃ call : Call S Nat, w'.registry = (call.run w.registry).2)) := by
  cases act with
  | addTime time fuel operate =>
    obtain ⟨⟨w₁, visits⟩, htime, rfl⟩ := Option.map_eq_some_iff.mp h
    exact .inl ⟨time, fuel, operate, visits, rfl, htime⟩
  | registerEntityPool entityName chunkSize others componentNames =>
    simp only [World.step] at h
    split at h
    next nodup =>
      cases h
      exact .inr ⟨rfl, fun _ => rfl, .inr
        ⟨.entityPool ⟨w.manager.entityPools.length, componentNames, nodup⟩, rfl⟩⟩
    next => cases h
  | register call =>
    simp only [World.step] at h
    split at h
    next =>
      cases h
      exact .inr ⟨rfl, fun _ => rfl, .inr ⟨call, rfl⟩⟩
    next => cases h
  | createEntity | createEntities =>
    obtain ⟨⟨m, entity⟩, -, h⟩ := Option.bind_eq_some_iff.mp h
    obtain ⟨created, -, h⟩ := Option.bind_eq_some_iff.mp h
    cases h
    exact .inr ⟨rfl, fun _ => rfl, .inl rfl⟩
  | destroyEntity | destroyEntities | destroyEntitiesRange =>
    obtain ⟨m, -, h⟩ := Option.bind_eq_some_iff.mp h
    cases h
    exact .inr ⟨rfl, fun _ => rfl, .inl rfl⟩
  | deleteEverything =>
    cases h
    exact .inr ⟨rfl, fun _ => rfl, .inl rfl⟩

theorem StatusInv.step (h : StatusInv start w) (hact : World.KeepsStatus statusOf w act)
    (hstep : World.step statusOf w act = some w') : StatusInv start w' := by
  obtain ⟨hown, hregistrations, hspares⟩ := hact
  have hchange := World.change_of_step h.owned.shaped hstep
  have hownChange := World.ownChange_of_change h.owned hown hchange
  obtain ⟨hoffered, hptrs⟩ := offered_change h hregistrations hchange
  exact ⟨(World.owned_change h.owned hownChange).1,
    idle_change h.owned h.idle hspares hownChange, hoffered, hptrs⟩

/-- The systems of the start were made fresh. -/
theorem freshInv_of_reach {G : World R S → Act R S V → Prop}
    (hG : ∀ w act, G w act → World.KeepsStatus statusOf w act)
    (h : (World.machine R S statusOf).ReachUnder G w) :
    ∃ start : Systems S Nat, start.Fresh ∧ StatusInv start w := by
  refine h.invariant (I := fun w => ∃ start : Systems S Nat, start.Fresh ∧ StatusInv start w)
    (fun w hw => ?_) fun w act w' ⟨start, hfresh, hinv⟩ hact hstep =>
      ⟨start, hfresh, hinv.step (hG w act hact) hstep⟩
  obtain ⟨start, fixedUpdateTime, hfresh, -, rfl⟩ := hw
  refine ⟨start, hfresh, owned_new, fun entity hentity => ?_, offered_new start, rfl⟩
  obtain ⟨pool, hpool, -⟩ := hentity
  cases hpool

omit [DecidableEq S] in
/-- The systems that `addTime` runs were given the pools that are registered. -/
theorem StatusInv.exists_names_of_runs (h : StatusInv start w) (hfresh : start.Fresh)
    (hmono : ∀ s ∈ w.registry.registered, (w.registry.systems s).Mono) {time : ℚ} {fuel count : ℕ}
    {clock : Clock} {runs : List (TreeRun S)}
    (hclock : w.clock.addTime w.registry.systemTree w.registry.fixedSystemTree fuel time =
      some (clock, runs, count)) :
    ∀ run ∈ runs.flatMap fun run => run.systems.map fun s => (s, run.deltaTime),
      ∃ name names, w.registry.systems run.1 =
        .mono ((Query.new (name :: names)).withPools w.registry.entityPools) := by
  intro run hrun
  obtain ⟨treeRun, htreeRun, hrun⟩ := List.mem_flatMap.mp hrun
  obtain ⟨s, hs, rfl⟩ := List.mem_map.mp hrun
  have hregistered : s ∈ w.registry.registered := by
    rcases Clock.systems_of_addTime hclock treeRun htreeRun with heq | heq
    · rw [heq] at hs
      exact List.mem_append_left _ (runNode_subset _ hs)
    · rw [heq] at hs
      exact List.mem_append_right _ (runNode_subset _ hs)
  exact ISystem.exists_names hfresh (h.offered.registered s hregistered) (hmono s hregistered)

variable [ReadsBack R V] {slot : Slot V} {c : Created}

omit [DecidableEq S] in
/-- `addTime` does to a slot what the systems do that it runs on it. -/
theorem StatusInv.slot_addTime (h : StatusInv start w) (hfresh : start.Fresh) {time : ℚ}
    {fuel : Nat} {operate : Nat → S → ℚ → Nat → Slot V → Slot V} {visits : List (Visit V)}
    (hmono : ∀ s ∈ w.registry.registered, (w.registry.systems s).Mono)
    (hsame : ∀ n s deltaTime visit, operate n s deltaTime visit = operate n s deltaTime 0)
    (htime : w.addTime statusOf time fuel operate = some (w', visits)) {entity : EntityRef}
    (hslot : w.manager.slot entity = some slot) :
    w'.manager.slot entity = some ((w.runsOn statusOf entity (.addTime time fuel operate)).foldl
      (SystemRun.apply R) slot) := by
  obtain ⟨⟨clock, runs, count⟩, hclock, htime⟩ := Option.bind_eq_some_iff.mp htime
  obtain ⟨⟨manager, visits'⟩, hruns, htime⟩ := Option.bind_eq_some_iff.mp htime
  cases htime
  have hsystems := h.exists_names_of_runs hfresh hmono hclock
  have hnodup : (w.registry.entityPools.map (·.ptr)).Nodup := h.ptrs ▸ List.nodup_range
  rw [World.runsOn, hclock]
  exact EntityManager.slot_runSystems hsystems h.ptr_lt hnodup hsame (fun _ => Iff.rfl) hruns hslot

/-- A step does to a live entity that stays what the systems do that it runs on it. -/
theorem StatusInv.slot_step (h : StatusInv start w) (hfresh : start.Fresh)
    (hact : World.Orderly statusOf w act) (hstep : World.step statusOf w act = some w')
    (hc : c ∈ w.created) (hc' : c ∈ w'.created)
    (hslot : w.manager.slot c.entity = some slot) :
    w'.manager.slot c.entity =
      some ((w.runsOn statusOf c.entity act).foldl (SystemRun.apply R) slot) := by
  obtain ⟨⟨hkeeps, hmono⟩, hsame⟩ := hact
  have hownChange := World.ownChange_of_change h.owned hkeeps.1
    (World.change_of_step h.owned.shaped hstep)
  have hundisturbed (hallocates : act.Allocates) : w'.manager.slot c.entity = some slot := by
    have hkept : c ∈ kept w.created w'.created :=
      List.mem_filter.mpr ⟨hc, decide_eq_true hc'⟩
    rw [((World.owned_change h.owned hownChange).2 hallocates).slot c hkept]
    exact hslot
  cases act with
  | registerEntityPool entityName chunkSize others componentNames =>
    simp only [World.step] at hstep
    split at hstep
    next =>
      cases hstep
      show Option.bind (w.manager.entityPools ++ [_])[c.entity.pool]? _ = _
      rw [List.getElem?_append_left (h.owned.pool_lt c hc)]
      exact hslot
    next => cases hstep
  | register call =>
    simp only [World.step] at hstep
    split at hstep
    next =>
      cases hstep
      exact hslot
    next => cases hstep
  | createEntity | createEntities | destroyEntity | destroyEntities | destroyEntitiesRange =>
    exact hundisturbed trivial
  | deleteEverything =>
    cases hstep
    cases hc'
  | addTime time fuel operate =>
    obtain ⟨⟨w₁, visits⟩, htime, rfl⟩ := Option.map_eq_some_iff.mp hstep
    exact h.slot_addTime hfresh hmono hsame htime hslot

/-! ## The history of an entity -/

namespace World

/-- Steps that meet the condition while the entity lives, with the runs of systems on it. -/
inductive Lives (statusOf : S → Option EntityStatus) (G : World R S → Act R S V → Prop)
    (c : Created) : World R S → List (SystemRun S V) → World R S → Prop
  | done {w : World R S} : c ∈ w.created → Lives statusOf G c w [] w
  | step {w w₁ w' : World R S} {act : Act R S V} {runs : List (SystemRun S V)} :
      c ∈ w.created → G w act → World.step statusOf w act = some w₁ →
      Lives statusOf G c w₁ runs w' →
      Lives statusOf G c w (w.runsOn statusOf c.entity act ++ runs) w'

omit [ReadsBack R V] in
theorem Lives.mem {G : World R S → Act R S V → Prop} {runs : List (SystemRun S V)}
    (h : Lives statusOf G c w runs w') : c ∈ w.created := by
  cases h with
  | done hc => exact hc
  | step hc => exact hc

/-- **The components of an entity are its own**: as long as it lives, what it holds is what the
systems that take its archetype make of it, in the order they are run, whatever else is created,
destroyed and registered meanwhile. The steps are orderly (`World.Orderly`): systems have one query
and act alike at every visit, and what is destroyed goes back to its own pool. -/
theorem entity_history (hreach : (machine R S statusOf).ReachUnder (Orderly statusOf) w)
    {runs : List (SystemRun S V)} (h : Lives statusOf (Orderly statusOf) c w runs w')
    (hslot : w.manager.slot c.entity = some slot) :
    w'.manager.slot c.entity = some (runs.foldl (SystemRun.apply R) slot) := by
  obtain ⟨start, hfresh, hinv⟩ := freshInv_of_reach (fun _ _ hact => hact.1.1) hreach
  clear hreach
  induction h generalizing slot with
  | done => exact hslot
  | step hc hact hstep hlives ih =>
    rw [List.foldl_append]
    exact ih (hinv.slot_step hfresh hact hstep hc hlives.mem hslot) (hinv.step hact.1.1 hstep)

/-- The steps of a list while an entity lives, where they meet a condition that can be checked. -/
def follow (statusOf : S → Option EntityStatus) (G : World R S → Act R S V → Prop)
    [∀ w act, Decidable (G w act)] (c : Created) :
    World R S → List (Act R S V) → Option (List (SystemRun S V) × World R S)
  | w, [] => if c ∈ w.created then some ([], w) else none
  | w, act :: acts =>
    if c ∈ w.created ∧ G w act then do
      let w₁ ← step statusOf w act
      let (runs, w') ← follow statusOf G c w₁ acts
      return (w.runsOn statusOf c.entity act ++ runs, w')
    else none

omit [ReadsBack R V] in
theorem lives_of_follow {G G' : World R S → Act R S V → Prop} [∀ w act, Decidable (G w act)] :
    ∀ {acts : List (Act R S V)} {w w' : World R S} {runs : List (SystemRun S V)},
      (∀ act ∈ acts, ∀ w, G w act → G' w act) →
      follow statusOf G c w acts = some (runs, w') → Lives statusOf G' c w runs w'
  | [], w, w', runs, _, h => by
    unfold follow at h
    split at h
    next hc =>
      cases h
      exact .done hc
    next => cases h
  | act :: acts, w, w', runs, hmeets, h => by
    obtain ⟨hact, hacts⟩ := List.forall_mem_cons.mp hmeets
    unfold follow at h
    split at h
    next hg =>
      obtain ⟨w₁, hstep, h⟩ := Option.bind_eq_some_iff.mp h
      obtain ⟨⟨more, w₂⟩, hmore, h⟩ := Option.bind_eq_some_iff.mp h
      cases h
      exact .step hg.1 (hact w hg.2) hstep (lives_of_follow hacts hmore)
    next => cases h

/-- A pool of timers, the system of live ones, and one timer. -/
def oneTimer : List (Act (ComponentPool ℚ) Bool ℚ) :=
  [.registerEntityPool "Timer" 2 [] ["EntityStatus", "ChunkPos", "Timer"],
    .register (.system true ROOT_SYS_GROUP true), .createEntity "Timer" ENT_ALIVE]

/-- More timers in new chunks, of which one is destroyed, the other system, and time. -/
def afterwards : List (Act (ComponentPool ℚ) Bool ℚ) :=
  [.createEntities "Timer" 3 ENT_ALIVE,
    .addTime 1 1 fun _ _ deltaTime _ => IncrementTimerSystem.innerOperate deltaTime,
    .destroyEntity (0, 1), .register (.system false ROOT_SYS_GROUP true),
    .addTime 2 1 fun _ _ deltaTime _ => IncrementTimerSystem.innerOperate deltaTime]

/-- The timer has counted three times. -/
theorem entity_history_timer : ∃ (w w' : World (ComponentPool ℚ) Bool)
    (runs : List (SystemRun Bool ℚ)),
    Lives aliveStatus (Orderly aliveStatus) ⟨(0, 0), ⟨0, (0, 0)⟩⟩ w runs w' ∧
      runs.map (fun run => (run.system, run.deltaTime)) = [(true, 1), (true, 2), (false, 2)] ∧
      w'.manager.slot ⟨0, (0, 0)⟩ = some (runs.foldl (SystemRun.apply (ComponentPool ℚ))
        ⟨0, (0, 0), ENT_ALIVE⟩) := by
  have hsame : ∀ act ∈ oneTimer ++ afterwards, act.SameEverywhere := by
    intro act hact
    simp only [oneTimer, afterwards, List.cons_append, List.nil_append, List.mem_cons,
      List.not_mem_nil, or_false] at hact
    rcases hact with rfl | rfl | rfl | rfl | rfl | rfl | rfl | rfl
    all_goals first | exact trivial | exact fun _ _ _ _ => rfl
  obtain ⟨hsame, hsame'⟩ := List.forall_mem_append.mp hsame
  have hw : (((machine (ComponentPool ℚ) Bool aliveStatus).exec
      (fun w act => KeepsStatus aliveStatus w act ∧ MonoSystems w act)
      (World.new timerSystems 0) oneTimer).any fun w =>
      (w.manager.slot ⟨0, (0, 0)⟩ = some ⟨0, (0, 0), ENT_ALIVE⟩ : Bool) &&
        (follow aliveStatus (fun w act => KeepsStatus aliveStatus w act ∧ MonoSystems w act)
          ⟨(0, 0), ⟨0, (0, 0)⟩⟩ w afterwards).any fun followed =>
          followed.1.map (fun run => (run.system, run.deltaTime)) =
            [(true, 1), (true, 2), (false, 2)]) = true := by
    decide +kernel
  obtain ⟨w, hexec, hp⟩ := (Option.any_eq_true _ _).mp hw
  obtain ⟨hslot, hfollow⟩ := Bool.and_eq_true_iff.mp hp
  obtain ⟨⟨runs, w'⟩, hfollow, hruns⟩ := (Option.any_eq_true _ _).mp hfollow
  have hlives : Lives aliveStatus (Orderly aliveStatus) _ w runs w' :=
    lives_of_follow (fun act hact w hg => ⟨hg, hsame' act hact⟩) hfollow
  exact ⟨w, w', runs, hlives, of_decide_eq_true hruns,
    entity_history ⟨_, init_timerSystems, Machine.runUnder_and_of_exec hsame hexec⟩ hlives
      (of_decide_eq_true hslot)⟩

end World

end Worlds

end ProjectE.Ecs
