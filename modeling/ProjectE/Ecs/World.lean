import ProjectE.Ecs.Batch
import ProjectE.Ecs.Running

/-!
# Worlds

An `EntityManager` as a whole: its pools, the systems registered in it and its clock, in one state
machine. Pools and systems are registered, entities created and destroyed by any of the functions
that do, and time is added, which runs the systems, in any order. `created` records the entities
with their handles, as in `State`; the manager does not see it.

The machine lets the callers do as they like. What they keep to is said by conditions on steps, one
for each thing a caller may get wrong, and every law names those it needs: `FreshPools`,
`PlainDefaults` and `DistinctNames` of the pools registered, `LiveDestroys` and `OwnPools` of the
handles destroyed, `Registrations` of the calls that register, `SparesStatus` and `SparesOthers` of
what systems do in slots nobody owns.

A pool law is a property of a pool that everything the manager does to a pool keeps; the manager
then keeps it of all its pools (`PoolLaw`). That all pools are shaped is one.
-/

namespace ProjectE.Ecs

open Verif

/-- A manager, and the entities created in it that were not destroyed. `registry` has the systems
and what they have been offered, and `clock` the times; the record of the entities is for the
statements only. -/
structure World (R S : Type) where
  manager : EntityManager R
  registry : AEntityManager S Nat
  clock : Clock
  created : List Created

/-- What a world is asked. `register` is a call that registers something other than a pool.
`operate` is what the systems do that are run: in which run, of which system, with which time and
at which visit. -/
inductive Act (R S V : Type) where
  | registerEntityPool (entityName : String) (chunkSize : Nat) (others : R)
      (componentNames : List String)
  | register (call : Call S Nat)
  | createEntity (entityName : String) (status : EntityStatus)
  | createEntities (entityName : String) (count : Nat) (status : EntityStatus)
  | destroyEntity (cPos : ChunkPos)
  | destroyEntities (cPosArr : List ChunkPos) (entityName : String)
  | destroyEntitiesRange (cPosRange : List ChunkPos)
  | deleteEverything
  | addTime (time : ℚ) (fuel : Nat) (operate : Nat → S → ℚ → Nat → Slot V → Slot V)

/-- The name of the pool it registers. -/
def Act.newNames {R S V : Type} : Act R S V → List String
  | .registerEntityPool entityName _ _ _ => [entityName]
  | _ => []

namespace World

variable {R S V : Type} [ComponentPools R] [slots : ComponentSlots R V] [DecidableEq S]

/-- `EntityManager(fixedUpdateTime)`, among systems already made. -/
def new (systems : Systems S Nat) (fixedUpdateTime : ℚ) : World R S where
  manager := .new
  registry := .new systems
  clock := .new fixedUpdateTime
  created := []

/-- `addTime`, with the visits of the systems it runs. -/
def addTime (statusOf : S → Option EntityStatus) (w : World R S) (time : ℚ) (fuel : Nat)
    (operate : Nat → S → ℚ → Nat → Slot V → Slot V) : Option (World R S × List (Visit V)) := do
  let (clock, runs, _) ← w.clock.addTime w.registry.systemTree w.registry.fixedSystemTree fuel time
  let (manager, visits) ← EntityManager.runSystems w.registry.systems statusOf operate
    (runs.flatMap fun run => run.systems.map fun s => (s, run.deltaTime)) w.manager
  return ({ w with manager := manager, clock := clock }, visits)

/-- The entities created are recorded. -/
def afterCreate (w : World R S) (manager : EntityManager R) (entities : List EntityRef) :
    Option (World R S) := do
  let created ← record manager entities
  return { w with manager := manager, created := w.created ++ created }

/-- A call, if it comes to an end and touches nothing past the end of a pool. What is created and
destroyed is put on record. -/
def step (statusOf : S → Option EntityStatus) (w : World R S) : Act R S V → Option (World R S)
  | .registerEntityPool entityName chunkSize others componentNames =>
    if nodup : componentNames.Nodup then
      let manager :=
        w.manager.registerEntityPool (ArchetypePool.new entityName chunkSize others)
      let (_, registry) :=
        w.registry.registerEntityPool ⟨w.manager.entityPools.length, componentNames, nodup⟩
      some { w with manager := manager, registry := registry }
    else none
  | .register call =>
    if call.pools.isEmpty then some { w with registry := (call.run w.registry).2 } else none
  | .createEntity entityName status => do
    let (manager, entity) ← w.manager.createEntity entityName status
    w.afterCreate manager [entity]
  | .createEntities entityName count status => do
    let (manager, entities) ← w.manager.createEntities entityName count status
    w.afterCreate manager entities
  | .destroyEntity cPos => do
    let manager ← w.manager.destroyEntity cPos
    return { w with manager := manager, created := forget w.created [cPos] }
  | .destroyEntities cPosArr entityName => do
    let manager ← w.manager.destroyEntities cPosArr entityName
    return { w with manager := manager, created := forget w.created cPosArr }
  | .destroyEntitiesRange cPosRange => do
    let manager ← w.manager.destroyEntitiesRange cPosRange
    return { w with manager := manager, created := forget w.created cPosRange }
  | .deleteEverything => some { w with manager := w.manager.deleteEverything, created := [] }
  | .addTime time fuel operate => (w.addTime statusOf time fuel operate).map (·.1)

/-- An `AStatusMonoSystem` has one query, for the status and then its own components. -/
def StatusSystems (statusOf : S → Option EntityStatus) (systems : Systems S Nat) : Prop :=
  ∀ s, (statusOf s).isSome → ∃ componentNames,
    systems s = .mono (.new ("EntityStatus" :: componentNames))

/-- Managers from when nothing is registered, the systems of `statusOf` being those that have a
status. -/
def machine (R S : Type) {V : Type} [ComponentPools R] [ComponentSlots R V] [DecidableEq S]
    (statusOf : S → Option EntityStatus) : Machine (World R S) (Act R S V) where
  init w := ∃ systems fixedUpdateTime, systems.Fresh ∧ StatusSystems statusOf systems ∧
    w = new systems fixedUpdateTime
  step := step statusOf

/-! ## What callers keep to -/

/-- A pool is registered new: its chunks have elements, and it has no chunk yet. -/
def FreshPools (_ : World R S) : Act R S V → Prop
  | .registerEntityPool _ chunkSize others _ =>
    0 < chunkSize ∧ ∀ layout ∈ ComponentPools.layouts others, layout = []
  | _ => True

/-- A fresh chunk holds what a reset leaves. -/
def PlainDefaults (_ : World R S) : Act R S V → Prop
  | .registerEntityPool _ _ others _ =>
    (ComponentSlots.defaults others).zero = (ComponentSlots.defaults others).empty
  | _ => True

/-- No two pools of one name. -/
def DistinctNames (w : World R S) : Act R S V → Prop
  | .registerEntityPool entityName _ _ _ =>
    ∀ pool ∈ w.manager.entityPools, pool.entityName ≠ entityName
  | _ => True

/-- What is destroyed is live, and destroyed once. -/
def LiveDestroys (w : World R S) : Act R S V → Prop
  | .destroyEntity cPos => ∃ c ∈ w.created, c.handle = cPos
  | .destroyEntities cPosArr _ => cPosArr.Nodup ∧ ∀ cPos ∈ cPosArr, ∃ c ∈ w.created, c.handle = cPos
  | .destroyEntitiesRange cPosRange =>
    cPosRange.Nodup ∧ ∀ cPos ∈ cPosRange, ∃ c ∈ w.created, c.handle = cPos
  | _ => True

/-- What is destroyed goes back to its own pool: the entity destroyed by its handle alone is of one
of the first 256 pools, and that destroyed with its archetype is of that archetype. -/
def OwnPools (w : World R S) : Act R S V → Prop
  | .destroyEntity cPos => ∀ c ∈ w.created, c.handle = cPos → c.entity.pool < 256
  | .destroyEntities cPosArr entityName => ∀ c ∈ w.created, c.handle ∈ cPosArr →
    (w.manager.getEntityPool entityName).map (·.2) = some c.entity.pool
  | .destroyEntitiesRange cPosRange =>
    ∀ c ∈ w.created, c.handle ∈ cPosRange → c.entity.pool < 256
  | _ => True

/-- The systems of a call that registers are different, and none is registered already or holds
pools from a call that failed. -/
def Registrations (w : World R S) : Act R S V → Prop
  | .register call => call.involved.Nodup ∧ ∀ s ∈ call.involved, s ∉ w.registry.registered ∧
    ∀ query ∈ (w.registry.systems s).queries, query.componentPoolsArrays = []
  | _ => True

/-- No system writes the status of a free slot. -/
def SparesStatus (statusOf : S → Option EntityStatus) (w : World R S) : Act R S V → Prop
  | .addTime time fuel operate => ∀ after ∈ w.addTime statusOf time fuel operate,
    ∀ visit ∈ after.2, w.manager.Free visit.entity →
      visit.after.entityStatus = visit.before.entityStatus
  | _ => True

/-- No system writes another component of a free slot. -/
def SparesOthers (statusOf : S → Option EntityStatus) (w : World R S) : Act R S V → Prop
  | .addTime time fuel operate => ∀ after ∈ w.addTime statusOf time fuel operate,
    ∀ visit ∈ after.2, w.manager.Free visit.entity → visit.after.others = visit.before.others
  | _ => True

instance (w : World R S) : ∀ act : Act R S V, Decidable (FreshPools w act)
  | .registerEntityPool _ _ _ _ => inferInstanceAs (Decidable (_ ∧ _))
  | .register _ | .createEntity _ _ | .createEntities _ _ _ | .destroyEntity _
  | .destroyEntities _ _ | .destroyEntitiesRange _ | .deleteEverything | .addTime _ _ _ =>
    inferInstanceAs (Decidable True)

instance (w : World R S) : ∀ act : Act R S V, Decidable (LiveDestroys w act)
  | .destroyEntity _ => inferInstanceAs (Decidable (∃ _ ∈ _, _))
  | .destroyEntities _ _ => inferInstanceAs (Decidable (_ ∧ _))
  | .destroyEntitiesRange _ => inferInstanceAs (Decidable (_ ∧ _))
  | .registerEntityPool _ _ _ _ | .register _ | .createEntity _ _ | .createEntities _ _ _
  | .deleteEverything | .addTime _ _ _ => inferInstanceAs (Decidable True)

instance (w : World R S) : ∀ act : Act R S V, Decidable (OwnPools w act)
  | .destroyEntity _ => inferInstanceAs (Decidable (∀ _ ∈ _, _))
  | .destroyEntities _ _ => inferInstanceAs (Decidable (∀ _ ∈ _, _))
  | .destroyEntitiesRange _ => inferInstanceAs (Decidable (∀ _ ∈ _, _))
  | .registerEntityPool _ _ _ _ | .register _ | .createEntity _ _ | .createEntities _ _ _
  | .deleteEverything | .addTime _ _ _ => inferInstanceAs (Decidable True)

instance (w : World R S) : ∀ act : Act R S V, Decidable (Registrations w act)
  | .register _ => inferInstanceAs (Decidable (_ ∧ _))
  | .registerEntityPool _ _ _ _ | .createEntity _ _ | .createEntities _ _ _ | .destroyEntity _
  | .destroyEntities _ _ | .destroyEntitiesRange _ | .deleteEverything | .addTime _ _ _ =>
    inferInstanceAs (Decidable True)

instance (statusOf : S → Option EntityStatus) (w : World R S) :
    ∀ act : Act R S V, Decidable (SparesStatus statusOf w act)
  | .addTime _ _ _ => inferInstanceAs (Decidable (∀ _ ∈ _, _))
  | .registerEntityPool _ _ _ _ | .register _ | .createEntity _ _ | .createEntities _ _ _
  | .destroyEntity _ | .destroyEntities _ _ | .destroyEntitiesRange _ | .deleteEverything =>
    inferInstanceAs (Decidable True)

instance [DecidableEq V] (w : World R S) : ∀ act : Act R S V, Decidable (PlainDefaults w act)
  | .registerEntityPool _ _ _ _ => inferInstanceAs (Decidable (_ = _))
  | .register _ | .createEntity _ _ | .createEntities _ _ _ | .destroyEntity _
  | .destroyEntities _ _ | .destroyEntitiesRange _ | .deleteEverything | .addTime _ _ _ =>
    inferInstanceAs (Decidable True)

instance [DecidableEq V] (statusOf : S → Option EntityStatus) (w : World R S) :
    ∀ act : Act R S V, Decidable (SparesOthers statusOf w act)
  | .addTime _ _ _ => inferInstanceAs (Decidable (∀ _ ∈ _, _))
  | .registerEntityPool _ _ _ _ | .register _ | .createEntity _ _ | .createEntities _ _ _
  | .destroyEntity _ | .destroyEntities _ _ | .destroyEntitiesRange _ | .deleteEverything =>
    inferInstanceAs (Decidable True)

end World

/-! ## Pool laws -/

section Laws

variable {R V : Type} [ComponentPools R] [slots : ComponentSlots R V]

/-- Kept by everything the manager does to a pool: it adds chunks, writes entities, takes positions
from the free list, gives them back once they are reset, and empties the pool. -/
structure PoolLaw (Q : ArchetypePool R → Prop) : Prop where
  addChunk : ∀ pool, Q pool → Q pool.addChunk
  setEntities : ∀ pool indexes status values pool', Q pool →
    pool.setEntities indexes status values = some pool' → Q pool'
  dropFree : ∀ pool count, Q pool → Q (pool.dropFree count)
  giveBack : ∀ pool back pool', Q pool →
    (pool.insertFree back).resetEntityAtIndexes back = some pool' → Q pool'
  deleteEverything : ∀ pool, Q pool → Q pool.deleteEverything

namespace PoolLaw

open EntityManager

variable {Q : ArchetypePool R → Prop} {m m' : EntityManager R} {entityName : String}
  {status : EntityStatus}

omit [ComponentPools R] in
/-- One pool of the list changes. -/
theorem forall_set {entityPools : List (ArchetypePool R)} {pool' : ArchetypePool R} {index : Nat}
    (h : ∀ pool ∈ entityPools, Q pool) (hpool' : Q pool') :
    ∀ pool ∈ entityPools.set index pool', Q pool := by
  intro pool hpool
  rcases List.mem_or_eq_of_mem_set hpool with hmem | rfl
  · exact h pool hmem
  · exact hpool'

/-- A law that growing, writing and taking from the free list keep is kept by a creation. -/
theorem createEntities (hQ : PoolLaw Q) (h : ∀ pool ∈ m.entityPools, Q pool) (hm : m.Shaped)
    {count : Nat} {entities : List EntityRef}
    (hcreate : m.createEntities entityName count status = some (m', entities)) :
    ∀ pool ∈ m'.entityPools, Q pool := by
  obtain ⟨pool, index, grown, set, ptrGrown, ptrSet, ids, hpool, hc, rfl, -⟩ :=
    hm.createEntities_cases hcreate
  have hgrown : Q grown := ArchetypePool.growTo_rec hQ.addChunk hc.grow
    (h pool (List.mem_of_getElem? (getEntityPool_some hpool).1))
  exact forall_set h (hQ.dropFree _ _ (hQ.setEntities _ _ _ _ _ hgrown hc.write))

/-- And by a destruction in one pool. -/
theorem destroyEntitiesOf (hQ : PoolLaw Q) (h : ∀ pool ∈ m.entityPools, Q pool)
    {cPosArr : List ChunkPos} {index : Nat}
    (hdestroy : m.destroyEntitiesOf cPosArr index = some m') :
    ∀ pool ∈ m'.entityPools, Q pool := by
  obtain ⟨pool, deleted, pool', ptrPool', hpool, -, hreset, -, rfl⟩ :=
    destroyEntitiesOf_cases hdestroy
  exact forall_set h (hQ.giveBack _ _ _ (h pool (List.mem_of_getElem? hpool)) hreset)

/-- One turn of the destruction over several pools. -/
theorem giveBackOne (hQ : PoolLaw Q) {entityPools entityPools' : List (ArchetypePool R)}
    (h : ∀ pool ∈ entityPools, Q pool) {entity : EntityRef}
    (hgive : EntityManager.giveBackOne entityPools entity = some entityPools') :
    ∀ pool ∈ entityPools', Q pool := by
  obtain ⟨pool, pool', hpool, hreset, rfl⟩ := giveBackOne_cases hgive
  refine forall_set h (hQ.giveBack pool [entity.cPos] _ (h pool (List.mem_of_getElem? hpool)) ?_)
  rw [ArchetypePool.reset_insertFree, hreset, Option.map_some]

/-- The induction is on the turns: a law of pools is kept by each. -/
theorem destroyEntitiesRange (hQ : PoolLaw Q) (h : ∀ pool ∈ m.entityPools, Q pool)
    {cPosRange : List ChunkPos} (hdestroy : m.destroyEntitiesRange cPosRange = some m') :
    ∀ pool ∈ m'.entityPools, Q pool := by
  obtain ⟨deleted, poolIds, entityPools, ptrPool', -, -, hloop, -, rfl⟩ :=
    destroyEntitiesRange_cases hdestroy
  exact foldlM_giveBackOne_rec (Q := fun entityPools => ∀ pool ∈ entityPools, Q pool)
    (fun _ _ _ h hgive => hQ.giveBackOne h hgive) hloop h

end PoolLaw

include slots in
/-- All components stay of one shape. -/
theorem poolLaw_shaped : PoolLaw (ArchetypePool.Shaped (R := R)) where
  addChunk _ h := h.addChunk
  setEntities _ _ _ _ _ h hset := h.setEntities hset
  dropFree _ count h := h.dropFree count
  giveBack _ _ _ h hreset := h.giveBack hreset
  deleteEverything _ h := h.deleteEverything

end Laws

namespace EntityManager

variable {R V : Type} [ComponentPools R] [slots : ComponentSlots R V] {m m' : EntityManager R}

/-- A creation leaves every pool well shaped. -/
theorem Shaped.createEntities (h : m.Shaped) {entityName : String} {count : Nat}
    {status : EntityStatus} {entities : List EntityRef}
    (hcreate : m.createEntities entityName count status = some (m', entities)) : m'.Shaped := by
  obtain ⟨pool, index, grown, set, ptrGrown, ptrSet, ids, -, hc, rfl, -⟩ :=
    h.createEntities_cases hcreate
  exact hc.shaped_afterCreation h

include slots in
/-- A destruction by archetype does, -/
theorem Shaped.destroyEntitiesOf (h : m.Shaped) {cPosArr : List ChunkPos} {index : Nat}
    (hdestroy : m.destroyEntitiesOf cPosArr index = some m') : m'.Shaped := by
  refine ⟨poolLaw_shaped.destroyEntitiesOf h.pools hdestroy, ?_⟩
  obtain ⟨_, _, _, ptrPool', -, -, -, hreset, rfl⟩ := destroyEntitiesOf_cases hdestroy
  exact h.ptrPool.giveBack hreset

include slots in
/-- and so does one by handles. -/
theorem Shaped.destroyEntitiesRange (h : m.Shaped) {cPosRange : List ChunkPos}
    (hdestroy : m.destroyEntitiesRange cPosRange = some m') : m'.Shaped := by
  refine ⟨poolLaw_shaped.destroyEntitiesRange h.pools hdestroy, ?_⟩
  obtain ⟨_, _, _, ptrPool', -, -, -, hreset, rfl⟩ := destroyEntitiesRange_cases hdestroy
  exact h.ptrPool.giveBack hreset

/-- A system that runs changes values only. -/
theorem Same.shaped (h : m.Same m') (hm : m.Shaped) : m'.Shaped where
  pools pool' hpool' := by
    obtain ⟨index, hindex⟩ := List.mem_iff_getElem?.mp hpool'
    obtain ⟨pool, hpool, hsame⟩ := h.exists_pool' hindex
    exact hsame.shaped (hm.pools pool (List.mem_of_getElem? hpool))
  ptrPool := h.ptrPool ▸ hm.ptrPool

/-! ### Names -/

/-- The names of the pools. -/
def names (m : EntityManager R) : List String := m.entityPools.map (·.entityName)

include slots in
/-- No turn of a destruction renames a pool. -/
theorem names_giveBackOne {entityPools entityPools' : List (ArchetypePool R)} {entity : EntityRef}
    (h : giveBackOne entityPools entity = some entityPools') :
    entityPools'.map (·.entityName) = entityPools.map (·.entityName) := by
  obtain ⟨pool, pool', hpool, hreset, rfl⟩ := giveBackOne_cases h
  exact map_entityName_set hpool (ArchetypePool.resetsSlots_of_reset hreset).keeps.entityName

include slots in
/-- The pools keep their names when entities are destroyed by archetype, -/
theorem names_destroyEntitiesOf {cPosArr : List ChunkPos} {index : Nat}
    (h : m.destroyEntitiesOf cPosArr index = some m') : m'.names = m.names := by
  obtain ⟨pool, deleted, pool', ptrPool', hpool, -, hreset, -, rfl⟩ := destroyEntitiesOf_cases h
  exact map_entityName_set hpool (ArchetypePool.resetsSlots_of_reset hreset).keeps.entityName

include slots in
/-- and by handles, -/
theorem names_destroyEntitiesRange {cPosRange : List ChunkPos}
    (h : m.destroyEntitiesRange cPosRange = some m') : m'.names = m.names := by
  obtain ⟨deleted, poolIds, entityPools, ptrPool', -, -, hloop, -, rfl⟩ :=
    destroyEntitiesRange_cases h
  exact foldlM_giveBackOne_rec
    (Q := fun entityPools => entityPools.map (·.entityName) = m.entityPools.map (·.entityName))
    (fun _ _ _ hnames hgive => (names_giveBackOne hgive).trans hnames) hloop rfl

omit slots in
/-- and when entities are created, -/
theorem names_createEntities (hm : m.Shaped) {entityName : String} {count : Nat}
    {status : EntityStatus} {entities : List EntityRef}
    (h : m.createEntities entityName count status = some (m', entities)) : m'.names = m.names := by
  obtain ⟨pool, index, grown, set, ptrGrown, ptrSet, ids, hfound, hc, rfl, -⟩ :=
    hm.createEntities_cases h
  have hpool := (getEntityPool_some hfound).1
  have hgrown : grown.entityName = pool.entityName :=
    ArchetypePool.growTo_rec (Q := fun p => p.entityName = pool.entityName) (fun _ h => h)
      hc.grow rfl
  exact map_entityName_set hpool ((ArchetypePool.rest_setEntities hc.write).1.trans hgrown)

/-- and when a system runs. -/
theorem names_same (h : m.Same m') : m'.names = m.names := by
  refine List.ext_getElem? fun index => ?_
  simp only [names, List.getElem?_map]
  cases hpool : m.entityPools[index]? with
  | none =>
    have hnone : m'.entityPools[index]? = none := by
      rw [List.getElem?_eq_none_iff, h.length]
      exact List.getElem?_eq_none_iff.mp hpool
    rw [hnone]
  | some pool =>
    obtain ⟨pool', hpool', hsame⟩ := h.exists_pool hpool
    rw [hpool', Option.map_some, Option.map_some, hsame.entityName]

end EntityManager

/-! ## What a step does -/

namespace World

variable {R S V : Type} [ComponentPools R] [slots : ComponentSlots R V]
  [DecidableEq S] {statusOf : S → Option EntityStatus} {w w' : World R S} {act : Act R S V}

omit [DecidableEq S] in
/-- `addTime` runs the systems of the tree, and before them the fixed ones as often as the time asks
for. -/
theorem addTime_cases {time : ℚ} {fuel : Nat} {operate : Nat → S → ℚ → Nat → Slot V → Slot V}
    {visits : List (Visit V)} (h : w.addTime statusOf time fuel operate = some (w', visits)) :
    (∃ runs, EntityManager.runSystems w.registry.systems statusOf operate runs w.manager =
      some (w'.manager, visits)) ∧ w'.registry = w.registry ∧ w'.created = w.created := by
  obtain ⟨⟨clock, runs, count⟩, -, h⟩ := Option.bind_eq_some_iff.mp h
  obtain ⟨⟨manager, visits'⟩, hruns, h⟩ := Option.bind_eq_some_iff.mp h
  cases h
  exact ⟨⟨_, hruns⟩, rfl, rfl⟩

/-- What a step does to the pools, to what is registered and to the record. -/
inductive Change (statusOf : S → Option EntityStatus) (w : World R S) :
    Act R S V → EntityManager R → AEntityManager S Nat → List Created → Prop
  | registerEntityPool (entityName : String) (chunkSize : Nat) (others : R)
      (componentNames : List String) (nodup : componentNames.Nodup) :
      Change statusOf w (.registerEntityPool entityName chunkSize others componentNames)
        (w.manager.registerEntityPool (ArchetypePool.new entityName chunkSize others))
        ((Call.entityPool ⟨w.manager.entityPools.length, componentNames, nodup⟩).run w.registry).2
        w.created
  | register (call : Call S Nat) (hpools : call.pools = []) :
      Change statusOf w (.register call) w.manager (call.run w.registry).2 w.created
  | createEntity {entityName : String} {status : EntityStatus} {m : EntityManager R}
      {entity : EntityRef} {created : List Created}
      (hcreate : w.manager.createEntities entityName 1 status = some (m, [entity]))
      (hrecord : record m [entity] = some created) :
      Change statusOf w (.createEntity entityName status) m w.registry (w.created ++ created)
  | createEntities {entityName : String} {count : Nat} {status : EntityStatus}
      {m : EntityManager R} {entities : List EntityRef} {created : List Created}
      (hcreate : w.manager.createEntities entityName count status = some (m, entities))
      (hrecord : record m entities = some created) :
      Change statusOf w (.createEntities entityName count status) m w.registry
        (w.created ++ created)
  | destroyEntity {cPos : ChunkPos} {poolId : EntityPoolId} {m : EntityManager R}
      (hid : w.manager.entityPtrPool.others.getComponent cPos = some poolId)
      (hdestroy : w.manager.destroyEntitiesOf [cPos] poolId.toNat = some m) :
      Change statusOf w (.destroyEntity cPos) m w.registry (forget w.created [cPos])
  | destroyEntities {cPosArr : List ChunkPos} {entityName : String} {pool : ArchetypePool R}
      {index : Nat} {m : EntityManager R}
      (hfound : w.manager.getEntityPool entityName = some (pool, index))
      (hdestroy : w.manager.destroyEntitiesOf cPosArr index = some m) :
      Change statusOf w (.destroyEntities cPosArr entityName) m w.registry
        (forget w.created cPosArr)
  | destroyNothing {cPosArr : List ChunkPos} {entityName : String}
      (hfound : w.manager.getEntityPool entityName = none) :
      Change statusOf w (.destroyEntities cPosArr entityName) w.manager w.registry
        (forget w.created cPosArr)
  | destroyEntitiesRange {cPosRange : List ChunkPos} {m : EntityManager R}
      (hdestroy : w.manager.destroyEntitiesRange cPosRange = some m) :
      Change statusOf w (.destroyEntitiesRange cPosRange) m w.registry
        (forget w.created cPosRange)
  | deleteEverything :
      Change statusOf w .deleteEverything w.manager.deleteEverything w.registry []
  | addTime {time : ℚ} {fuel : Nat} {operate : Nat → S → ℚ → Nat → Slot V → Slot V}
      {w' : World R S} {visits : List (Visit V)}
      (htime : w.addTime statusOf time fuel operate = some (w', visits)) :
      Change statusOf w (.addTime time fuel operate) w'.manager w.registry w.created

/-- One entity is created as a batch of one, where the pools are such that it is. -/
theorem change_of_step_of (hone : ∀ {entityName status m entity},
      w.manager.createEntity entityName status = some (m, entity) →
        w.manager.createEntities entityName 1 status = some (m, [entity]))
    (h : step statusOf w act = some w') :
    Change statusOf w act w'.manager w'.registry w'.created := by
  cases act with
  | registerEntityPool entityName chunkSize others componentNames =>
    simp only [step] at h
    split at h
    next nodup =>
      cases h
      exact .registerEntityPool entityName chunkSize others componentNames nodup
    next => cases h
  | register call =>
    simp only [step] at h
    split at h
    next hpools =>
      cases h
      exact .register call (List.isEmpty_iff.mp hpools)
    next => cases h
  | createEntity entityName status =>
    obtain ⟨⟨m, entity⟩, hcreate, h⟩ := Option.bind_eq_some_iff.mp h
    obtain ⟨created, hrecord, h⟩ := Option.bind_eq_some_iff.mp h
    cases h
    exact .createEntity (hone hcreate) hrecord
  | createEntities entityName count status =>
    obtain ⟨⟨m, entities⟩, hcreate, h⟩ := Option.bind_eq_some_iff.mp h
    obtain ⟨created, hrecord, h⟩ := Option.bind_eq_some_iff.mp h
    cases h
    exact .createEntities hcreate hrecord
  | destroyEntity cPos =>
    obtain ⟨m, hdestroy, h⟩ := Option.bind_eq_some_iff.mp h
    obtain ⟨poolId, hid, hdestroy⟩ := Option.bind_eq_some_iff.mp hdestroy
    cases h
    exact .destroyEntity hid hdestroy
  | destroyEntities cPosArr entityName =>
    obtain ⟨m, hdestroy, h⟩ := Option.bind_eq_some_iff.mp h
    cases h
    unfold EntityManager.destroyEntities at hdestroy
    split at hdestroy
    next hfound =>
      cases hdestroy
      exact .destroyNothing hfound
    next pool index hfound => exact .destroyEntities hfound hdestroy
  | destroyEntitiesRange cPosRange =>
    obtain ⟨m, hdestroy, h⟩ := Option.bind_eq_some_iff.mp h
    cases h
    exact .destroyEntitiesRange hdestroy
  | deleteEverything =>
    cases h
    exact .deleteEverything
  | addTime time fuel operate =>
    obtain ⟨⟨w₁, visits⟩, htime, rfl⟩ := Option.map_eq_some_iff.mp h
    obtain ⟨-, hregistry, hcreated⟩ := addTime_cases htime
    rw [hregistry, hcreated]
    exact .addTime htime

/-- Everything one step can have done, from well-shaped pools on. -/
theorem change_of_step (hw : w.manager.Shaped) (h : step statusOf w act = some w') :
    Change statusOf w act w'.manager w'.registry w'.created :=
  change_of_step_of (EntityManager.createEntities_of_createEntity hw) h

/-- A law of pools is kept by a step, if it holds of the pools registered and of those that systems
have run over. -/
theorem forall_change {Q : ArchetypePool R → Prop} (hQ : PoolLaw Q) (hw : w.manager.Shaped)
    (h : ∀ pool ∈ w.manager.entityPools, Q pool) {m : EntityManager R}
    {registry : AEntityManager S Nat} {created : List Created}
    (hchange : Change statusOf w act m registry created)
    (hnew : ∀ entityName chunkSize others componentNames,
      act = .registerEntityPool entityName chunkSize others componentNames →
        Q (ArchetypePool.new entityName chunkSize others))
    (htime : ∀ time fuel operate w' visits, act = .addTime time fuel operate →
      w.addTime statusOf time fuel operate = some (w', visits) →
        ∀ pool ∈ w'.manager.entityPools, Q pool) : ∀ pool ∈ m.entityPools, Q pool := by
  cases hchange with
  | registerEntityPool entityName chunkSize others componentNames =>
    exact List.forall_mem_append.mpr
      ⟨h, List.forall_mem_singleton.mpr (hnew _ _ _ _ rfl)⟩
  | register => exact h
  | createEntity hcreate => exact hQ.createEntities h hw hcreate
  | createEntities hcreate => exact hQ.createEntities h hw hcreate
  | destroyEntity _ hdestroy => exact hQ.destroyEntitiesOf h hdestroy
  | destroyEntities _ hdestroy => exact hQ.destroyEntitiesOf h hdestroy
  | destroyNothing => exact h
  | destroyEntitiesRange hdestroy => exact hQ.destroyEntitiesRange h hdestroy
  | deleteEverything =>
    intro pool hpool
    obtain ⟨before, hbefore, rfl⟩ := List.mem_map.mp hpool
    exact hQ.deleteEverything before (h before hbefore)
  | addTime h => exact htime _ _ _ _ _ rfl h

/-! ## All pools are shaped -/

omit [DecidableEq S] in
/-- A new manager has no pool with a chunk. -/
theorem shaped_new (systems : Systems S Nat) (fixedUpdateTime : ℚ) :
    (World.new systems fixedUpdateTime : World R S).manager.Shaped where
  pools _ hpool := absurd hpool List.not_mem_nil
  ptrPool := (ArchetypePool.laid_new _ (by decide) fun _ h => List.mem_singleton.mp h).shaped

/-- No step spoils the shape of a pool. -/
theorem shaped_change (hw : w.manager.Shaped) (hfresh : FreshPools w act) {m : EntityManager R}
    {registry : AEntityManager S Nat} {created : List Created}
    (hchange : Change statusOf w act m registry created) : m.Shaped := by
  cases hchange with
  | registerEntityPool entityName chunkSize others componentNames =>
    exact ⟨List.forall_mem_append.mpr ⟨hw.pools, List.forall_mem_singleton.mpr
      (ArchetypePool.laid_new entityName hfresh.1 hfresh.2).shaped⟩, hw.ptrPool⟩
  | register => exact hw
  | createEntity hcreate => exact hw.createEntities hcreate
  | createEntities hcreate => exact hw.createEntities hcreate
  | destroyEntity _ hdestroy => exact hw.destroyEntitiesOf hdestroy
  | destroyEntities _ hdestroy => exact hw.destroyEntitiesOf hdestroy
  | destroyNothing => exact hw
  | destroyEntitiesRange hdestroy => exact hw.destroyEntitiesRange hdestroy
  | deleteEverything =>
    refine ⟨fun pool hpool => ?_, hw.ptrPool.deleteEverything⟩
    obtain ⟨before, hbefore, rfl⟩ := List.mem_map.mp hpool
    exact (hw.pools before hbefore).deleteEverything
  | addTime htime =>
    obtain ⟨⟨runs, hruns⟩, -, -⟩ := addTime_cases htime
    exact (EntityManager.same_of_runSystems hruns).shaped hw

/-- Names are given at registration, and stay. -/
theorem names_change (hw : w.manager.Shaped) {m : EntityManager R}
    {registry : AEntityManager S Nat} {created : List Created}
    (hchange : Change statusOf w act m registry created) :
    m.names = w.manager.names ++ act.newNames := by
  have hnone : act.newNames = [] → m.names = w.manager.names →
      m.names = w.manager.names ++ act.newNames := by
    intro hnew hsame
    rw [hnew, hsame, List.append_nil]
  cases hchange with
  | registerEntityPool entityName chunkSize others componentNames =>
    simp only [EntityManager.names, EntityManager.registerEntityPool, List.map_append,
      List.map_cons, List.map_nil]
    rfl
  | register => exact hnone rfl rfl
  | createEntity hcreate => exact hnone rfl (EntityManager.names_createEntities hw hcreate)
  | createEntities hcreate => exact hnone rfl (EntityManager.names_createEntities hw hcreate)
  | destroyEntity _ hdestroy => exact hnone rfl (EntityManager.names_destroyEntitiesOf hdestroy)
  | destroyEntities _ hdestroy => exact hnone rfl (EntityManager.names_destroyEntitiesOf hdestroy)
  | destroyNothing => exact hnone rfl rfl
  | destroyEntitiesRange hdestroy =>
    exact hnone rfl (EntityManager.names_destroyEntitiesRange hdestroy)
  | deleteEverything =>
    refine hnone rfl ?_
    simp [EntityManager.names, EntityManager.deleteEverything, ArchetypePool.deleteEverything]
  | addTime htime =>
    obtain ⟨⟨runs, hruns⟩, -, -⟩ := addTime_cases htime
    exact hnone rfl (EntityManager.names_same (EntityManager.same_of_runSystems hruns))

/-- And so in every run that registers fresh pools, the pools are well shaped. -/
theorem shaped_of_reach {G : World R S → Act R S V → Prop}
    (hG : ∀ w act, G w act → FreshPools w act)
    (h : (machine R S statusOf).ReachUnder G w) : w.manager.Shaped := by
  refine h.invariant (I := fun w => w.manager.Shaped) (fun w hw => ?_) fun w act w' hw hg hstep =>
    shaped_change hw (hG w act hg) (change_of_step hw hstep)
  obtain ⟨systems, fixedUpdateTime, -, -, rfl⟩ := hw
  exact shaped_new systems fixedUpdateTime

end World

end ProjectE.Ecs
