import ProjectE.Ecs.ArchetypePool

/-!
# The entity manager

Entities live in the pools of their archetypes and move nowhere, but an entity is named by a
handle, a position in the pool of entity pointers. The pointer at a handle holds the pool and the
position of the entity, and the entity holds its handle; the manager writes both when it creates and
clears both when it destroys.

`none` stands for what the code leaves undefined: a null pool, an index past the end. The references
the creating functions return are the pool's index and the position they refer to.
-/

namespace ProjectE.Ecs

open Verif

/-- `ENTITY_PTR_POOL_SIZE`: the pool of pointers grows by so many handles at a time. -/
def ENTITY_PTR_POOL_SIZE : Nat := 64

/-- `E::EntityPtr::Pool`: its one other component is the `EntityPoolId`. -/
abbrev EntityPtrPool := ArchetypePool (ComponentPool EntityPoolId)

/-- `EntityManager`, as far as entities go: the pools of the archetypes, in the order of their
registration, and the pool of the pointers to all entities. -/
structure EntityManager (R : Type) where
  entityPools : List (ArchetypePool R)
  entityPtrPool : EntityPtrPool

/-- What an `ArchetypeRef` refers to. -/
structure EntityRef where
  pool : Nat
  cPos : ChunkPos
deriving DecidableEq, Repr

namespace EntityManager

variable {R : Type}

/-- A manager with no archetype, and with a pool of pointers that has no chunk yet. -/
def new : EntityManager R where
  entityPools := []
  entityPtrPool :=
    ArchetypePool.new "EntityPtr" ENTITY_PTR_POOL_SIZE ([] : ComponentPool EntityPoolId)

/-- `registerEntityPool`: a pool's id is its place in the vector, which never changes. -/
def registerEntityPool (m : EntityManager R) (entityPool : ArchetypePool R) : EntityManager R :=
  { m with entityPools := m.entityPools ++ [entityPool] }

/-- `_getEntityPool`: the first pool of the name, and its index. -/
def getEntityPool (m : EntityManager R) (entityName : String) : Option (ArchetypePool R × Nat) :=
  m.entityPools.zipIdx.find? fun entry => entry.1.entityName = entityName

/-- `getChunkPosElem()` of an entity: its handle. -/
def getChunkPosElem (m : EntityManager R) (entity : EntityRef) : Option ChunkPos := do
  let pool ← m.entityPools[entity.pool]?
  pool.chunkPos.getComponent entity.cPos

variable [ComponentPools R]

/-! ## Creation -/

/-- `createEntity(status)`: a position is taken from each of the two free lists, after a chunk was
added where one was empty; the entity remembers the position of its pointer, and the pointer that of
the entity and the id of the pool. `none`: the pool is not there, or an index is past the end. -/
def createEntity (m : EntityManager R) (entityName : String) (status : EntityStatus) :
    Option (EntityManager R × EntityRef) := do
  let (entityPool, poolId) ← m.getEntityPool entityName
  let entityPool := if entityPool.freePos.isEmpty then entityPool.addChunk else entityPool
  let entityPtrPool :=
    if m.entityPtrPool.freePos.isEmpty then m.entityPtrPool.addChunk else m.entityPtrPool
  let nextFreePos ← entityPool.freePos.head?
  let nextFreePtrPos ← entityPtrPool.freePos.head?
  let entity ← entityPool.getRawEntity nextFreePos
  let entityPool ← entityPool.setEntity entity status nextFreePtrPos
  let entityPtr ← entityPtrPool.getRawEntity nextFreePtrPos
  let entityPtrPool ← entityPtrPool.setEntity entityPtr ENT_ALIVE nextFreePos
  let entityPoolIdPool ←
    entityPtrPool.others.setComponentAtIndex entityPtr (UInt8.ofNat poolId)
  return ({ entityPools := m.entityPools.set poolId (entityPool.dropFree 1)
            entityPtrPool := { entityPtrPool with others := entityPoolIdPool }.dropFree 1 },
    ⟨poolId, entity⟩)

/-- `createEntities(count, status)`: both pools grow until they have `count` free positions, the
first `count` of each are written crosswise, and the id of the pool is written next to them; then
they leave the free lists. `none`: the pool is not there, an index is past the end, or the loop that
grows does not end. -/
def createEntities (m : EntityManager R) (entityName : String) (count : Nat)
    (status : EntityStatus) : Option (EntityManager R × List EntityRef) := do
  let (entityPool, poolId) ← m.getEntityPool entityName
  let entityPool ← entityPool.growTo count count
  let entityPtrPool ← m.entityPtrPool.growTo count count
  let nextFreePosRange := entityPool.freePos.take count
  let nextFreePtrPosRange := entityPtrPool.freePos.take count
  let entityPool ← entityPool.setEntities nextFreePosRange status nextFreePtrPosRange
  let entityPtrPool ←
    entityPtrPool.setEntities nextFreePtrPosRange ENT_ALIVE nextFreePosRange
  let entityPoolIdPool ← entityPtrPool.others.setComponentAtIndexes nextFreePtrPosRange
    (UInt8.ofNat poolId)
  let entities ← nextFreePosRange.mapM entityPool.getRawEntity
  return ({ entityPools := m.entityPools.set poolId (entityPool.dropFree count)
            entityPtrPool := { entityPtrPool with others := entityPoolIdPool }.dropFree count },
    entities.map fun entity => ⟨poolId, entity⟩)

/-! ## Destruction -/

/-- `_destroyEntities`, with the pool's index for the pointer to it. -/
def destroyEntitiesOf (m : EntityManager R) (cPosRange : List ChunkPos) (pool : Nat) :
    Option (EntityManager R) := do
  let entityPool ← m.entityPools[pool]?
  let entityPtrPool := m.entityPtrPool.insertFree cPosRange
  let deletedcPos ← entityPtrPool.chunkPos.getComponentsAtIndexes cPosRange
  let entityPool := entityPool.insertFree deletedcPos
  let entityPtrPool ← entityPtrPool.resetEntityAtIndexes cPosRange
  let entityPool ← entityPool.resetEntityAtIndexes deletedcPos
  return { entityPools := m.entityPools.set pool entityPool, entityPtrPool := entityPtrPool }

/-- `destroyEntity`: the pool is looked up by the id stored at the handle. -/
def destroyEntity (m : EntityManager R) (cPos : ChunkPos) : Option (EntityManager R) := do
  let poolId ← m.entityPtrPool.others.getComponent cPos
  m.destroyEntitiesOf [cPos] poolId.toNat

/-- `destroyEntities(cPosArr, entityName)`: all handles are sent to the pool of this name. Without
such a pool nothing is done. -/
def destroyEntities (m : EntityManager R) (cPosArr : List ChunkPos) (entityName : String) :
    Option (EntityManager R) :=
  match m.getEntityPool entityName with
  | none => some m
  | some (_, pool) => m.destroyEntitiesOf cPosArr pool

/-- `deleteEverything`: the pools stay registered, and have no chunk. -/
def deleteEverything (m : EntityManager R) : EntityManager R where
  entityPools := m.entityPools.map fun entityPool => entityPool.deleteEverything
  entityPtrPool := m.entityPtrPool.deleteEverything

/-! ## Access -/

/-- `getEntity(entityPtr)`, the pointer being at a handle. -/
def getEntity (m : EntityManager R) (handle : ChunkPos) : Option EntityRef := do
  let poolId ← m.entityPtrPool.others.getComponent handle
  let pool ← m.entityPools[poolId.toNat]?
  let cPos ← m.entityPtrPool.chunkPos.getComponent handle
  let entity ← pool.getRawEntity cPos
  return ⟨poolId.toNat, entity⟩

/-- `getEntity(cPos)` of an archetype. -/
def getEntityOf (m : EntityManager R) (entityName : String) (handle : ChunkPos) :
    Option EntityRef := do
  let entityPtr ← m.entityPtrPool.getRawEntity handle
  let (pool, index) ← m.getEntityPool entityName
  let cPos ← m.entityPtrPool.chunkPos.getComponent entityPtr
  let entity ← pool.getRawEntity cPos
  return ⟨index, entity⟩

/-! ## Pools by name -/

variable {m : EntityManager R}

omit [ComponentPools R] in
theorem getEntityPool_some {entityName : String} {pool : ArchetypePool R} {index : Nat}
    (h : m.getEntityPool entityName = some (pool, index)) :
    m.entityPools[index]? = some pool ∧ pool.entityName = entityName := by
  have hmem := List.mem_of_find?_eq_some h
  have hname : decide (pool.entityName = entityName) = true :=
    List.find?_some (p := fun entry : ArchetypePool R × Nat =>
      decide (entry.1.entityName = entityName)) h
  exact ⟨List.mem_zipIdx_iff_getElem?.mp hmem, of_decide_eq_true hname⟩

omit [ComponentPools R] in
/-- Where no two pools have one name, a pool is found by its name. -/
theorem getEntityPool_of_getElem? (hnames : (m.entityPools.map (·.entityName)).Nodup)
    {pool : ArchetypePool R} {index : Nat} (h : m.entityPools[index]? = some pool) :
    m.getEntityPool pool.entityName = some (pool, index) := by
  cases hfind : m.getEntityPool pool.entityName with
  | none =>
    have hmem : (pool, index) ∈ m.entityPools.zipIdx := List.mem_zipIdx_iff_getElem?.mpr h
    have hnot := List.find?_eq_none.mp hfind _ hmem
    simp at hnot
  | some found =>
    obtain ⟨pool', index'⟩ := found
    obtain ⟨h', hname⟩ := getEntityPool_some hfind
    have hindex : index' = index := by
      have hlt : index' < (m.entityPools.map (·.entityName)).length := by
        rw [List.length_map]
        exact (List.getElem?_eq_some_iff.mp h').1
      refine (List.getElem?_inj hlt hnames).mp ?_
      rw [List.getElem?_map, List.getElem?_map, h, h', Option.map_some, Option.map_some, hname]
    subst hindex
    rw [h] at h'
    cases h'
    rfl

/-! ## What creation does -/

/-- A pool of pointers that grows keeps the pool ids it holds. -/
theorem getComponent_growTo {count fuel : Nat} {cPos : ChunkPos} {poolId : EntityPoolId}
    {pool pool' : EntityPtrPool} (h : ArchetypePool.growTo count fuel pool = some pool')
    (hread : pool.others.getComponent cPos = some poolId) :
    pool'.others.getComponent cPos = some poolId :=
  ArchetypePool.growTo_rec (Q := fun pool => pool.others.getComponent cPos = some poolId)
    (fun _ hread => ComponentPool.getComponent_addChunk hread _) h hread

/-- A pool of pointers in which `poolId` is written at `indexes`. -/
structure PointsTo (pool pool' : EntityPtrPool) (poolId : EntityPoolId)
    (used indexes : List ChunkPos) : Prop where
  written : ∀ cPos ∈ indexes, pool'.others.getComponent cPos = some poolId
  frame : ∀ cPos ∈ used, ∀ poolId', pool.others.getComponent cPos = some poolId' →
    pool'.others.getComponent cPos = some poolId'

/-- **Creation answers, for any count**: it gives out as many positions in the entity's pool and as
many handles, each written with the other, and writes the pool's index at the handles. -/
theorem createEntities_spec {entityName : String} {pool : ArchetypePool R} {index : Nat}
    {used usedPtr : List ChunkPos} (hpool : m.getEntityPool entityName = some (pool, index))
    (hlaid : pool.Laid used) (hptr : m.entityPtrPool.Laid usedPtr) (count : Nat)
    (status : EntityStatus) :
    ∃ pool' ptrPool' cPosArr handles,
      m.createEntities entityName count status = some (⟨m.entityPools.set index pool', ptrPool'⟩,
        cPosArr.map fun cPos => ⟨index, cPos⟩) ∧
      cPosArr.length = count ∧ handles.length = count ∧
      ArchetypePool.Gives pool pool' used cPosArr handles ∧
      ArchetypePool.Gives m.entityPtrPool ptrPool' usedPtr handles cPosArr ∧
      PointsTo m.entityPtrPool ptrPool' (UInt8.ofNat index) usedPtr handles := by
  obtain ⟨grown, hgrow, hgrown, hgrows, hfree⟩ := hlaid.growTo (Nat.le_add_left count _)
  obtain ⟨ptrGrown, hptrGrow, hptrGrown, hptrGrows, hptrFree⟩ :=
    hptr.growTo (Nat.le_add_left count _)
  have hlen : (grown.freePos.take count).length = count := List.length_take_of_le hfree
  have hptrLen : (ptrGrown.freePos.take count).length = count := List.length_take_of_le hptrFree
  obtain ⟨pool', hset, -, hgives⟩ :=
    hgrows.gives hgrown count status (hlen.trans hptrLen.symm)
  obtain ⟨ptrPool', hptrSet, hptrOthers, hptrGives⟩ :=
    hptrGrows.gives hptrGrown count ENT_ALIVE (hptrLen.trans hlen.symm)
  -- The ids are written over the handles, which are positions of the grown pool.
  have hcells : ∀ cPos ∈ ptrGrown.freePos.take count,
      cPos ∈ Grid.cells (Grid.layout ptrPool'.others) := by
    intro cPos hcPos
    rw [hptrOthers, hptrGrown.uniform (Grid.layout ptrGrown.others) (List.mem_append_left _ (by
      exact List.mem_cons_self))]
    exact hptrGrown.places.mem_of_mem_free (List.mem_of_mem_take hcPos)
  obtain ⟨ids, hids⟩ := Option.isSome_iff_exists.mp
    (ComponentPool.isSome_setComponentAtIndexes ptrPool'.others hcells (UInt8.ofNat index))
  have hlayouts : Grid.layout ids = Grid.layout ptrPool'.others :=
    ComponentPool.layout_setComponentAtIndexes hids
  have hraw : (grown.freePos.take count).mapM pool'.getRawEntity =
      some ((grown.freePos.take count).map id) :=
    Grid.mapM_eq_some_map fun cPos hcPos =>
      ArchetypePool.getRawEntity_of_uniform hgives.laid.uniform
        (hgives.laid.mem_cells_of_mem_used (List.mem_append_right _ hcPos))
  have hptrGives' := hptrGives.setOthers (congrArg ([·]) hlayouts)
  refine ⟨_, _, grown.freePos.take count, ptrGrown.freePos.take count, ?_, hlen, hptrLen, hgives,
    hptrGives', ?_, ?_⟩
  · simp only [createEntities, hpool, hgrow, hptrGrow, hset, hptrSet, hids, hraw, List.map_id,
      Option.bind_eq_bind, Option.bind_some]
    rfl
  · intro cPos hcPos
    exact ComponentPool.getComponent_setComponentAtIndexes_of_mem hids
      (hptrGrown.nodup_freePos.sublist (List.take_sublist _ _)) hcPos
  · intro cPos hused poolId hread
    have hnot : cPos ∉ ptrGrown.freePos.take count := by
      intro hmem
      exact hptrGrown.notMem_used (List.mem_of_mem_take hmem) hused
    exact (ComponentPool.getComponent_setComponentAtIndexes hids hnot).trans
      (hptrOthers ▸ getComponent_growTo hptrGrow hread)

/-! ## What destruction does -/

theorem destroyEntitiesOf_cases {cPosArr : List ChunkPos} {index : Nat} {m' : EntityManager R}
    (h : m.destroyEntitiesOf cPosArr index = some m') :
    ∃ pool deleted pool' ptrPool', m.entityPools[index]? = some pool ∧
      m.entityPtrPool.chunkPos.getComponentsAtIndexes cPosArr = some deleted ∧
      (pool.insertFree deleted).resetEntityAtIndexes deleted = some pool' ∧
      (m.entityPtrPool.insertFree cPosArr).resetEntityAtIndexes cPosArr = some ptrPool' ∧
      m' = ⟨m.entityPools.set index pool', ptrPool'⟩ := by
  obtain ⟨pool, hpool, h⟩ := Option.bind_eq_some_iff.mp h
  obtain ⟨deleted, hdeleted, h⟩ := Option.bind_eq_some_iff.mp h
  obtain ⟨ptrPool', hptrReset, h⟩ := Option.bind_eq_some_iff.mp h
  obtain ⟨pool', hreset, h⟩ := Option.bind_eq_some_iff.mp h
  cases h
  exact ⟨pool, deleted, pool', ptrPool', hpool, hdeleted, hreset, hptrReset, rfl⟩

/-- **Destruction answers**: the handles and the positions stored at them are given back, and
nothing else changes. -/
theorem destroyEntitiesOf_spec {pool : ArchetypePool R} {index : Nat}
    {cPosArr deleted left leftPtr used usedPtr : List ChunkPos}
    (hpool : m.entityPools[index]? = some pool) (hlaid : pool.Laid used)
    (hptr : m.entityPtrPool.Laid usedPtr) (hused : used.Perm (deleted ++ left))
    (husedPtr : usedPtr.Perm (cPosArr ++ leftPtr))
    (hdeleted : m.entityPtrPool.chunkPos.getComponentsAtIndexes cPosArr = some deleted) :
    ∃ pool' ptrPool',
      m.destroyEntitiesOf cPosArr index = some ⟨m.entityPools.set index pool', ptrPool'⟩ ∧
      pool'.Laid left ∧ ptrPool'.Laid leftPtr ∧
      ArchetypePool.Resets (pool.insertFree deleted) pool' deleted ∧
      ArchetypePool.Resets (m.entityPtrPool.insertFree cPosArr) ptrPool' cPosArr ∧
      ∀ cPos ∉ cPosArr, ptrPool'.others.getComponent cPos =
        m.entityPtrPool.others.getComponent cPos := by
  obtain ⟨ptrPool', hptrReset, hptrResets, hptrLaid, hothers⟩ := hptr.destroy husedPtr
  obtain ⟨pool', hreset, hresets, hlaid', -⟩ := hlaid.destroy hused
  refine ⟨pool', ptrPool', ?_, hlaid', hptrLaid, hresets, hptrResets, fun cPos hcPos => ?_⟩
  · have hread : (m.entityPtrPool.insertFree cPosArr).chunkPos.getComponentsAtIndexes cPosArr =
        some deleted := hdeleted
    simp only [destroyEntitiesOf, hpool, hread, hptrReset, hreset, Option.bind_eq_bind,
      Option.bind_some]
    rfl
  · exact ComponentPool.getComponent_setComponentAtIndexes hothers hcPos

/-! ## One entity and many -/

/-- Creating one entity is creating a batch of one. -/
theorem createEntity_of_createEntities {entityName : String} {status : EntityStatus}
    {pool : ArchetypePool R} {index : Nat} {used usedPtr : List ChunkPos} {m' : EntityManager R}
    {entity : EntityRef} (hpool : m.getEntityPool entityName = some (pool, index))
    (hlaid : pool.Laid used) (hptr : m.entityPtrPool.Laid usedPtr)
    (h : m.createEntities entityName 1 status = some (m', [entity])) :
    m.createEntity entityName status = some (m', entity) := by
  obtain ⟨grown, hgrown, hlaid', -, hfree⟩ := hlaid.growTo (Nat.le_add_left 1 _)
  obtain ⟨grownPtr, hgrownPtr, hptrLaid, -, hfreePtr⟩ := hptr.growTo (Nat.le_add_left 1 _)
  have hpool' := hlaid.growTo_one.symm.trans hgrown
  have hptr' := hptr.growTo_one.symm.trans hgrownPtr
  obtain ⟨nextFreePos, rest, hnext⟩ := List.exists_cons_of_length_pos hfree
  obtain ⟨nextFreePtrPos, restPtr, hnextPtr⟩ := List.exists_cons_of_length_pos hfreePtr
  simp only [createEntities, hpool, hgrown, hgrownPtr, Option.bind_eq_bind, Option.bind_some, hnext,
    hnextPtr, List.take_succ_cons, List.take_zero] at h
  simp only [createEntity, hpool, Option.some.inj hpool', Option.some.inj hptr',
    Option.bind_eq_bind, Option.bind_some, hnext, hnextPtr, List.head?_cons]
  have hraw : grown.getRawEntity nextFreePos = some nextFreePos :=
    ArchetypePool.getRawEntity_of_uniform hlaid'.uniform
      (hlaid'.places.mem_of_mem_free (by simp [hnext]))
  have hrawPtr : grownPtr.getRawEntity nextFreePtrPos = some nextFreePtrPos :=
    ArchetypePool.getRawEntity_of_uniform hptrLaid.uniform
      (hptrLaid.places.mem_of_mem_free (by simp [hnextPtr]))
  simp only [ArchetypePool.setEntities_singleton] at h
  obtain ⟨entityPool, hset, h⟩ := Option.bind_eq_some_iff.mp h
  obtain ⟨entityPtrPool, hsetPtr, h⟩ := Option.bind_eq_some_iff.mp h
  obtain ⟨entityPoolIdPool, hid, h⟩ := Option.bind_eq_some_iff.mp h
  obtain ⟨entities, hentities, h⟩ := Option.bind_eq_some_iff.mp h
  rw [ComponentPool.setComponentAtIndexes_singleton] at hid
  simp only [hraw, hrawPtr, hset, hsetPtr, hid, Option.bind_some]
  simp only [List.mapM_cons, List.mapM_nil, Option.bind_eq_bind,
    Option.bind_eq_some_iff] at hentities
  obtain ⟨entity', hentity, rest', hrest, hcons⟩ := hentities
  cases hrest
  cases hcons
  cases ArchetypePool.eq_of_getRawEntity hentity
  cases h
  rfl

end EntityManager

end ProjectE.Ecs
