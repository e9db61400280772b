import Mathlib.Data.List.Dedup
import ProjectE.Ecs.Allocation

/-!
# Destroying what is not there

The functions that destroy never ask whether a handle is live. Whatever they are given goes to the
free list of the pointers, and the position stored at it to the free list of a pool; a dead handle
stores the default, position `(0, 0)` of pool 0, which is a position like any other. So a dead
handle is never destroyed without a trace, a repeated one counts as often as it is repeated, and the
free lists stay right exactly if the handles are live and different.

`destroyEntitiesRange` is the overload that looks every pool up; `GivesBack` is what the three
functions have in common.
-/

namespace ProjectE.Ecs

open Verif

variable {R : Type}

namespace EntityManager

variable [ComponentPools R]

/-- The body of the loop over the positions found. -/
def giveBackOne (entityPools : List (ArchetypePool R)) (entity : EntityRef) :
    Option (List (ArchetypePool R)) := do
  let entityPool ← entityPools[entity.pool]?
  let entityPool ← entityPool.resetEntityAtIndexes [entity.cPos]
  return entityPools.set entity.pool (entityPool.insertFree [entity.cPos])

/-- `destroyEntities(cPosRange)`: the handles are free before their pointers are read. What is read
is then reset and freed entity by entity, each in the pool of its id, and the pointers are reset
last. -/
def destroyEntitiesRange (m : EntityManager R) (cPosRange : List ChunkPos) :
    Option (EntityManager R) := do
  let entityPtrPool := m.entityPtrPool.insertFree cPosRange
  let deletedcPos ← entityPtrPool.chunkPos.getComponentsAtIndexes cPosRange
  let poolIds ← entityPtrPool.others.getComponentsAtIndexes cPosRange
  let entities := (poolIds.zip deletedcPos).map fun e => (⟨e.1.toNat, e.2⟩ : EntityRef)
  let entityPools ← entities.foldlM giveBackOne m.entityPools
  let entityPtrPool ← entityPtrPool.resetEntityAtIndexes cPosRange
  return { entityPools := entityPools, entityPtrPool := entityPtrPool }

/-- What destroying does to the free lists: the handles go to the pointers' list, the positions
stored at them to the lists of the pools in `sent`. -/
structure GivesBack (m m' : EntityManager R) (cPosArr : List ChunkPos) (sent : List EntityRef) :
    Prop where
  stored : m.entityPtrPool.chunkPos.getComponentsAtIndexes cPosArr = some (sent.map (·.cPos))
  ptrPool : m'.entityPtrPool.freePos = m.entityPtrPool.freePos ++ cPosArr
  length : m'.entityPools.length = m.entityPools.length
  pools : ∀ (index : Nat) (pool' : ArchetypePool R), m'.entityPools[index]? = some pool' →
    ∃ pool, m.entityPools[index]? = some pool ∧
      pool'.freePos = pool.freePos ++ (sent.filter (·.pool = index)).map (·.cPos)

end EntityManager

namespace ArchetypePool

variable [ComponentPools R] {pool pool' : ArchetypePool R}

/-- Where a reset answers, the positions are the pool's, and its free list is left alone. -/
theorem of_resetEntityAtIndexes {indexes : List ChunkPos}
    (h : pool.resetEntityAtIndexes indexes = some pool') :
    pool'.freePos = pool.freePos ∧ ∀ index ∈ indexes, index ∈ Grid.cells pool.shape := by
  obtain ⟨others, -, h⟩ := Option.bind_eq_some_iff.mp h
  obtain ⟨chunkPos, hchunkPos, h⟩ := Option.bind_eq_some_iff.mp h
  obtain ⟨entityStatus, -, h⟩ := Option.bind_eq_some_iff.mp h
  cases h
  refine ⟨rfl, fun index hindex => ?_⟩
  have hcells := Grid.mem_cells_of_writeEach hchunkPos
  exact hcells _ (List.mem_map_of_mem (f := fun index => (index, Component.empty)) hindex)

end ArchetypePool

namespace EntityManager

variable [ComponentPools R] {m m' : EntityManager R} {cPosArr : List ChunkPos}

/-- One turn of the loop: the position is reset in its pool and put at the end of that pool's free
list. -/
theorem giveBackOne_cases {entityPools entityPools' : List (ArchetypePool R)} {entity : EntityRef}
    (h : giveBackOne entityPools entity = some entityPools') :
    ∃ pool pool', entityPools[entity.pool]? = some pool ∧
      pool.resetEntityAtIndexes [entity.cPos] = some pool' ∧
      entityPools' = entityPools.set entity.pool (pool'.insertFree [entity.cPos]) := by
  obtain ⟨pool, hpool, h⟩ := Option.bind_eq_some_iff.mp h
  obtain ⟨pool', hreset, h⟩ := Option.bind_eq_some_iff.mp h
  cases h
  exact ⟨pool, pool', hpool, hreset, rfl⟩

/-- What giving one position back keeps, the loop keeps. -/
theorem foldlM_giveBackOne_rec {Q : List (ArchetypePool R) → Prop}
    (hone : ∀ entityPools entity entityPools', Q entityPools →
      giveBackOne entityPools entity = some entityPools' → Q entityPools')
    {sent : List EntityRef} {entityPools entityPools' : List (ArchetypePool R)}
    (h : sent.foldlM giveBackOne entityPools = some entityPools') (hQ : Q entityPools) :
    Q entityPools' := by
  induction sent generalizing entityPools with
  | nil =>
    cases h
    exact hQ
  | cons entity sent ih =>
    rw [List.foldlM_cons] at h
    obtain ⟨entityPools₁, hfirst, h⟩ := Option.bind_eq_some_iff.mp h
    exact ih h (hone _ _ _ hQ hfirst)

/-- What `destroyEntities(cPosRange)` has read and made where it answers. -/
theorem destroyEntitiesRange_cases (h : m.destroyEntitiesRange cPosArr = some m') :
    ∃ deleted poolIds entityPools ptrPool',
      m.entityPtrPool.chunkPos.getComponentsAtIndexes cPosArr = some deleted ∧
      m.entityPtrPool.others.getComponentsAtIndexes cPosArr = some poolIds ∧
      ((poolIds.zip deleted).map fun e => (⟨e.1.toNat, e.2⟩ : EntityRef)).foldlM giveBackOne
        m.entityPools = some entityPools ∧
      (m.entityPtrPool.insertFree cPosArr).resetEntityAtIndexes cPosArr = some ptrPool' ∧
      m' = ⟨entityPools, ptrPool'⟩ := by
  obtain ⟨deleted, hdeleted, h⟩ := Option.bind_eq_some_iff.mp h
  obtain ⟨poolIds, hids, h⟩ := Option.bind_eq_some_iff.mp h
  obtain ⟨entityPools, hloop, h⟩ := Option.bind_eq_some_iff.mp h
  obtain ⟨ptrPool', hptrReset, h⟩ := Option.bind_eq_some_iff.mp h
  cases h
  exact ⟨deleted, poolIds, entityPools, ptrPool', hdeleted, hids, hloop, hptrReset, rfl⟩

/-- The function that is told the archetype sends every position to that archetype's pool, whichever
pool it came from. -/
theorem givesBack_destroyEntitiesOf {index : Nat}
    (h : m.destroyEntitiesOf cPosArr index = some m') :
    ∃ (pool : ArchetypePool R) (deleted : List ChunkPos), m.entityPools[index]? = some pool ∧
      (∀ cPos ∈ deleted, cPos ∈ Grid.cells pool.shape) ∧
      GivesBack m m' cPosArr (deleted.map fun cPos => ⟨index, cPos⟩) := by
  obtain ⟨pool, deleted, pool', ptrPool', hpool, hdeleted, hreset, hptr, rfl⟩ :=
    destroyEntitiesOf_cases h
  obtain ⟨hfree, hcells⟩ := ArchetypePool.of_resetEntityAtIndexes hreset
  refine ⟨pool, deleted, hpool, hcells, ?_, (ArchetypePool.of_resetEntityAtIndexes hptr).1,
    List.length_set, fun other pool₁ hpool₁ => ?_⟩
  · rw [List.map_map]
    exact hdeleted.trans (congrArg some (List.map_id _).symm)
  · by_cases hother : other = index
    · subst hother
      rw [List.getElem?_set_self (List.getElem?_eq_some_iff.mp hpool).1] at hpool₁
      cases hpool₁
      refine ⟨pool, hpool, ?_⟩
      rw [hfree, List.filter_eq_self.mpr, List.map_map]
      · exact congrArg (pool.freePos ++ ·) (List.map_id _).symm
      · intro entity hentity
        obtain ⟨cPos, -, rfl⟩ := List.mem_map.mp hentity
        exact decide_eq_true rfl
    · rw [List.getElem?_set_ne (Ne.symm hother)] at hpool₁
      refine ⟨pool₁, hpool₁, ?_⟩
      rw [List.filter_eq_nil_iff.mpr, List.map_nil, List.append_nil]
      intro entity hentity heq
      obtain ⟨cPos, -, rfl⟩ := List.mem_map.mp hentity
      exact hother (of_decide_eq_true heq).symm

/-- After the loop each pool has at the end of its free list the positions sent to it, in the order
of the loop. -/
theorem foldlM_giveBackOne : ∀ {sent : List EntityRef} {pools pools' : List (ArchetypePool R)},
    sent.foldlM giveBackOne pools = some pools' →
    pools'.length = pools.length ∧
      ∀ (index : Nat) (pool' : ArchetypePool R), pools'[index]? = some pool' →
        ∃ pool, pools[index]? = some pool ∧
          pool'.freePos = pool.freePos ++ (sent.filter (·.pool = index)).map (·.cPos)
  | [], pools, pools', h => by
    cases h
    refine ⟨rfl, fun index pool' hpool' => ⟨pool', hpool', ?_⟩⟩
    rw [List.filter_nil, List.map_nil, List.append_nil]
  | entity :: sent, pools, pools', h => by
    rw [List.foldlM_cons] at h
    obtain ⟨pools₁, hone, h⟩ := Option.bind_eq_some_iff.mp h
    obtain ⟨pool, reset, hpool, hreset, rfl⟩ := giveBackOne_cases hone
    obtain ⟨hlength, hpools⟩ := foldlM_giveBackOne h
    refine ⟨hlength.trans List.length_set, fun index pool' hpool' => ?_⟩
    obtain ⟨pool₁, hpool₁, hfree⟩ := hpools index pool' hpool'
    by_cases hindex : index = entity.pool
    · subst hindex
      rw [List.getElem?_set_self (List.getElem?_eq_some_iff.mp hpool).1] at hpool₁
      cases hpool₁
      refine ⟨pool, hpool, ?_⟩
      rw [hfree, List.filter_cons_of_pos (by simp), List.map_cons]
      show (reset.freePos ++ [entity.cPos]) ++ _ = _
      rw [(ArchetypePool.of_resetEntityAtIndexes hreset).1, List.append_assoc,
        List.singleton_append]
    · rw [List.getElem?_set_ne (Ne.symm hindex)] at hpool₁
      refine ⟨pool₁, hpool₁, ?_⟩
      rw [hfree, List.filter_cons_of_neg]
      intro heq
      exact hindex (of_decide_eq_true heq).symm

/-- `destroyEntity` sends the one position stored to the pool whose id is stored with it. -/
theorem givesBack_destroyEntity {cPos : ChunkPos} (h : m.destroyEntity cPos = some m') :
    ∃ poolId position, m.entityPtrPool.others.getComponent cPos = some poolId ∧
      GivesBack m m' [cPos] [⟨poolId.toNat, position⟩] := by
  obtain ⟨poolId, hid, h⟩ := Option.bind_eq_some_iff.mp h
  obtain ⟨pool, deleted, -, -, hback⟩ := givesBack_destroyEntitiesOf h
  have hlength := (Grid.forall₂_of_mapM hback.stored).length_eq
  rw [List.length_map, List.length_map] at hlength
  obtain ⟨position, rfl⟩ := List.length_eq_one_iff.mp hlength.symm
  exact ⟨poolId, position, hid, hback⟩

/-- The overload without a name sends each position to the pool whose id is stored with it. -/
theorem givesBack_destroyEntitiesRange (h : m.destroyEntitiesRange cPosArr = some m') :
    ∃ poolIds deleted, m.entityPtrPool.others.getComponentsAtIndexes cPosArr = some poolIds ∧
      m.entityPtrPool.chunkPos.getComponentsAtIndexes cPosArr = some deleted ∧
      GivesBack m m' cPosArr
        ((poolIds.zip deleted).map fun e => (⟨e.1.toNat, e.2⟩ : EntityRef)) := by
  obtain ⟨deleted, poolIds, entityPools, ptrPool', hdeleted, hids, hloop, hptr, rfl⟩ :=
    destroyEntitiesRange_cases h
  have hlength : deleted.length = poolIds.length :=
    (Grid.forall₂_of_mapM hdeleted).length_eq.symm.trans (Grid.forall₂_of_mapM hids).length_eq
  obtain ⟨hpools, hfree⟩ := foldlM_giveBackOne hloop
  refine ⟨poolIds, deleted, hids, hdeleted, ?_, (ArchetypePool.of_resetEntityAtIndexes hptr).1,
    hpools, hfree⟩
  rw [List.map_map]
  exact hdeleted.trans (congrArg some (List.map_snd_zip (Nat.le_of_eq hlength)).symm)

/-! ## No destruction is without a trace -/

omit [ComponentPools R] in
/-- The free list of the pointers tells which handles were destroyed, repetitions included. -/
theorem GivesBack.cPosArr_eq {cPosArr' : List ChunkPos} {sent sent' : List EntityRef}
    (h : GivesBack m m' cPosArr sent) (h' : GivesBack m m' cPosArr' sent') :
    cPosArr = cPosArr' := List.append_cancel_left (h.ptrPool.symm.trans h'.ptrPool)

/-- Destroying a handle, dead or live, makes the pointers' free list longer. -/
theorem destroyEntity_ne_self (m : EntityManager R) (cPos : ChunkPos) :
    m.destroyEntity cPos ≠ some m := by
  intro h
  obtain ⟨_, _, -, hback⟩ := givesBack_destroyEntity h
  have hnil : m.entityPtrPool.freePos ++ [cPos] = m.entityPtrPool.freePos := hback.ptrPool.symm
  exact List.cons_ne_nil _ _ (List.append_right_eq_self.mp hnil)

/-- What is repeated counts as often as it is repeated. -/
theorem destroyEntities_dedup_iff {entityName : String} {pool : ArchetypePool R} {index : Nat}
    (hpool : m.getEntityPool entityName = some (pool, index))
    (h : m.destroyEntities cPosArr entityName = some m') :
    m.destroyEntities cPosArr.dedup entityName = some m' ↔ cPosArr.Nodup := by
  constructor
  · intro hdedup
    simp only [destroyEntities, hpool] at h hdedup
    obtain ⟨_, _, -, -, hback⟩ := givesBack_destroyEntitiesOf h
    obtain ⟨_, _, -, -, hback'⟩ := givesBack_destroyEntitiesOf hdedup
    rw [hback.cPosArr_eq hback']
    exact List.nodup_dedup cPosArr
  · intro hnodup
    rwa [List.dedup_eq_self.mpr hnodup]

/-- So it is for the overload that looks every pool up. -/
theorem destroyEntitiesRange_dedup_iff (h : m.destroyEntitiesRange cPosArr = some m') :
    m.destroyEntitiesRange cPosArr.dedup = some m' ↔ cPosArr.Nodup := by
  constructor
  · intro hdedup
    obtain ⟨_, _, -, -, hback⟩ := givesBack_destroyEntitiesRange h
    obtain ⟨_, _, -, -, hback'⟩ := givesBack_destroyEntitiesRange hdedup
    rw [hback.cPosArr_eq hback']
    exact List.nodup_dedup cPosArr
  · intro hnodup
    rwa [List.dedup_eq_self.mpr hnodup]

end EntityManager

/-! ## When the free lists stay right -/

/-- No position is twice in a free list, and none of a live entity is in one. A list that is not
right gives the same position to two entities, or one that is in use. -/
structure FreeListsOk (s : State R) : Prop where
  nodup_ptr : s.manager.entityPtrPool.freePos.Nodup
  nodup : ∀ pool ∈ s.manager.entityPools, pool.freePos.Nodup
  handles : ∀ c ∈ s.created, c.handle ∉ s.manager.entityPtrPool.freePos
  entities : ∀ c ∈ s.created, ∀ pool, s.manager.entityPools[c.entity.pool]? = some pool →
    c.entity.cPos ∉ pool.freePos

section Lists

open EntityManager

variable [ComponentPools R] {s : State R} {m' : EntityManager R} {cPosArr : List ChunkPos}
  {sent : List EntityRef} {created : List Created}

omit [ComponentPools R] in
/-- Handles that may be destroyed are live and different. -/
theorem live_of_freeListsOk (hback : GivesBack s.manager m' cPosArr sent)
    (hok : FreeListsOk ⟨m', created⟩) :
    cPosArr.Nodup ∧ ∀ cPos ∈ cPosArr, cPos ∈ s.manager.entityPtrPool.live := by
  have hnodup := hok.nodup_ptr
  rw [hback.ptrPool] at hnodup
  refine ⟨hnodup.of_append_right, fun cPos hcPos =>
    ArchetypePool.mem_live.mpr ⟨?_, fun hfree => ?_⟩⟩
  · obtain ⟨position, hread⟩ := Grid.exists_of_mapM hback.stored hcPos
    exact Grid.isSome_read_iff.mp (Option.isSome_iff_exists.mpr ⟨position, hread⟩)
  · exact List.disjoint_of_nodup_append hnodup hfree hcPos

/-- Live handles are those of entities recorded. -/
theorem Inv.exists_created_map (h : Inv s) : ∀ {cPosArr : List ChunkPos},
    (∀ cPos ∈ cPosArr, cPos ∈ s.manager.entityPtrPool.live) →
      ∃ gone : List Created, gone.map Created.handle = cPosArr ∧ ∀ c ∈ gone, c ∈ s.created
  | [], _ => ⟨[], rfl, fun _ hc => absurd hc List.not_mem_nil⟩
  | cPos :: cPosArr, hlive => by
    obtain ⟨gone, hmap, hgone⟩ := Inv.exists_created_map h fun cPos' hcPos' =>
      hlive cPos' (List.mem_cons_of_mem _ hcPos')
    obtain ⟨c, hc, rfl⟩ := h.exists_created (hlive cPos List.mem_cons_self)
    exact ⟨c :: gone, by rw [List.map_cons, hmap], List.forall_mem_cons.mpr ⟨hc, hgone⟩⟩

/-- The positions stored at live handles are those of their entities. -/
theorem Inv.getComponentsAtIndexes (h : Inv s) {gone : List Created}
    (hgone : ∀ c ∈ gone, c ∈ s.created) :
    s.manager.entityPtrPool.chunkPos.getComponentsAtIndexes (gone.map Created.handle) =
        some (gone.map fun c => c.entity.cPos) ∧
      s.manager.entityPtrPool.others.getComponentsAtIndexes (gone.map Created.handle) =
        some (gone.map fun c => UInt8.ofNat c.entity.pool) := by
  constructor
  · rw [ComponentPool.getComponentsAtIndexes, List.mapM_map]
    exact Grid.mapM_eq_some_map fun c hc => (h.stored c (hgone c hc)).cPos
  · rw [ComponentPool.getComponentsAtIndexes, List.mapM_map]
    exact Grid.mapM_eq_some_map fun c hc => (h.stored c (hgone c hc)).poolId

/-- Live and different handles, each position sent to its own pool. -/
theorem Inv.freeListsOk_of_gone (h : Inv s) {gone : List Created}
    (hgone : ∀ c ∈ gone, c ∈ s.created) (hnodup : (gone.map Created.handle).Nodup)
    (hback : GivesBack s.manager m' (gone.map Created.handle) (gone.map Created.entity)) :
    FreeListsOk ⟨m', forget s.created (gone.map Created.handle)⟩ := by
  have hperm := perm_forget h.ptrPool.nodup_used hgone hnodup
  have hptr := hperm.map Created.handle
  rw [List.map_append] at hptr
  have hhandles := h.ptrPool.places.giveBack hptr
  have hpools : ∀ (index : Nat) (pool' : ArchetypePool R), m'.entityPools[index]? = some pool' →
      ∃ pool : ArchetypePool R, Partition pool'.freePos
        (positions (forget s.created (gone.map Created.handle)) index) (Grid.cells pool.shape) := by
    intro index pool' hpool'
    obtain ⟨pool, hpool, hfree⟩ := hback.pools index pool' hpool'
    have hused : (positions s.created index).Perm _ := positions_perm hperm
    rw [positions_append] at hused
    refine ⟨pool, ?_⟩
    rw [hfree, List.filter_map, List.map_map]
    exact (h.pools index pool hpool).places.giveBack hused
  refine ⟨?_, fun pool' hpool' => ?_, fun c hc => ?_, fun c hc pool' hpool' => ?_⟩
  · rw [hback.ptrPool]
    exact hhandles.nodup_free (Grid.nodup_cells _)
  · obtain ⟨index, hindex⟩ := List.mem_iff_getElem?.mp hpool'
    obtain ⟨_, hplaces⟩ := hpools index pool' hindex
    exact hplaces.nodup_free (Grid.nodup_cells _)
  · rw [hback.ptrPool]
    exact ((hhandles.mem_used_iff (Grid.nodup_cells _)).mp (List.mem_map_of_mem hc)).2
  · obtain ⟨_, hplaces⟩ := hpools _ pool' hpool'
    exact ((hplaces.mem_used_iff (Grid.nodup_cells _)).mp (mem_positions.mpr ⟨c, hc, rfl⟩)).2

/-- Positions sent to one pool were that pool's: a position of another pool would be free there, or
somebody's, or sent twice. -/
theorem Inv.pool_eq_of_freeListsOk (h : Inv s) {index : Nat} {pool : ArchetypePool R}
    (hpool : s.manager.entityPools[index]? = some pool) {deleted : List ChunkPos}
    (hcells : ∀ cPos ∈ deleted, cPos ∈ Grid.cells pool.shape) {gone : List Created}
    (hgone : ∀ c ∈ gone, c ∈ s.created)
    (hback : GivesBack s.manager m' (gone.map Created.handle)
      (deleted.map fun cPos => ⟨index, cPos⟩))
    (hok : FreeListsOk ⟨m', forget s.created (gone.map Created.handle)⟩) :
    ∀ c ∈ gone, c.entity.pool = index := by
  have hdeleted : deleted = gone.map fun c => c.entity.cPos := by
    have hstored := hback.stored
    rw [(h.getComponentsAtIndexes hgone).1, List.map_map, Option.some.injEq] at hstored
    exact (hstored.trans (List.map_id _)).symm
  obtain ⟨pool', hpool'⟩ : ∃ pool', m'.entityPools[index]? = some pool' := by
    have hlt := (List.getElem?_eq_some_iff.mp hpool).1
    rw [← hback.length] at hlt
    exact ⟨_, List.getElem?_eq_getElem hlt⟩
  have hfree : pool'.freePos = pool.freePos ++ deleted := by
    obtain ⟨pool₁, hpool₁, hfree⟩ := hback.pools index pool' hpool'
    cases hpool.symm.trans hpool₁
    rw [hfree, List.filter_eq_self.mpr, List.map_map]
    · exact congrArg (pool.freePos ++ ·) (List.map_id _)
    · intro entity hentity
      obtain ⟨cPos, -, rfl⟩ := List.mem_map.mp hentity
      exact decide_eq_true rfl
  have hnodup := hok.nodup pool' (List.mem_of_getElem? hpool')
  rw [hfree] at hnodup
  intro c hc
  by_contra hne
  have hmem : c.entity.cPos ∈ deleted := by
    rw [hdeleted]
    exact List.mem_map_of_mem hc
  have hnot : c.entity.cPos ∉ pool.freePos := by
    intro hfree
    exact List.disjoint_of_nodup_append hnodup hfree hmem
  obtain ⟨c', hc', hentity⟩ := mem_positions.mp
    (((h.pools index pool hpool).places.mem_used_iff (Grid.nodup_cells _)).mpr
      ⟨hcells _ hmem, hnot⟩)
  by_cases hhandle : c'.handle ∈ gone.map Created.handle
  · -- the entity at that position is destroyed too, and sends the position once more
    obtain ⟨c'', hc'', heq⟩ := List.mem_map.mp hhandle
    have hsame : c'' = c' := List.inj_on_of_nodup_map h.ptrPool.nodup_used (hgone c'' hc'') hc' heq
    rw [hdeleted] at hnodup
    have hposition : c''.entity.cPos = c.entity.cPos := by
      rw [hsame, hentity]
    have hc'c : c'' = c := List.inj_on_of_nodup_map hnodup.of_append_right hc'' hc hposition
    apply hne
    rw [← hc'c, hsame, hentity]
  · have hpool'' : m'.entityPools[c'.entity.pool]? = some pool' := by rw [hentity, hpool']
    have hleft := hok.entities c' (mem_forget.mpr ⟨hc', hhandle⟩) pool' hpool''
    rw [hentity, hfree] at hleft
    exact hleft (List.mem_append_right _ hmem)

/-! ### The three functions -/

/-- The lists are right wherever the manager's invariant holds. -/
theorem Inv.freeListsOk (h : Inv s) : FreeListsOk s where
  nodup_ptr := h.ptrPool.nodup_freePos
  nodup pool hpool := by
    obtain ⟨index, hindex⟩ := List.mem_iff_getElem?.mp hpool
    exact (h.pools index pool hindex).nodup_freePos
  handles c hc hfree := h.ptrPool.notMem_used hfree (List.mem_map_of_mem hc)
  entities c hc pool hpool hfree :=
    (h.pools _ pool hpool).notMem_used hfree (mem_positions.mpr ⟨c, hc, rfl⟩)

/-- A dead handle is in the free list already, and is there twice afterwards. -/
theorem Inv.freeListsOk_destroyEntity_iff (h : Inv s) {cPos : ChunkPos}
    (hdestroy : s.manager.destroyEntity cPos = some m') :
    FreeListsOk ⟨m', forget s.created [cPos]⟩ ↔ cPos ∈ s.manager.entityPtrPool.live := by
  constructor
  · intro hok
    obtain ⟨_, _, -, hback⟩ := givesBack_destroyEntity hdestroy
    exact (live_of_freeListsOk hback hok).2 cPos List.mem_cons_self
  · intro hlive
    obtain ⟨m, hm, hinv⟩ := h.destroyEntity hlive
    cases hm.symm.trans hdestroy
    exact hinv.freeListsOk

/-- A live handle of another archetype spoils the lists too: its position goes to a pool in which it
is free, or somebody else's, or outside. -/
theorem Inv.freeListsOk_destroyEntities_iff (h : Inv s) {entityName : String}
    {pool : ArchetypePool R} {index : Nat}
    (hpool : s.manager.getEntityPool entityName = some (pool, index))
    (hdestroy : s.manager.destroyEntities cPosArr entityName = some m') :
    FreeListsOk ⟨m', forget s.created cPosArr⟩ ↔ cPosArr.Nodup ∧
      ∀ cPos ∈ cPosArr, cPos ∈ s.manager.entityPtrPool.live ∧
        s.manager.entityPtrPool.others.getComponent cPos = some (UInt8.ofNat index) := by
  constructor
  · intro hok
    have hof := hdestroy
    simp only [EntityManager.destroyEntities, hpool] at hof
    obtain ⟨pool, deleted, hget, hcells, hback⟩ := givesBack_destroyEntitiesOf hof
    obtain ⟨hnodup, hlive⟩ := live_of_freeListsOk hback hok
    obtain ⟨gone, rfl, hgone⟩ := h.exists_created_map hlive
    have hpools := h.pool_eq_of_freeListsOk hget hcells hgone hback hok
    refine ⟨hnodup, fun cPos hcPos => ⟨hlive cPos hcPos, ?_⟩⟩
    obtain ⟨c, hc, rfl⟩ := List.mem_map.mp hcPos
    rw [(h.stored c (hgone c hc)).poolId, hpools c hc]
  · intro hlive
    have hallowed : Allowed s (.destroyEntities cPosArr entityName) := by
      refine ⟨hlive.1, fun cPos hcPos => ⟨(hlive.2 cPos hcPos).1, ?_⟩⟩
      rw [EntityManager.getEntityPoolId, hpool]
      exact (hlive.2 cPos hcPos).2
    obtain ⟨m, hm, hinv⟩ := h.destroyEntities hallowed
    cases hm.symm.trans hdestroy
    exact hinv.freeListsOk

/-- Here each position goes back to the pool it is stored with, so live and different handles are
enough. -/
theorem Inv.freeListsOk_destroyEntitiesRange_iff (h : Inv s)
    (hdestroy : s.manager.destroyEntitiesRange cPosArr = some m') :
    FreeListsOk ⟨m', forget s.created cPosArr⟩ ↔
      cPosArr.Nodup ∧ ∀ cPos ∈ cPosArr, cPos ∈ s.manager.entityPtrPool.live := by
  obtain ⟨poolIds, deleted, hids, hdeleted, hback⟩ := givesBack_destroyEntitiesRange hdestroy
  constructor
  · intro hok
    exact live_of_freeListsOk hback hok
  · rintro ⟨hnodup, hlive⟩
    obtain ⟨gone, rfl, hgone⟩ := h.exists_created_map hlive
    obtain ⟨hpositions, hpoolIds⟩ := h.getComponentsAtIndexes hgone
    cases hids.symm.trans hpoolIds
    cases hdeleted.symm.trans hpositions
    -- the ids read are those of the entities' pools
    have hsent : ((gone.map fun c => UInt8.ofNat c.entity.pool).zip
        (gone.map fun c => c.entity.cPos)).map (fun e => (⟨e.1.toNat, e.2⟩ : EntityRef)) =
          gone.map Created.entity := by
      rw [List.zip_map', List.map_map]
      apply List.map_congr_left
      intro c hc
      simp only [Function.comp_apply, h.toNat_poolId (h.pool_lt (hgone c hc))]
    rw [hsent] at hback
    exact h.freeListsOk_of_gone hgone hnodup hback

end Lists

variable [ComponentPools R]

/-- **Destroying is exact on live and different handles only**: destroying a handle never leaves the
state as it was; a list has the effect of the list without repetitions exactly if it has none; and
in every state reached, the free lists stay right exactly if the handles are live and different, and
of the archetype named. -/
theorem destroy_exact :
    (∀ (m : EntityManager R) (cPos : ChunkPos), m.destroyEntity cPos ≠ some m) ∧
    (∀ (m m' : EntityManager R) (cPosArr : List ChunkPos) (entityName : String)
      (found : ArchetypePool R × Nat), m.getEntityPool entityName = some found →
        m.destroyEntities cPosArr entityName = some m' →
        (m.destroyEntities cPosArr.dedup entityName = some m' ↔ cPosArr.Nodup)) ∧
    (∀ (m m' : EntityManager R) (cPosArr : List ChunkPos),
      m.destroyEntitiesRange cPosArr = some m' →
        (m.destroyEntitiesRange cPosArr.dedup = some m' ↔ cPosArr.Nodup)) ∧
    ∀ s : State R, (machine R).ReachUnder Allowed s → FreeListsOk s ∧
      (∀ cPos m', s.manager.destroyEntity cPos = some m' →
        (FreeListsOk ⟨m', forget s.created [cPos]⟩ ↔ cPos ∈ s.manager.entityPtrPool.live)) ∧
      (∀ cPosArr entityName pool index m',
        s.manager.getEntityPool entityName = some (pool, index) →
        s.manager.destroyEntities cPosArr entityName = some m' →
        (FreeListsOk ⟨m', forget s.created cPosArr⟩ ↔ cPosArr.Nodup ∧
          ∀ cPos ∈ cPosArr, cPos ∈ s.manager.entityPtrPool.live ∧
            s.manager.entityPtrPool.others.getComponent cPos = some (UInt8.ofNat index))) ∧
      ∀ cPosArr m', s.manager.destroyEntitiesRange cPosArr = some m' →
        (FreeListsOk ⟨m', forget s.created cPosArr⟩ ↔
          cPosArr.Nodup ∧ ∀ cPos ∈ cPosArr, cPos ∈ s.manager.entityPtrPool.live) := by
  refine ⟨fun m cPos => m.destroyEntity_ne_self cPos,
    fun m m' cPosArr entityName found hpool h =>
      EntityManager.destroyEntities_dedup_iff hpool h,
    fun m m' cPosArr h => EntityManager.destroyEntitiesRange_dedup_iff h, fun s hs => ?_⟩
  have hinv := inv_of_reach hs
  refine ⟨hinv.freeListsOk, fun cPos m' h => hinv.freeListsOk_destroyEntity_iff h,
    fun cPosArr entityName pool index m' hpool h => hinv.freeListsOk_destroyEntities_iff hpool h,
    fun cPosArr m' h => hinv.freeListsOk_destroyEntitiesRange_iff h⟩

/-- One entity created, and destroyed. -/
def createdAndDestroyed : List (Op (ComponentPool EntityPoolId)) :=
  [.registerEntityPool "Window" 2 [], .createEntity "Window" ENT_ALIVE, .destroyEntity (0, 0)]

/-- After this run the free lists are right, no entity is recorded, and the handle `(0, 0)`, which
the entity had, is free again. -/
theorem freeListsOk_createdAndDestroyed :
    ∃ s : State (ComponentPool EntityPoolId), FreeListsOk s ∧ s.created = [] ∧
      (0, 0) ∈ s.manager.entityPtrPool.freePos := by
  have hs : (((machine (ComponentPool EntityPoolId)).exec Allowed ⟨EntityManager.new, []⟩
      createdAndDestroyed).any fun s =>
        decide (s.created = [] ∧ (0, 0) ∈ s.manager.entityPtrPool.freePos)) = true := by
    decide +kernel
  obtain ⟨s, hreach, hp⟩ := Machine.reachUnder_of_exec rfl hs
  exact ⟨s, (destroy_exact.2.2.2 s hreach).1, of_decide_eq_true hp⟩

/-- Its handle may be destroyed again, and is: the state is not what it was. -/
theorem not_destroyEntity_dead_idempotent :
    ¬ ∀ s : State (ComponentPool EntityPoolId),
      (machine (ComponentPool EntityPoolId)).ReachUnder Allowed s →
        ∀ cPos ∈ Grid.cells s.manager.entityPtrPool.shape, cPos ∉ s.manager.entityPtrPool.live →
          ∀ m', s.manager.destroyEntity cPos = some m' → m' = s.manager := by
  intro hall
  have hs : (((machine (ComponentPool EntityPoolId)).exec Allowed ⟨EntityManager.new, []⟩
      createdAndDestroyed).any fun s =>
        decide ((0, 0) ∈ Grid.cells s.manager.entityPtrPool.shape ∧
          (0, 0) ∉ s.manager.entityPtrPool.live ∧
            (s.manager.destroyEntity (0, 0)).isSome = true)) = true := by
    decide +kernel
  obtain ⟨s, hreach, hp⟩ := Machine.reachUnder_of_exec rfl hs
  obtain ⟨hcells, hdead, hanswers⟩ := of_decide_eq_true hp
  obtain ⟨m', hm'⟩ := Option.isSome_iff_exists.mp hanswers
  have hsame := hall s hreach (0, 0) hcells hdead m' hm'
  rw [hsame] at hm'
  exact s.manager.destroyEntity_ne_self (0, 0) hm'

end ProjectE.Ecs
