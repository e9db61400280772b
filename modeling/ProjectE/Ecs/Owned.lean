import ProjectE.Ecs.World

/-!
# Entities own their slots

While handles are destroyed once, while they are live, and as entities of their own pools, every
entity created and not destroyed has a slot of its own and a handle of its own: the positions
recorded in a pool are those that it has given out, and the pointer at the handle is the entity's
(`Owned`). So what is done for other entities leaves its slot and its pointer alone
(`Undisturbed`).

Nothing is said here of what is stored in a slot that an entity owns: the handle there and the
status are the systems' to write.
-/

namespace ProjectE.Ecs

open Verif

/-! ## Pools -/

namespace ArchetypePool

variable {R V : Type} [ComponentPools R] [slots : ComponentSlots R V]
  {pool pool' grown set : ArchetypePool R} {count : Nat} {used indexes values : List ChunkPos}
  {status : EntityStatus}

/-- A slot of a fresh chunk. -/
def fresh (pool : ArchetypePool R) : Slot V :=
  ⟨(ComponentSlots.defaults pool.others).zero, Component.zero, Component.zero⟩

/-- A pool with more chunks: their slots are fresh. -/
structure Grown (pool grown : ArchetypePool R) : Prop where
  keeps : Keeps pool grown []
  free : ∀ cPos ∈ grown.freePos, cPos ∈ pool.freePos ∨ grown.slot cPos = some pool.fresh

/-- Nothing was added. -/
theorem Grown.refl (pool : ArchetypePool R) : Grown pool pool :=
  ⟨.refl pool [], fun _ hcPos => .inl hcPos⟩

/-- One chunk more, and all slots before it as they were. -/
theorem Grown.addChunk (h : Grown pool grown) (hgrown : Shaped grown) :
    Grown pool grown.addChunk where
  keeps := h.keeps.trans (hgrown.keeps_addChunk [])
  free cPos hcPos := by
    rcases hgrown.mem_freePos_addChunk hcPos with hold | hnew
    · rw [(hgrown.keeps_addChunk []).slot cPos (hgrown.freePos_mem cPos hold) List.not_mem_nil]
      exact h.free cPos hold
    · right
      rw [hgrown.slot_addChunk_new (hgrown.addChunk.freePos_mem cPos hcPos) hnew, h.keeps.defaults]
      rfl

/-- Growing leaves the slots there are as they were. -/
theorem Shaped.grown_of_growTo (h : Shaped pool) (hgrow : pool.growTo count count = some grown) :
    Grown pool grown :=
  (growTo_rec (Q := fun grown => Shaped grown ∧ Grown pool grown)
    (fun _ hQ => ⟨hQ.1.addChunk, hQ.2.addChunk hQ.1⟩) hgrow ⟨h, .refl pool⟩).2

/-- What giving out positions does to the slots of a pool: those in use hold what they held, those
given out the handle and the status they were given, and the free ones what they held, or what a
fresh chunk holds. -/
structure Given (pool pool' : ArchetypePool R) (used given values : List ChunkPos)
    (status : EntityStatus) : Prop where
  keeps : Keeps pool pool' given
  laid : Laid pool' (used ++ given)
  slot : ∀ cPos ∈ used, pool'.slot cPos = pool.slot cPos
  written : ∀ e ∈ given.zip values, ∃ others, pool'.slot e.1 = some ⟨others, e.2, status⟩
  free : ∀ cPos ∈ pool'.freePos,
    (cPos ∈ pool.freePos ∧ pool'.slot cPos = pool.slot cPos) ∨ pool'.slot cPos = some pool.fresh

/-- A creation in one pool: the front free positions are used now, and hold what they were given;
the slots of all others are as they were. -/
theorem Laid.given (h : Laid pool used) (hgrow : pool.growTo count count = some grown)
    (hset : grown.setEntities (grown.freePos.take count) status values = some set) :
    Given pool (set.dropFree count) used (grown.freePos.take count) values status := by
  have hgrown := h.shaped.grown_of_growTo hgrow
  have hlaid := h.laid_of_growTo hgrow
  have hsets := setsSlots_of_setEntities hset
  have hnodup : (grown.freePos.take count).Nodup :=
    hlaid.nodup_freePos.sublist (List.take_sublist _ _)
  have hkeeps : Keeps pool set (grown.freePos.take count) :=
    (hgrown.keeps.mono (List.nil_subset _)).trans hsets.keeps
  have hold : ∀ cPos ∈ Grid.cells pool.shape, cPos ∉ grown.freePos.take count →
      set.slot cPos = pool.slot cPos := hkeeps.slot
  refine ⟨⟨hkeeps.entityName, hkeeps.chunkSize, hkeeps.shape, hkeeps.defaults, hold⟩, ?_,
    fun cPos hcPos => ?_, fun e he => ?_, fun cPos hcPos => ?_⟩
  · have hshape : set.shape = grown.shape := shape_setEntities hset
    refine hlaid.congr hsets.keeps.chunkSize hsets.layouts hshape ?_
    show Partition (set.freePos.drop count) _ _
    rw [hsets.freePos]
    exact hlaid.places.take count
  · refine hold cPos (h.mem_cells_of_mem_used hcPos) fun hmem => ?_
    exact hlaid.notMem_used (List.mem_of_mem_take hmem) hcPos
  · have hmem : e.1 ∈ grown.freePos.take count := (List.of_mem_zip he).1
    obtain ⟨slot, hslot⟩ := hlaid.shaped.exists_slot
      (hlaid.shaped.freePos_mem e.1 (List.mem_of_mem_take hmem))
    refine ⟨slot.others, ?_⟩
    show set.slot e.1 = _
    rw [hsets.written hnodup e he, hslot]
    rfl
  · have hdrop : cPos ∈ grown.freePos.drop count := by
      rw [← hsets.freePos]
      exact hcPos
    have hfree := List.mem_of_mem_drop hdrop
    -- what is left of the free list was not given out
    have hnot : cPos ∉ grown.freePos.take count := by
      intro htake
      have hsplit := hlaid.nodup_freePos
      rw [← List.take_append_drop count grown.freePos] at hsplit
      exact List.disjoint_of_nodup_append hsplit htake hdrop
    have hslot : set.slot cPos = grown.slot cPos :=
      hsets.keeps.slot cPos (hlaid.shaped.freePos_mem cPos hfree) hnot
    rcases hgrown.free cPos hfree with hmem | hfresh
    · exact .inl ⟨hmem, hold cPos (h.shaped.freePos_mem cPos hmem) hnot⟩
    · exact .inr (hslot.trans hfresh)

/-- What taking positions back does to the slots of a pool: they are free, behind those that were,
and hold what a reset writes. All other slots are as before. -/
structure TakenBack (pool pool' : ArchetypePool R) (left back : List ChunkPos) : Prop where
  keeps : Keeps pool pool' back
  laid : Laid pool' left
  slot : ∀ cPos ∈ left, pool'.slot cPos = pool.slot cPos
  freePos : pool'.freePos = pool.freePos ++ back
  reset : ∀ cPos ∈ back, pool'.slot cPos = some pool.blank
  free : ∀ cPos ∈ pool.freePos, pool'.slot cPos = pool.slot cPos

/-- A destruction in one pool: the positions are free again and reset; the slots of all others are
as they were. -/
theorem Laid.takenBack (h : Laid pool used) {back left : List ChunkPos}
    (hused : used.Perm (back ++ left))
    (hreset : (pool.insertFree back).resetEntityAtIndexes back = some pool') :
    TakenBack pool pool' left back := by
  have hresets := resetsSlots_of_reset hreset
  have hnodup := hused.nodup_iff.mp h.nodup_used
  have hkeeps : Keeps pool pool' back := ⟨hresets.keeps.entityName, hresets.keeps.chunkSize,
    hresets.keeps.shape, hresets.keeps.defaults, hresets.keeps.slot⟩
  refine ⟨hkeeps, ?_, fun cPos hcPos => ?_, hresets.freePos, hresets.reset, fun cPos hcPos => ?_⟩
  · refine h.congr hresets.keeps.chunkSize hresets.layouts hresets.shape ?_
    rw [hresets.freePos]
    exact h.places.giveBack hused
  · exact hkeeps.slot cPos
      (h.mem_cells_of_mem_used (hused.symm.subset (List.mem_append_right _ hcPos)))
      fun hback => List.disjoint_of_nodup_append hnodup hback hcPos
  · exact hkeeps.slot cPos (h.shaped.freePos_mem cPos hcPos)
      fun hback => h.notMem_used hcPos (hused.symm.subset (List.mem_append_left _ hback))

end ArchetypePool

/-! ## The pool of pointers -/

namespace ArchetypePool

variable {ptrPool ptrSet : EntityPtrPool} {ids : ComponentPool EntityPoolId}
  {indexes used given values : List ChunkPos} {poolId : EntityPoolId} {status : EntityStatus}
  {cPos : ChunkPos}

/-- The ids are written at other positions. -/
theorem slot_setIds_of_notMem (h : ptrSet.others.setComponentAtIndexes indexes poolId = some ids)
    (hcPos : cPos ∉ indexes) : slot { ptrSet with others := ids } cPos = ptrSet.slot cPos := by
  have hread : ids.getComponent cPos = ptrSet.others.getComponent cPos :=
    ComponentPool.getComponent_setComponentAtIndexes h hcPos
  simp only [slot, ComponentSlots.read, hread]

/-- Writing the pool ids of new handles touches nothing else in their slots. -/
theorem slot_setIds (h : ptrSet.others.setComponentAtIndexes indexes poolId = some ids)
    (hcPos : cPos ∈ indexes) {before : Slot EntityPoolId} (hslot : ptrSet.slot cPos = some before) :
    slot { ptrSet with others := ids } cPos = some { before with others := poolId } := by
  obtain ⟨-, hchunkPos, hstatus⟩ := slot_eq_some.mp hslot
  exact slot_eq_some.mpr
    ⟨ComponentPool.getComponent_setComponentAtIndexes_self h hcPos, hchunkPos, hstatus⟩

/-- Handles given out, `poolId` being written at each. -/
theorem laid_setIds (h : Given ptrPool ptrSet used given values status)
    (hids : ptrSet.others.setComponentAtIndexes given poolId = some ids) :
    ptrPool.shape <+: ptrSet.shape ∧ Laid { ptrSet with others := ids } (used ++ given) ∧
      (∀ cPos ∈ used, slot { ptrSet with others := ids } cPos = ptrPool.slot cPos) ∧
      ∀ e ∈ given.zip values, slot { ptrSet with others := ids } e.1 =
        some ⟨poolId, e.2, status⟩ := by
  refine ⟨h.keeps.shape, ?_, fun cPos hcPos => ?_, fun e he => ?_⟩
  · refine h.laid.congr rfl ?_ rfl h.laid.places
    simp only [layouts, ComponentPools.layouts, ComponentPool.layout_setComponentAtIndexes hids]
  · have hnot : cPos ∉ given := fun hmem =>
      List.disjoint_of_nodup_append h.laid.nodup_used hcPos hmem
    rw [slot_setIds_of_notMem hids hnot, h.slot cPos hcPos]
  · obtain ⟨others, hslot⟩ := h.written e he
    exact slot_setIds hids (List.of_mem_zip he).1 hslot

end ArchetypePool

/-! ## Owners -/

section Owners

variable {R V : Type} [ComponentPools R] [slots : ComponentSlots R V]

/-- The positions recorded in a pool are those given out, the handles recorded are those given out,
and the pointer at each points to its entity, as far as an id can tell the pool. -/
structure Owned (m : EntityManager R) (created : List Created) : Prop where
  pools : ∀ (index : Nat) (pool : ArchetypePool R), m.entityPools[index]? = some pool →
    pool.Laid (positions created index)
  ptrPool : m.entityPtrPool.Laid (created.map Created.handle)
  pointer : ∀ c ∈ created, m.entityPtrPool.slot c.handle =
    some ⟨UInt8.ofNat c.entity.pool, c.entity.cPos, ENT_ALIVE⟩
  pool_lt : ∀ c ∈ created, c.entity.pool < m.entityPools.length

/-- The slots of the entities and the pointers at their handles are left alone, and no chunk is
moved. -/
structure Undisturbed (m m' : EntityManager R) (left : List Created) : Prop where
  slot : ∀ c ∈ left, m'.slot c.entity = m.slot c.entity
  pointer : ∀ c ∈ left, m'.entityPtrPool.slot c.handle = m.entityPtrPool.slot c.handle
  shapes : ∀ (index : Nat) (pool : ArchetypePool R), m.entityPools[index]? = some pool →
    ∃ pool', m'.entityPools[index]? = some pool' ∧ pool.shape <+: pool'.shape
  ptrShape : m.entityPtrPool.shape <+: m'.entityPtrPool.shape

variable {m m' m'' : EntityManager R} {created created' left gone : List Created} {index : Nat}
  {pool pool' : ArchetypePool R} {ptrPool' : EntityPtrPool}

/-- Nobody was disturbed. -/
theorem Undisturbed.refl (m : EntityManager R) (left : List Created) : Undisturbed m m left :=
  ⟨fun _ _ => rfl, fun _ _ => rfl, fun _ pool hpool => ⟨pool, hpool, List.prefix_refl _⟩,
    List.prefix_refl _⟩

/-- Two steps that disturb nobody. -/
theorem Undisturbed.trans (h : Undisturbed m m' left) (h' : Undisturbed m' m'' left) :
    Undisturbed m m'' left where
  slot c hc := (h'.slot c hc).trans (h.slot c hc)
  pointer c hc := (h'.pointer c hc).trans (h.pointer c hc)
  shapes index pool hpool := by
    obtain ⟨pool', hpool', hprefix⟩ := h.shapes index pool hpool
    obtain ⟨pool'', hpool'', hprefix'⟩ := h'.shapes index pool' hpool'
    exact ⟨pool'', hpool'', hprefix.trans hprefix'⟩
  ptrShape := h.ptrShape.trans h'.ptrShape

/-- Fewer entities to look at. -/
theorem Undisturbed.mono (h : Undisturbed m m' left) {left' : List Created}
    (hsub : left' ⊆ left) : Undisturbed m m' left' :=
  ⟨fun c hc => h.slot c (hsub hc), fun c hc => h.pointer c (hsub hc), h.shapes, h.ptrShape⟩

/-- Where every slot has one owner at most, the pools are well shaped. -/
theorem Owned.shaped (h : Owned m created) : m.Shaped where
  pools pool hpool := by
    obtain ⟨index, hindex⟩ := List.mem_iff_getElem?.mp hpool
    exact (h.pools index pool hindex).shaped
  ptrPool := h.ptrPool.shaped

/-- A position recorded is one of its pool. -/
theorem mem_positions_self {c : Created} (hc : c ∈ created) :
    c.entity.cPos ∈ positions created c.entity.pool := mem_positions.mpr ⟨c, hc, rfl⟩

/-! ### One pool changes -/

/-- A change of one pool and of the handles disturbs none of those whose two slots it leaves as they
were. -/
theorem undisturbed_set (hpool : m.entityPools[index]? = some pool)
    (hshape : pool.shape <+: pool'.shape)
    (hslot : ∀ c ∈ left, c.entity.pool = index →
      pool'.slot c.entity.cPos = pool.slot c.entity.cPos)
    (hpointer : ∀ c ∈ left, ptrPool'.slot c.handle = m.entityPtrPool.slot c.handle)
    (hptrShape : m.entityPtrPool.shape <+: ptrPool'.shape) :
    Undisturbed m ⟨m.entityPools.set index pool', ptrPool'⟩ left where
  slot c hc := by
    rw [EntityManager.slot_set hpool]
    split
    next heq =>
      rw [hslot c hc heq, EntityManager.slot_of_getElem? (heq ▸ hpool)]
    next => rfl
  pointer := hpointer
  shapes other pool₁ hpool₁ := by
    by_cases hother : other = index
    · subst hother
      cases hpool.symm.trans hpool₁
      exact ⟨pool', List.getElem?_set_self (List.getElem?_eq_some_iff.mp hpool).1, hshape⟩
    · exact ⟨pool₁, by rw [List.getElem?_set_ne (Ne.symm hother), hpool₁], List.prefix_refl _⟩
  ptrShape := hptrShape

/-- A change of one pool and of the handles, seen from the owners: the pool and the handles are laid
out for the new list, and the lists of the other pools are the same. -/
theorem Owned.set (h : Owned m created) (hpool : m.entityPools[index]? = some pool)
    (hlaid : pool'.Laid (positions created' index))
    (hptr : ptrPool'.Laid (created'.map Created.handle))
    (hothers : ∀ other, other ≠ index →
      (positions created other).Perm (positions created' other))
    (hpointer : ∀ c ∈ created', ptrPool'.slot c.handle =
      some ⟨UInt8.ofNat c.entity.pool, c.entity.cPos, ENT_ALIVE⟩)
    (hlt : ∀ c ∈ created', c.entity.pool < m.entityPools.length) :
    Owned ⟨m.entityPools.set index pool', ptrPool'⟩ created' where
  pools other pool₁ hpool₁ := by
    by_cases hother : other = index
    · subst hother
      rw [List.getElem?_set_self (List.getElem?_eq_some_iff.mp hpool).1] at hpool₁
      cases hpool₁
      exact hlaid
    · rw [List.getElem?_set_ne (Ne.symm hother)] at hpool₁
      exact (h.pools other pool₁ hpool₁).perm (hothers other hother)
  ptrPool := hptr
  pointer := hpointer
  pool_lt c hc := by
    rw [List.length_set]
    exact hlt c hc

/-! ### Creating -/

/-- The entities of a batch, with their handles. -/
def batch (index : Nat) (handles cPosArr : List ChunkPos) : List Created :=
  (handles.zip cPosArr).map fun e => ⟨e.1, ⟨index, e.2⟩⟩

/-- The entities of a batch are in one pool. -/
theorem pool_of_mem_batch {handles cPosArr : List ChunkPos} :
    ∀ c ∈ batch index handles cPosArr, c.entity.pool = index := by
  intro c hc
  obtain ⟨e, -, rfl⟩ := List.mem_map.mp hc
  rfl

section Batch

variable {handles cPosArr : List ChunkPos} (hlength : handles.length = cPosArr.length)

include hlength in
/-- The handles of a batch. -/
theorem map_handle_batch : (batch index handles cPosArr).map Created.handle = handles := by
  rw [batch, List.map_map]
  exact List.map_fst_zip (Nat.le_of_eq hlength)

include hlength in
/-- The entities of a batch. -/
theorem map_entity_batch : (batch index handles cPosArr).map Created.entity =
    cPosArr.map fun cPos => ⟨index, cPos⟩ := by
  have hsnd : (handles.zip cPosArr).map Prod.snd = cPosArr :=
    List.map_snd_zip (Nat.le_of_eq hlength.symm)
  calc (batch index handles cPosArr).map Created.entity =
        ((handles.zip cPosArr).map Prod.snd).map fun cPos => ⟨index, cPos⟩ := by
          rw [batch, List.map_map, List.map_map]
          rfl
    _ = cPosArr.map fun cPos => ⟨index, cPos⟩ := by rw [hsnd]

include hlength in
/-- The positions of a batch, in its own pool. -/
theorem positions_batch : positions (batch index handles cPosArr) index = cPosArr := by
  rw [positions_of_pool pool_of_mem_batch]
  calc (batch index handles cPosArr).map (fun c => c.entity.cPos) =
        ((batch index handles cPosArr).map Created.entity).map (·.cPos) := by rw [List.map_map]; rfl
    _ = cPosArr := by
      rw [map_entity_batch hlength, List.map_map]
      exact List.map_id _

end Batch

/-- **Creating** gives slots and handles to new entities, and leaves the others alone. -/
theorem Owned.createEntities (h : Owned m created) {entityName : String} {count : Nat}
    {status : EntityStatus} {entities : List EntityRef}
    (hcreate : m.createEntities entityName count status = some (m', entities)) :
    ∃ new, record m' entities = some new ∧ new.map Created.entity = entities ∧
      Owned m' (created ++ new) ∧ Undisturbed m m' created := by
  obtain ⟨pool, index, grown, set, ptrGrown, ptrSet, ids, hfound, hc, rfl, rfl⟩ :=
    h.shaped.createEntities_cases hcreate
  have hpool := (EntityManager.getEntityPool_some hfound).1
  have hindex := (List.getElem?_eq_some_iff.mp hpool).1
  have hgiven := (h.pools index pool hpool).given hc.grow hc.write
  have hptrGiven := h.ptrPool.given hc.ptrGrow hc.ptrWrite
  obtain ⟨hptrShape, hptrLaid, hptrOld, hptrNew⟩ :=
    ArchetypePool.laid_setIds hptrGiven hc.idWrite
  have hlength : (ptrGrown.freePos.take count).length = (grown.freePos.take count).length := by
    rw [List.length_take_of_le (ArchetypePool.le_length_of_growTo hc.ptrGrow),
      List.length_take_of_le (ArchetypePool.le_length_of_growTo hc.grow)]
  generalize hhandles : ptrGrown.freePos.take count = handles at *
  generalize hcPosArr : grown.freePos.take count = cPosArr at *
  refine ⟨batch index handles cPosArr, ?_, map_entity_batch hlength, ?_, ?_⟩
  · rw [← map_entity_batch hlength]
    apply record_of_handles
    intro c hc'
    obtain ⟨⟨handle, cPos⟩, he, rfl⟩ := List.mem_map.mp hc'
    have hswap : (cPos, handle) ∈ cPosArr.zip handles := by
      rw [← List.zip_swap]
      exact List.mem_map_of_mem he
    obtain ⟨others, hslot⟩ := hgiven.written _ hswap
    have hslot' : (EntityManager.afterCreation m count index set ptrSet ids).slot ⟨index, cPos⟩ =
        some ⟨others, handle, status⟩ := by
      rw [EntityManager.afterCreation, EntityManager.slot_set hpool, if_pos rfl]
      exact hslot
    exact EntityManager.getChunkPosElem_of_slot hslot'
  · refine h.set hpool ?_ ?_ ?_ ?_ ?_
    · rw [positions_append, positions_batch hlength]
      exact hgiven.laid
    · rw [List.map_append, map_handle_batch hlength]
      exact hptrLaid
    · intro other hother
      rw [positions_append, positions_of_ne pool_of_mem_batch hother, List.append_nil]
    · intro c hc'
      rcases List.mem_append.mp hc' with hold | hnew
      · exact (hptrOld _ (List.mem_map_of_mem hold)).trans (h.pointer c hold)
      · obtain ⟨e, he, rfl⟩ := List.mem_map.mp hnew
        exact hptrNew e he
    · intro c hc'
      rcases List.mem_append.mp hc' with hold | hnew
      · exact h.pool_lt c hold
      · rw [pool_of_mem_batch c hnew]
        exact hindex
  · refine undisturbed_set hpool hgiven.keeps.shape (fun c hc' heq => ?_)
      (fun c hc' => hptrOld _ (List.mem_map_of_mem hc')) hptrShape
    exact hgiven.slot _ (heq ▸ mem_positions_self hc')

/-! ### Destroying -/

/-- The positions stored at handles recorded. -/
theorem Owned.getComponentsAtIndexes (h : Owned m created) (hgone : ∀ c ∈ gone, c ∈ created) :
    m.entityPtrPool.chunkPos.getComponentsAtIndexes (gone.map Created.handle) =
      some (gone.map fun c => c.entity.cPos) := by
  rw [ComponentPool.getComponentsAtIndexes, List.mapM_map]
  apply Grid.mapM_eq_some_map
  intro c hc
  exact (ArchetypePool.slot_eq_some.mp (h.pointer c (hgone c hc))).2.1

/-- A destruction takes back exactly the positions and the handles of the entities named,
each once. -/
theorem Owned.takenBack (h : Owned m created)
    (hgone : ∀ c ∈ gone, c ∈ created ∧ c.entity.pool = index)
    (hnodup : (gone.map Created.handle).Nodup)
    (hdestroy : m.destroyEntitiesOf (gone.map Created.handle) index = some m') :
    ∃ pool pool' ptrPool', m.entityPools[index]? = some pool ∧
      m' = ⟨m.entityPools.set index pool', ptrPool'⟩ ∧
      ArchetypePool.TakenBack pool pool'
        (positions (forget created (gone.map Created.handle)) index)
        (gone.map fun c => c.entity.cPos) ∧
      ArchetypePool.TakenBack m.entityPtrPool ptrPool'
        ((forget created (gone.map Created.handle)).map Created.handle)
        (gone.map Created.handle) := by
  have hperm := perm_forget h.ptrPool.nodup_used (fun c hc => (hgone c hc).1) hnodup
  obtain ⟨pool, deleted, pool', ptrPool', hpool, hdeleted, hreset, hptrReset, rfl⟩ :=
    EntityManager.destroyEntitiesOf_cases hdestroy
  cases hdeleted.symm.trans (h.getComponentsAtIndexes fun c hc => (hgone c hc).1)
  have hused : (positions created index).Perm _ := positions_perm hperm
  rw [positions_append, positions_of_pool fun c hc => (hgone c hc).2] at hused
  have husedPtr := hperm.map Created.handle
  rw [List.map_append] at husedPtr
  exact ⟨pool, pool', ptrPool', hpool, rfl, (h.pools index pool hpool).takenBack hused hreset,
    h.ptrPool.takenBack husedPtr hptrReset⟩

/-- **Destroying** entities of one pool takes their slots and handles back, and leaves the others
alone. -/
theorem Owned.destroyEntitiesOf (h : Owned m created)
    (hgone : ∀ c ∈ gone, c ∈ created ∧ c.entity.pool = index)
    (hnodup : (gone.map Created.handle).Nodup)
    (hdestroy : m.destroyEntitiesOf (gone.map Created.handle) index = some m') :
    Owned m' (forget created (gone.map Created.handle)) ∧
      Undisturbed m m' (forget created (gone.map Created.handle)) := by
  obtain ⟨pool, pool', ptrPool', hpool, rfl, hback, hptrBack⟩ :=
    h.takenBack hgone hnodup hdestroy
  have hperm := perm_forget h.ptrPool.nodup_used (fun c hc => (hgone c hc).1) hnodup
  have hleft : ∀ c ∈ forget created (gone.map Created.handle), c ∈ created :=
    fun c hc => (mem_forget.mp hc).1
  constructor
  · refine h.set hpool hback.laid hptrBack.laid (fun other hother => ?_) (fun c hc => ?_)
      fun c hc => h.pool_lt c (hleft c hc)
    · have hother' : (positions created other).Perm _ := positions_perm hperm
      rwa [positions_append, positions_of_ne (fun c hc => (hgone c hc).2) hother,
        List.nil_append] at hother'
    · exact (hptrBack.slot _ (List.mem_map_of_mem hc)).trans (h.pointer c (hleft c hc))
  · refine undisturbed_set hpool hback.keeps.shape (fun c hc heq => ?_)
      (fun c hc => hptrBack.slot _ (List.mem_map_of_mem hc)) hptrBack.keeps.shape
    exact hback.slot _ (heq ▸ mem_positions_self hc)

omit slots in
/-- Destroying entities of one pool answers. -/
theorem Owned.exists_destroyEntitiesOf (h : Owned m created)
    (hgone : ∀ c ∈ gone, c ∈ created ∧ c.entity.pool = index)
    (hnodup : (gone.map Created.handle).Nodup) (hpool : m.entityPools[index]? = some pool) :
    ∃ m', m.destroyEntitiesOf (gone.map Created.handle) index = some m' := by
  have hperm := perm_forget h.ptrPool.nodup_used (fun c hc => (hgone c hc).1) hnodup
  have hused : (positions created index).Perm _ := positions_perm hperm
  rw [positions_append, positions_of_pool fun c hc => (hgone c hc).2] at hused
  have husedPtr := hperm.map Created.handle
  rw [List.map_append] at husedPtr
  obtain ⟨pool', ptrPool', hdestroy, -⟩ := EntityManager.destroyEntitiesOf_spec hpool
    (h.pools index pool hpool) h.ptrPool hused husedPtr
    (h.getComponentsAtIndexes fun c hc => (hgone c hc).1)
  exact ⟨_, hdestroy⟩

/-- A handle points to its entity, if an id can tell the pool. -/
theorem Owned.pointee (h : Owned m created) {c : Created} (hc : c ∈ created) :
    m.pointee c.handle = some ⟨(UInt8.ofNat c.entity.pool).toNat, c.entity.cPos⟩ := by
  obtain ⟨hid, hposition, -⟩ := ArchetypePool.slot_eq_some.mp (h.pointer c hc)
  have hid' : m.entityPtrPool.others.getComponent c.handle =
      some (UInt8.ofNat c.entity.pool) := hid
  simp only [EntityManager.pointee, hid', hposition, Option.bind_eq_bind, Option.bind_some]
  rfl

/-- Each handle leads to its entity's position, under the eight bits of its pool's number. -/
theorem Owned.mapM_pointee (h : Owned m created) (hgone : ∀ c ∈ gone, c ∈ created) :
    (gone.map Created.handle).mapM m.pointee =
      some (gone.map fun c => ⟨(UInt8.ofNat c.entity.pool).toNat, c.entity.cPos⟩) := by
  rw [List.mapM_map]
  exact Grid.mapM_eq_some_map fun c hc => h.pointee (hgone c hc)

/-- A handle destroyed: its entity's pool gets it back, if an id can tell the pool. -/
theorem Owned.destroyEntity_eq (h : Owned m created) {c : Created} (hc : c ∈ created)
    (hlt : c.entity.pool < 256) :
    m.destroyEntity c.handle = m.destroyEntitiesOf ([c].map Created.handle) c.entity.pool := by
  have hid : m.entityPtrPool.others.getComponent c.handle =
      some (UInt8.ofNat c.entity.pool) := (ArchetypePool.slot_eq_some.mp (h.pointer c hc)).1
  rw [EntityManager.destroyEntity, hid, Option.bind_eq_bind, Option.bind_some,
    UInt8.toNat_ofNat_of_lt' hlt]
  rfl

/-- A destruction by handle of an entity of the first 256 pools disturbs no other. -/
theorem Owned.destroyEntity (h : Owned m created) {c : Created} (hc : c ∈ created)
    (hlt : c.entity.pool < 256) (hdestroy : m.destroyEntity c.handle = some m') :
    Owned m' (forget created [c.handle]) ∧ Undisturbed m m' (forget created [c.handle]) := by
  rw [h.destroyEntity_eq hc hlt] at hdestroy
  exact h.destroyEntitiesOf (List.forall_mem_singleton.mpr ⟨hc, rfl⟩) (List.nodup_singleton _)
    hdestroy

include slots in
/-- Handle after handle: what destroying one keeps, destroying many keeps. -/
theorem Owned.destroyTimes_rec {Q : EntityManager R → List Created → Prop}
    (hone : ∀ m created m' c, Owned m created → Q m created → c ∈ created →
      c.entity.pool < 256 → m.destroyEntity c.handle = some m' →
        Q m' (forget created [c.handle]))
    (h : Owned m created) (hQ : Q m created)
    (hgone : ∀ c ∈ gone, c ∈ created ∧ c.entity.pool < 256)
    (hnodup : (gone.map Created.handle).Nodup)
    (hdestroy : m.destroyTimes (gone.map Created.handle) = some m') :
    Q m' (forget created (gone.map Created.handle)) := by
  induction gone generalizing m created with
  | nil =>
    cases hdestroy
    have hnil : forget created [] = created := List.filter_eq_self.mpr fun _ _ => rfl
    rwa [List.map_nil, hnil]
  | cons c gone ih =>
    obtain ⟨⟨hc, hlt⟩, hgone⟩ := List.forall_mem_cons.mp hgone
    rw [List.map_cons, List.nodup_cons] at hnodup
    rw [List.map_cons, EntityManager.destroyTimes, List.foldlM_cons] at hdestroy
    obtain ⟨m₁, hfirst, hdestroy⟩ := Option.bind_eq_some_iff.mp hdestroy
    have hgone' : ∀ c' ∈ gone, c' ∈ forget created [c.handle] ∧ c'.entity.pool < 256 := by
      intro c' hc'
      refine ⟨mem_forget.mpr ⟨(hgone c' hc').1, fun hmem => ?_⟩, (hgone c' hc').2⟩
      rw [← List.mem_singleton.mp hmem] at hnodup
      exact hnodup.1 (List.mem_map_of_mem hc')
    rw [List.map_cons, ← forget_forget]
    exact ih (h.destroyEntity hc hlt hfirst).1 (hone m created m₁ c h hQ hc hlt hfirst) hgone'
      hnodup.2 hdestroy

/-- And so does one for each handle of a list, -/
theorem Owned.destroyTimes (h : Owned m created)
    (hgone : ∀ c ∈ gone, c ∈ created ∧ c.entity.pool < 256)
    (hnodup : (gone.map Created.handle).Nodup)
    (hdestroy : m.destroyTimes (gone.map Created.handle) = some m') :
    Owned m' (forget created (gone.map Created.handle)) ∧
      Undisturbed m m' (forget created (gone.map Created.handle)) := by
  refine Owned.destroyTimes_rec (Q := fun m₁ created₁ => Owned m₁ created₁ ∧
    Undisturbed m m₁ created₁) ?_ h ⟨h, .refl m created⟩ hgone hnodup hdestroy
  rintro m₁ created₁ m₂ c howned ⟨-, hundisturbed⟩ hc hlt hfirst
  obtain ⟨howned', hundisturbed'⟩ := howned.destroyEntity hc hlt hfirst
  exact ⟨howned', (hundisturbed.mono fun c' hc' => (mem_forget.mp hc').1).trans hundisturbed'⟩

/-- and the overload that takes the list, which does the same. -/
theorem Owned.destroyEntitiesRange (h : Owned m created)
    (hgone : ∀ c ∈ gone, c ∈ created ∧ c.entity.pool < 256)
    (hnodup : (gone.map Created.handle).Nodup)
    (hdestroy : m.destroyEntitiesRange (gone.map Created.handle) = some m') :
    Owned m' (forget created (gone.map Created.handle)) ∧
      Undisturbed m m' (forget created (gone.map Created.handle)) := by
  rw [EntityManager.destroyEntitiesRange_eq_destroyTimes h.ptrPool.shaped hnodup
    (h.mapM_pointee fun c hc => (hgone c hc).1)] at hdestroy
  exact h.destroyTimes hgone hnodup hdestroy

/-! ### The rest -/

/-- A new manager has no entity and no slot. -/
theorem owned_new : Owned (EntityManager.new : EntityManager R) [] where
  pools _ _ hpool := by cases hpool
  ptrPool := ArchetypePool.laid_new _ (by decide) fun _ h => List.mem_singleton.mp h
  pointer _ hc := absurd hc List.not_mem_nil
  pool_lt _ hc := absurd hc List.not_mem_nil

/-- A new pool has no slot. -/
theorem Owned.registerEntityPool (h : Owned m created) (hpool : pool.Laid []) :
    Owned (m.registerEntityPool pool) created where
  pools index pool' hpool' := by
    simp only [EntityManager.registerEntityPool, List.getElem?_append] at hpool'
    split at hpool'
    · exact h.pools index pool' hpool'
    next hge =>
      -- nothing is recorded in a pool that was not there
      have hnone : positions created index = [] := by
        apply List.eq_nil_iff_forall_not_mem.mpr
        intro cPos hmem
        obtain ⟨c, hc, hentity⟩ := mem_positions.mp hmem
        have hlt := h.pool_lt c hc
        rw [hentity] at hlt
        exact hge hlt
      obtain ⟨_, hpool'⟩ := List.getElem?_eq_some_iff.mp hpool'
      rw [hnone, ← hpool', List.getElem_singleton]
      exact hpool
  ptrPool := h.ptrPool
  pointer := h.pointer
  pool_lt c hc := by
    have hlt := h.pool_lt c hc
    simp only [EntityManager.registerEntityPool, List.length_append, List.length_singleton]
    omega

/-- Nobody is left, and no slot. -/
theorem Owned.deleteEverything (h : Owned m created) : Owned m.deleteEverything [] where
  pools index pool hpool := by
    rw [EntityManager.deleteEverything, List.getElem?_map] at hpool
    obtain ⟨before, hbefore, rfl⟩ := Option.map_eq_some_iff.mp hpool
    exact (h.pools index before hbefore).deleteEverything
  ptrPool := h.ptrPool.deleteEverything
  pointer _ hc := absurd hc List.not_mem_nil
  pool_lt _ hc := absurd hc List.not_mem_nil

/-- A system that runs moves nobody. -/
theorem Owned.same (h : Owned m created) (hsame : m.Same m') : Owned m' created where
  pools index pool' hpool' := by
    obtain ⟨pool, hpool, hpools⟩ := hsame.exists_pool' hpool'
    have hlaid := h.pools index pool hpool
    refine hlaid.congr hpools.chunkSize hpools.layouts hpools.shape ?_
    rw [hpools.freePos]
    exact hlaid.places
  ptrPool := hsame.ptrPool ▸ h.ptrPool
  pointer := hsame.ptrPool ▸ h.pointer
  pool_lt c hc := by
    rw [hsame.length]
    exact h.pool_lt c hc

end Owners

/-! ## Worlds -/

section Worlds

variable {R S V : Type} [ComponentPools R] [slots : ComponentSlots R V] [DecidableEq S]
  {statusOf : S → Option EntityStatus} {w w' : World R S} {act : Act R S V}

/-- An entity is created or destroyed. -/
def Act.Allocates : Act R S V → Prop
  | .createEntity _ _ => True
  | .createEntities _ _ _ => True
  | .destroyEntity _ => True
  | .destroyEntities _ _ => True
  | .destroyEntitiesRange _ => True
  | _ => False

/-- The entities recorded before and after. -/
def kept (before after : List Created) : List Created := before.filter (· ∈ after)

namespace World

/-- What is destroyed is live, and goes back to its own pool. -/
def OwnDestroys (w : World R S) (act : Act R S V) : Prop :=
  FreshPools w act ∧ LiveDestroys w act ∧ OwnPools w act

instance (w : World R S) (act : Act R S V) : Decidable (OwnDestroys w act) :=
  inferInstanceAs (Decidable (_ ∧ _ ∧ _))

/-- What a step does to the pools and to the record, if handles are destroyed as they should be. -/
inductive OwnChange (statusOf : S → Option EntityStatus) (w : World R S) :
    Act R S V → EntityManager R → List Created → Prop
  | keeps {act : Act R S V} : OwnChange statusOf w act w.manager w.created
  | registers {entityName : String} {chunkSize : Nat} {others : R} {componentNames : List String}
      (hpool : (ArchetypePool.new entityName chunkSize others).Laid []) :
      OwnChange statusOf w (.registerEntityPool entityName chunkSize others componentNames)
        (w.manager.registerEntityPool (ArchetypePool.new entityName chunkSize others)) w.created
  | creates {act : Act R S V} {entityName : String} {count : Nat} {status : EntityStatus}
      {m : EntityManager R} {entities : List EntityRef} {created : List Created}
      (hcreate : w.manager.createEntities entityName count status = some (m, entities))
      (hrecord : record m entities = some created) :
      OwnChange statusOf w act m (w.created ++ created)
  | destroys {act : Act R S V} {gone : List Created} {index : Nat} {m : EntityManager R}
      (hgone : ∀ c ∈ gone, c ∈ w.created ∧ c.entity.pool = index)
      (hnodup : (gone.map Created.handle).Nodup)
      (hdestroy : w.manager.destroyEntitiesOf (gone.map Created.handle) index = some m) :
      OwnChange statusOf w act m (forget w.created (gone.map Created.handle))
  | destroysRange {act : Act R S V} {gone : List Created} {m : EntityManager R}
      (hgone : ∀ c ∈ gone, c ∈ w.created ∧ c.entity.pool < 256)
      (hnodup : (gone.map Created.handle).Nodup)
      (hdestroy : w.manager.destroyEntitiesRange (gone.map Created.handle) = some m) :
      OwnChange statusOf w act m (forget w.created (gone.map Created.handle))
  | deletes : OwnChange statusOf w .deleteEverything w.manager.deleteEverything []
  | runs {time : ℚ} {fuel : Nat} {operate : Nat → S → ℚ → Nat → Slot V → Slot V}
      {w' : World R S} {visits : List (Visit V)}
      (htime : w.addTime statusOf time fuel operate = some (w', visits)) :
      OwnChange statusOf w (.addTime time fuel operate) w'.manager w.created

/-- A step that destroys only what it may is a step as the owners see it. -/
theorem ownChange_of_change (h : Owned w.manager w.created) (hact : OwnDestroys w act)
    {m : EntityManager R} {registry : AEntityManager S Nat} {created : List Created}
    (hchange : Change statusOf w act m registry created) : OwnChange statusOf w act m created := by
  obtain ⟨hfresh, hlive, hown⟩ := hact
  cases hchange with
  | registerEntityPool entityName chunkSize others componentNames nodup =>
    exact .registers (ArchetypePool.laid_new entityName hfresh.1 hfresh.2)
  | register => exact .keeps
  | createEntity hcreate hrecord => exact .creates hcreate hrecord
  | createEntities hcreate hrecord => exact .creates hcreate hrecord
  | @destroyEntity cPos poolId m hid hdestroy =>
    obtain ⟨c, hc, rfl⟩ := hlive
    have hdestroy' : w.manager.destroyEntity c.handle = some m := by
      rw [EntityManager.destroyEntity, hid]
      exact hdestroy
    rw [h.destroyEntity_eq hc (hown c hc rfl)] at hdestroy'
    exact .destroys (List.forall_mem_singleton.mpr ⟨hc, rfl⟩) (List.nodup_singleton _) hdestroy'
  | @destroyEntities cPosArr entityName pool index m hfound hdestroy =>
    obtain ⟨gone, rfl, hgone⟩ := exists_gone hlive.2
    refine .destroys (fun c hc => ⟨hgone c hc, ?_⟩) hlive.1 hdestroy
    have hpool := hown c (hgone c hc) (List.mem_map_of_mem hc)
    rw [hfound, Option.map_some] at hpool
    exact (Option.some.inj hpool).symm
  | @destroyNothing cPosArr entityName hfound =>
    -- a live handle is of a pool that would be found
    have hnil : cPosArr = [] := by
      apply List.eq_nil_iff_forall_not_mem.mpr
      intro cPos hcPos
      obtain ⟨c, hc, rfl⟩ := hlive.2 cPos hcPos
      have hpool := hown c hc hcPos
      rw [hfound] at hpool
      cases hpool
    subst hnil
    have hforget : forget w.created [] = w.created := List.filter_eq_self.mpr fun _ _ => rfl
    rw [hforget]
    exact .keeps
  | @destroyEntitiesRange cPosRange m hdestroy =>
    obtain ⟨gone, rfl, hgone⟩ := exists_gone hlive.2
    exact .destroysRange
      (fun c hc => ⟨hgone c hc, hown c (hgone c hc) (List.mem_map_of_mem hc)⟩) hlive.1 hdestroy
  | deleteEverything => exact .deletes
  | addTime htime => exact .runs htime

omit [DecidableEq S] in
/-- Entities keep owning their slots, and those that stay are not disturbed by allocation. -/
theorem owned_change (h : Owned w.manager w.created) {m : EntityManager R} {created : List Created}
    (hchange : OwnChange statusOf w act m created) :
    Owned m created ∧
      (act.Allocates → Undisturbed w.manager m (kept w.created created)) := by
  have hkept : kept w.created created ⊆ w.created := List.filter_sublist.subset
  have hleft : kept w.created created ⊆ created := by
    intro c hc
    exact of_decide_eq_true (List.mem_filter.mp hc).2
  cases hchange with
  | keeps => exact ⟨h, fun _ => .refl _ _⟩
  | registers hpool => exact ⟨h.registerEntityPool hpool, False.elim⟩
  | creates hcreate hrecord =>
    obtain ⟨new, hnew, -, howned, hundisturbed⟩ := h.createEntities hcreate
    cases hrecord.symm.trans hnew
    exact ⟨howned, fun _ => hundisturbed.mono hkept⟩
  | destroys hgone hnodup hdestroy =>
    obtain ⟨howned, hundisturbed⟩ := h.destroyEntitiesOf hgone hnodup hdestroy
    exact ⟨howned, fun _ => hundisturbed.mono hleft⟩
  | destroysRange hgone hnodup hdestroy =>
    obtain ⟨howned, hundisturbed⟩ := h.destroyEntitiesRange hgone hnodup hdestroy
    exact ⟨howned, fun _ => hundisturbed.mono hleft⟩
  | deletes => exact ⟨h.deleteEverything, False.elim⟩
  | runs htime =>
    obtain ⟨⟨runs, hruns⟩, -, -⟩ := addTime_cases htime
    exact ⟨h.same (EntityManager.same_of_runSystems hruns), False.elim⟩

/-- In every run that destroys only what it may, every slot in use has one owner, and every owner
its slots. -/
theorem owned_of_reach {G : World R S → Act R S V → Prop}
    (hG : ∀ w act, G w act → OwnDestroys w act) (h : (machine R S statusOf).ReachUnder G w) :
    Owned w.manager w.created := by
  refine h.invariant (I := fun w => Owned w.manager w.created) (fun w hw => ?_)
    fun w act w' hw hg hstep => (owned_change hw (ownChange_of_change hw (hG w act hg)
      (change_of_step hw.shaped hstep))).1
  obtain ⟨systems, fixedUpdateTime, -, -, rfl⟩ := hw
  exact owned_new

end World

end Worlds

end ProjectE.Ecs
