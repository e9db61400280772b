import ProjectE.Ecs.Owned

/-!
# The id of a pool

A handle keeps the index of its entity's pool in an `EntityPoolId`, which has eight bits. The index
itself is a `size_t`, and nothing bounds how many pools are registered. Of the first 256 pools the
id is the index, and everything that goes by handles goes to the right pool; an entity of a later
pool is taken for one of another, at the same position.
-/

namespace ProjectE.Ecs

open Verif

/-- The pool that a handle of pool `index` leads to. -/
theorem toNat_poolId (index : Nat) : (UInt8.ofNat index).toNat = index % 256 := by
  rw [UInt8.toNat_ofNat']

theorem toNat_poolId_eq_iff {index : Nat} : (UInt8.ofNat index).toNat = index ↔ index < 256 := by
  rw [toNat_poolId]
  omega

variable {R V : Type} [ComponentPools R] [slots : ComponentSlots R V]

/-! ## One entity created -/

section One

variable {m : EntityManager R} {entityName : String} {pool : ArchetypePool R} {index : Nat}

/-- What one entity created leaves: it holds its handle, and the pointer at the handle has its
position and the id of its pool. -/
structure CreatesOne (m : EntityManager R) (entityName : String) (status : EntityStatus)
    (index : Nat) (pool₁ : ArchetypePool R) (ptrPool₁ : EntityPtrPool) (cPos handle : ChunkPos) :
    Prop where
  answers : m.createEntity entityName status =
    some (⟨m.entityPools.set index pool₁, ptrPool₁⟩, ⟨index, cPos⟩)
  shaped : pool₁.Shaped
  ptrShaped : ptrPool₁.Shaped
  mem_cells : cPos ∈ Grid.cells pool₁.shape
  holds : EntityManager.getChunkPosElem ⟨m.entityPools.set index pool₁, ptrPool₁⟩ ⟨index, cPos⟩ =
    some handle
  pointee : EntityManager.pointee (⟨m.entityPools.set index pool₁, ptrPool₁⟩ : EntityManager R)
    handle = some ⟨(UInt8.ofNat index).toNat, cPos⟩

include slots in
theorem EntityManager.Shaped.createsOne (h : m.Shaped)
    (hfound : m.getEntityPool entityName = some (pool, index)) (status : EntityStatus) :
    ∃ pool₁ ptrPool₁ cPos handle,
      CreatesOne m entityName status index pool₁ ptrPool₁ cPos handle := by
  have hpool := (getEntityPool_some hfound).1
  obtain ⟨grown, set, ptrGrown, ptrSet, ids, hc⟩ := h.creates hfound 1 status
  have hle := ArchetypePool.le_length_of_growTo hc.grow
  have hptrLe := ArchetypePool.le_length_of_growTo hc.ptrGrow
  obtain ⟨cPos, rest, hfree⟩ := List.exists_cons_of_length_pos hle
  obtain ⟨handle, ptrRest, hptrFree⟩ := List.exists_cons_of_length_pos hptrLe
  have htake : grown.freePos.take 1 = [cPos] := by rw [hfree]; rfl
  have hptrTake : ptrGrown.freePos.take 1 = [handle] := by rw [hptrFree]; rfl
  have hcell : cPos ∈ Grid.cells grown.shape :=
    hc.shaped.freePos_mem cPos (hfree ▸ List.mem_cons_self)
  have hptrCell : handle ∈ Grid.cells ptrGrown.shape :=
    hc.ptrShaped.freePos_mem handle (hptrFree ▸ List.mem_cons_self)
  have hafter := hc.shaped_afterCreation h
  -- creating one is creating a batch of one
  obtain ⟨m₂, entity, hone, hmany⟩ :=
    createEntity_eq_batch hfound (h.found hfound) h.ptrPool status
  have hcreate := hc.createEntities hfound
  rw [htake] at hcreate
  cases hmany.symm.trans hcreate
  have hsets := ArchetypePool.setsSlots_of_setEntities hc.write
  have hptrSets := ArchetypePool.setsSlots_of_setEntities hc.ptrWrite
  have hids := hc.idWrite
  rw [htake, hptrTake] at hsets hptrSets
  rw [hptrTake] at hids
  obtain ⟨before, hbefore⟩ := hc.shaped.exists_slot hcell
  obtain ⟨ptrBefore, hptrBefore⟩ := hc.ptrShaped.exists_slot hptrCell
  have hslot : set.slot cPos = some ⟨before.others, handle, status⟩ := by
    have hwritten := hsets.written (List.nodup_singleton _) (cPos, handle) List.mem_cons_self
    rw [hbefore] at hwritten
    exact hwritten
  have hptrSlot : ptrSet.slot handle = some ⟨ptrBefore.others, cPos, ENT_ALIVE⟩ := by
    have hwritten := hptrSets.written (List.nodup_singleton _) (handle, cPos) List.mem_cons_self
    rw [hptrBefore] at hwritten
    exact hwritten
  have hid := ArchetypePool.slot_setIds hids List.mem_cons_self hptrSlot
  refine ⟨set.dropFree 1, ArchetypePool.dropFree { ptrSet with others := ids } 1, cPos, handle,
    hone, (hc.shaped.setEntities hc.write).dropFree 1, hafter.ptrPool, ?_, ?_, ?_⟩
  · show cPos ∈ Grid.cells set.shape
    rw [ArchetypePool.shape_setEntities hc.write]
    exact hcell
  · have hread : (⟨m.entityPools.set index (set.dropFree 1),
        ArchetypePool.dropFree { ptrSet with others := ids } 1⟩ : EntityManager R).slot
          ⟨index, cPos⟩ = some ⟨before.others, handle, status⟩ := by
      rw [EntityManager.slot_set hpool, if_pos rfl]
      exact hslot
    exact EntityManager.getChunkPosElem_of_slot hread
  · obtain ⟨hidRead, hposition, -⟩ := ArchetypePool.slot_eq_some.mp hid
    have hidRead' : ids.getComponent handle = some (UInt8.ofNat index) := hidRead
    have hposition' : ptrSet.chunkPos.getComponent handle = some cPos := hposition
    simp only [EntityManager.pointee, ArchetypePool.dropFree, hidRead', hposition',
      Option.bind_eq_bind, Option.bind_some]
    rfl

/-- An entity created in `m`, which is `m₁` then, and destroyed by its handle: its position goes to
the free list of its pool and is reset there, and the other pools are as they were. -/
def ReturnsTo (m m₁ : EntityManager R) (entity : EntityRef) (handle : ChunkPos) : Prop :=
  ∃ m₂, m₁.destroyEntity handle = some m₂ ∧
    (∃ pool₁ pool₂, m₁.entityPools[entity.pool]? = some pool₁ ∧
      m₂.entityPools[entity.pool]? = some pool₂ ∧ pool₂.freePos = pool₁.freePos ++ [entity.cPos] ∧
      pool₂.slot entity.cPos = some pool₁.blank) ∧
    ∀ other, other ≠ entity.pool → m₂.entityPools[other]? = m.entityPools[other]?

theorem CreatesOne.returnsTo_iff {status : EntityStatus} {pool₁ : ArchetypePool R}
    {ptrPool₁ : EntityPtrPool} {cPos handle : ChunkPos}
    (h : CreatesOne m entityName status index pool₁ ptrPool₁ cPos handle)
    (hlt : index < m.entityPools.length) :
    ReturnsTo m ⟨m.entityPools.set index pool₁, ptrPool₁⟩ ⟨index, cPos⟩ handle ↔ index < 256 := by
  have hpool₁ : (m.entityPools.set index pool₁)[index]? = some pool₁ := List.getElem?_set_self hlt
  constructor
  · rintro ⟨m₂, hdestroy, ⟨pool, pool₂, hpool, hpool₂, hfree, -⟩, -⟩
    cases hpool₁.symm.trans hpool
    obtain ⟨poolId, position, hid, hback⟩ := EntityManager.givesBack_destroyEntity hdestroy
    obtain ⟨pool₁', hpool₁', hfree'⟩ := hback.pools index pool₂ hpool₂
    cases hpool₁.symm.trans hpool₁'
    have hid' : poolId = UInt8.ofNat index := by
      obtain ⟨poolId', hread, hpointee⟩ := Option.bind_eq_some_iff.mp h.pointee
      cases hid.symm.trans hread
      obtain ⟨position', -, hpointee⟩ := Option.bind_eq_some_iff.mp hpointee
      have heq := congrArg EntityRef.pool (Option.some.inj hpointee)
      exact UInt8.toNat_inj.mp heq
    rw [← toNat_poolId_eq_iff, ← hid']
    by_contra hne
    -- the position went to another pool's list
    rw [List.filter_cons_of_neg (by simpa using hne), List.filter_nil, List.map_nil,
      List.append_nil] at hfree'
    rw [hfree'] at hfree
    exact List.cons_ne_nil _ _ (List.append_right_eq_self.mp hfree.symm)
  · intro hindex
    have hcells : ∀ index ∈ [cPos], index ∈ Grid.cells pool₁.shape := by
      intro index hmem
      cases List.mem_singleton.mp hmem
      exact h.mem_cells
    obtain ⟨pool', hreset, -, -⟩ :=
      ArchetypePool.resetEntityAtIndexes_of_uniform pool₁ h.shaped.uniform hcells
    obtain ⟨ptrPool', hptrReset⟩ := Option.isSome_iff_exists.mp
      (EntityManager.isSome_reset_of_pointee h.ptrShaped h.pointee)
    have hresets := ArchetypePool.resetsSlots_of_reset hreset
    have hgive : EntityManager.giveBackOne (m.entityPools.set index pool₁) ⟨index, cPos⟩ =
        some (m.entityPools.set index (pool'.insertFree [cPos])) := by
      simp only [EntityManager.giveBackOne, hpool₁, hreset, Option.bind_eq_bind, Option.bind_some,
        List.set_set]
      rfl
    refine ⟨⟨m.entityPools.set index (pool'.insertFree [cPos]), ptrPool'⟩, ?_,
      ⟨pool₁, pool'.insertFree [cPos], hpool₁, List.getElem?_set_self hlt, ?_, ?_⟩, ?_⟩
    · rw [EntityManager.destroyEntity_eq h.pointee, toNat_poolId_eq_iff.mpr hindex, hgive,
        Option.bind_some, hptrReset, Option.map_some]
    · show pool'.freePos ++ [cPos] = _
      rw [hresets.freePos]
    · exact hresets.reset cPos List.mem_cons_self
    · intro other hother
      exact List.getElem?_set_ne (Ne.symm hother)

end One

/-! ## Handles and pools -/

section Handles

variable {S : Type} [DecidableEq S]

theorem shaped_names_of_reach {statusOf : S → Option EntityStatus} {w : World R S}
    (h : (World.machine R S statusOf).ReachUnder
      (fun w act => World.FreshPools w act ∧ World.DistinctNames w act) w) :
    w.manager.Shaped ∧ w.manager.names.Nodup := by
  refine h.invariant (I := fun w => w.manager.Shaped ∧ w.manager.names.Nodup) (fun w hw => ?_)
    fun w act w' hw hact hstep => ?_
  · obtain ⟨systems, fixedUpdateTime, -, -, rfl⟩ := hw
    exact ⟨World.shaped_new systems fixedUpdateTime, List.nodup_nil⟩
  · have hchange := World.change_of_step hw.1 hstep
    refine ⟨World.shaped_change hw.1 hact.1 hchange, ?_⟩
    rw [World.names_change hw.1 hchange]
    cases act with
    | registerEntityPool entityName chunkSize others componentNames =>
      refine hw.2.append (List.nodup_singleton _) fun name hmem hnew => ?_
      obtain ⟨pool, hpool, rfl⟩ := List.mem_map.mp hmem
      exact hact.2 pool hpool (List.mem_singleton.mp hnew)
    | _ => exact hw.2.append List.nodup_nil fun _ _ h => List.not_mem_nil h

/-- **A handle remembers its pool, if it is one of the first 256**: whatever was registered,
created, destroyed and run before, an entity created and destroyed by its handle goes back to its
pool, and to that one only, exactly if the pool's index is one an id can be. -/
theorem handle_remembers_pool_iff (statusOf : S → Option EntityStatus) (w : World R S)
    (h : (World.machine R S statusOf).ReachUnder
      (fun w act => World.FreshPools w act ∧ World.DistinctNames w act) w)
    (index : Nat) (pool : ArchetypePool R) (hpool : w.manager.entityPools[index]? = some pool)
    (status : EntityStatus) :
    ∃ m₁ entity handle,
      w.manager.createEntity pool.entityName status = some (m₁, entity) ∧ entity.pool = index ∧
      m₁.getChunkPosElem entity = some handle ∧
      (ReturnsTo w.manager m₁ entity handle ↔ index < 256) := by
  obtain ⟨hshaped, hnames⟩ := shaped_names_of_reach h
  have hfound := EntityManager.getEntityPool_of_getElem? hnames hpool
  obtain ⟨pool₁, ptrPool₁, cPos, handle, hone⟩ := hshaped.createsOne hfound status
  exact ⟨_, _, handle, hone.answers, rfl, hone.holds,
    hone.returnsTo_iff (List.getElem?_eq_some_iff.mp hpool).1⟩

end Handles

/-! ### More pools than ids -/

/-- Nothing is said of systems. -/
def noStatus : Bool → Option EntityStatus := fun _ => none

theorem init_twoSystems : (World.machine Unit Bool noStatus).init (World.new twoSystems 0) :=
  ⟨twoSystems, 0, fresh_twoSystems, fun _ hs => absurd hs Bool.false_ne_true, rfl⟩

/-- Pools of any number of names. -/
theorem exists_registered (names : List String) (hnames : names.Nodup) : ∃ w : World Unit Bool,
    (World.machine Unit Bool noStatus).ReachUnder
      (fun w act => World.FreshPools w act ∧ World.DistinctNames w act) w ∧
      w.manager.names = names := by
  induction names using List.reverseRec with
  | nil => exact ⟨_, .init init_twoSystems, rfl⟩
  | append_singleton names name ih =>
    obtain ⟨w, hreach, rfl⟩ := ih hnames.of_append_left
    refine ⟨_, hreach.step (a := .registerEntityPool name 1 () ["EntityStatus", "ChunkPos"])
      ⟨⟨by decide, fun _ h => absurd h List.not_mem_nil⟩, fun pool hpool hname => ?_⟩ rfl, ?_⟩
    · exact List.disjoint_of_nodup_append hnames (List.mem_map_of_mem hpool)
        (hname ▸ List.mem_singleton_self name)
    · simp [EntityManager.names, EntityManager.registerEntityPool, ArchetypePool.new]

/-- An entity of the second of two pools. -/
theorem handle_remembers_pool_second : ∃ w : World Unit Bool, ∃ m₁ entity handle,
    w.manager.createEntity "Sprite" ENT_ALIVE = some (m₁, entity) ∧ entity.pool = 1 ∧
      m₁.getChunkPosElem entity = some handle ∧ ReturnsTo w.manager m₁ entity handle := by
  obtain ⟨w, hreach, hnames⟩ := exists_registered ["Window", "Sprite"] (by decide)
  have hname : (w.manager.entityPools[1]?).map (·.entityName) = some "Sprite" := by
    rw [← List.getElem?_map]
    exact congrArg (·[1]?) hnames
  obtain ⟨pool, hpool, hsprite⟩ := Option.map_eq_some_iff.mp hname
  obtain ⟨m₁, entity, handle, hcreate, hentity, hholds, hreturns⟩ :=
    handle_remembers_pool_iff noStatus w hreach 1 pool hpool ENT_ALIVE
  exact ⟨w, m₁, entity, handle, hsprite ▸ hcreate, hentity, hholds, hreturns.mpr (by decide)⟩

/-- The 257th pool's entities are not returned to it. -/
theorem not_handle_remembers_every_pool :
    ¬ ∀ w : World Unit Bool, (World.machine Unit Bool noStatus).ReachUnder
      (fun w act => World.FreshPools w act ∧ World.DistinctNames w act) w →
      ∀ (index : Nat) (pool : ArchetypePool Unit), w.manager.entityPools[index]? = some pool →
      ∀ status m₁ entity handle,
        w.manager.createEntity pool.entityName status = some (m₁, entity) →
        m₁.getChunkPosElem entity = some handle → ReturnsTo w.manager m₁ entity handle := by
  intro hall
  have hinjective : Function.Injective fun n => String.ofList (List.replicate n 'e') := by
    intro n n' heq
    have hlength := congrArg List.length (String.ofList_injective heq)
    rwa [List.length_replicate, List.length_replicate] at hlength
  obtain ⟨w, hreach, hnames⟩ := exists_registered
    ((List.range 257).map fun n => String.ofList (List.replicate n 'e'))
    (List.nodup_range.map hinjective)
  obtain ⟨hshaped, hnodup⟩ := shaped_names_of_reach hreach
  have hlt : 256 < w.manager.entityPools.length := by
    have hlength := congrArg List.length hnames
    simp only [EntityManager.names, List.length_map, List.length_range] at hlength
    omega
  have hpool := List.getElem?_eq_getElem hlt
  have hfound := EntityManager.getEntityPool_of_getElem? hnodup hpool
  obtain ⟨pool₁, ptrPool₁, cPos, handle, hone⟩ := hshaped.createsOne hfound ENT_ALIVE
  have hreturns := hall w hreach 256 _ hpool ENT_ALIVE _ _ handle hone.answers hone.holds
  exact absurd ((hone.returnsTo_iff hlt).mp hreturns) (by decide)

/-! ## One and many -/

section Batches

variable {S : Type} [DecidableEq S]

theorem createEntities_agrees {m : EntityManager R} (h : m.Shaped) {entityName : String}
    {pool : ArchetypePool R} {index : Nat}
    (hfound : m.getEntityPool entityName = some (pool, index)) (count : Nat)
    (status : EntityStatus) :
    (m.createEntities entityName count status).isSome ∧
      m.createEntities entityName count status = m.createTimes entityName status count ∧
      m.createEntitiesN entityName count status = m.createTimes entityName status count := by
  have heq := EntityManager.createEntities_eq_createTimes h hfound count status
  obtain ⟨grown, set, ptrGrown, ptrSet, ids, hc⟩ := h.creates hfound count status
  exact ⟨Option.isSome_iff_exists.mpr ⟨_, hc.createEntities hfound⟩, heq, heq⟩

include slots in
/-- Entities of one pool destroyed as a range, with the name that finds the pool, and one by one. -/
theorem Owned.destroyEntities_agrees {m : EntityManager R} {created gone : List Created}
    (h : Owned m created) {entityName : String} {pool : ArchetypePool R} {index : Nat}
    (hfound : m.getEntityPool entityName = some (pool, index))
    (hgone : ∀ c ∈ gone, c ∈ created ∧ c.entity.pool = index)
    (hnodup : (gone.map Created.handle).Nodup) :
    m.destroyEntitiesRange (gone.map Created.handle) = m.destroyTimes (gone.map Created.handle) ∧
      (m.destroyEntities (gone.map Created.handle) entityName).isSome ∧
      (m.destroyEntities (gone.map Created.handle) entityName =
          m.destroyTimes (gone.map Created.handle) ↔
        gone.map Created.handle = [] ∨ index < 256) := by
  have hpool := (EntityManager.getEntityPool_some hfound).1
  have hsent := h.mapM_pointee fun c hc => (hgone c hc).1
  obtain ⟨m', hdestroy⟩ := h.exists_destroyEntitiesOf hgone hnodup hpool
  have hnamed : m.destroyEntities (gone.map Created.handle) entityName = some m' := by
    simp only [EntityManager.destroyEntities, hfound]
    exact hdestroy
  refine ⟨EntityManager.destroyEntitiesRange_eq_destroyTimes h.ptrPool.shaped hnodup hsent,
    by rw [hnamed]; rfl, ?_⟩
  rw [hnamed]
  constructor
  · intro heq
    by_contra hnot
    obtain ⟨hne, hindex⟩ := not_or.mp hnot
    exact EntityManager.destroyTimes_ne h.ptrPool.shaped hnodup hsent hne
      (Nat.le_of_not_lt hindex) hdestroy heq.symm
  · intro hids
    have hown : (gone.map Created.handle).mapM m.pointee =
        some ((gone.map fun c => c.entity.cPos).map fun cPos => ⟨index, cPos⟩) := by
      rw [hsent, List.map_map]
      refine congrArg some (List.map_congr_left fun c hc => ?_)
      have hne : gone.map Created.handle ≠ [] :=
        List.ne_nil_of_mem (List.mem_map_of_mem hc)
      rw [(hgone c hc).2, toNat_poolId_eq_iff.mpr (hids.resolve_left hne)]
      rfl
    rw [← hdestroy]
    exact EntityManager.destroyEntitiesOf_eq h.ptrPool.shaped hnodup hpool hown

/-- **Batches do what single calls do**, where pools are registered with a chunk size and without
chunks: many entities are created as one after the other, in every state reached, and the range of
handles that looks every pool up is destroyed as one after the other. Told the archetype, destroying
does the same exactly if there is nothing to destroy or the pool's index is an id. -/
theorem batches_agree (statusOf : S → Option EntityStatus) :
    (∀ w : World R S, (World.machine R S statusOf).ReachUnder World.FreshPools w →
      ∀ entityName pool index, w.manager.getEntityPool entityName = some (pool, index) →
      ∀ count status,
        (w.manager.createEntities entityName count status).isSome ∧
        w.manager.createEntities entityName count status =
          w.manager.createTimes entityName status count ∧
        w.manager.createEntitiesN entityName count status =
          w.manager.createTimes entityName status count) ∧
    ∀ w : World R S, (World.machine R S statusOf).ReachUnder World.OwnDestroys w →
      ∀ entityName pool index, w.manager.getEntityPool entityName = some (pool, index) →
      ∀ cPosArr : List ChunkPos, cPosArr.Nodup →
      (∀ cPos ∈ cPosArr, ∃ c ∈ w.created, c.handle = cPos ∧ c.entity.pool = index) →
        w.manager.destroyEntitiesRange cPosArr = w.manager.destroyTimes cPosArr ∧
        (w.manager.destroyEntities cPosArr entityName).isSome ∧
        (w.manager.destroyEntities cPosArr entityName = w.manager.destroyTimes cPosArr ↔
          cPosArr = [] ∨ index < 256) := by
  constructor
  · intro w hw entityName pool index hfound count status
    have hshaped := World.shaped_of_reach (fun _ _ h => h) hw
    exact createEntities_agrees hshaped hfound count status
  · intro w hw entityName pool index hfound cPosArr hnodup hlive
    have hlive' : ∀ cPos ∈ cPosArr, ∃ c ∈ w.created.filter (·.entity.pool = index),
        c.handle = cPos := by
      intro cPos hcPos
      obtain ⟨c, hc, hhandle, hindex⟩ := hlive cPos hcPos
      exact ⟨c, List.mem_filter.mpr ⟨hc, decide_eq_true hindex⟩, hhandle⟩
    obtain ⟨gone, rfl, hgone⟩ := exists_gone hlive'
    have howned := World.owned_of_reach (fun _ _ h => h) hw
    refine howned.destroyEntities_agrees hfound ?_ hnodup
    intro c hc
    obtain ⟨hmem, hindex⟩ := List.mem_filter.mp (hgone c hc)
    exact ⟨hmem, of_decide_eq_true hindex⟩

end Batches

/-- Three entities in two chunks: three more of them, and two of them destroyed. -/
theorem batches_agree_window : ∃ w : World Unit Bool,
    w.manager.createEntities "Window" 3 ENT_ALIVE =
        w.manager.createTimes "Window" ENT_ALIVE 3 ∧
      w.manager.destroyEntitiesRange [(0, 2), (0, 0)] = w.manager.destroyTimes [(0, 2), (0, 0)] ∧
      w.manager.destroyEntities [(0, 2), (0, 0)] "Window" =
        w.manager.destroyTimes [(0, 2), (0, 0)] := by
  have hw : (((World.machine Unit Bool noStatus).exec World.OwnDestroys (World.new twoSystems 0)
      [.registerEntityPool "Window" 2 () ["EntityStatus", "ChunkPos"],
        .createEntities "Window" 3 ENT_ALIVE]).any fun w =>
      decide ((w.manager.getEntityPool "Window").map (·.2) = some 0 ∧
        ∀ cPos ∈ [(0, 2), (0, 0)], ∃ c ∈ w.created, c.handle = cPos ∧ c.entity.pool = 0)) =
          true := by
    decide +kernel
  obtain ⟨w, hreach, hp⟩ := Machine.reachUnder_of_exec init_twoSystems hw
  obtain ⟨hindex, hlive⟩ := of_decide_eq_true hp
  obtain ⟨⟨pool, index⟩, hfound, rfl⟩ := Option.map_eq_some_iff.mp hindex
  obtain ⟨-, hcreate, -⟩ := (batches_agree noStatus).1 w (hreach.mono fun _ _ h => h.1) "Window"
    pool 0 hfound 3 ENT_ALIVE
  obtain ⟨hrange, -, hnamed⟩ := (batches_agree noStatus).2 w hreach "Window" pool 0 hfound
    [(0, 2), (0, 0)] (by decide) hlive
  exact ⟨w, hcreate, hrange, hnamed.mpr (.inr (by decide))⟩

/-- A pool of each of 257 names, and an entity in the first and in the last. -/
def twoOwners : List (Act Unit Bool Unit) :=
  (List.range 257).map (fun n =>
    .registerEntityPool (Nat.repr n) 1 () ["EntityStatus", "ChunkPos"]) ++
  [.createEntity "0" ENT_ALIVE, .createEntity "256" ENT_ALIVE]

set_option maxRecDepth 10000 in
/-- Told the archetype, the entity in the last pool goes back to it; by its handle, it does not. -/
theorem not_destroyEntities_eq_destroyTimes :
    ¬ ∀ w : World Unit Bool, (World.machine Unit Bool noStatus).ReachUnder World.OwnDestroys w →
      ∀ entityName pool index, w.manager.getEntityPool entityName = some (pool, index) →
      ∀ cPosArr : List ChunkPos, cPosArr.Nodup →
      (∀ cPos ∈ cPosArr, ∃ c ∈ w.created, c.handle = cPos ∧ c.entity.pool = index) →
        w.manager.destroyEntities cPosArr entityName = w.manager.destroyTimes cPosArr := by
  intro hall
  have hw : (((World.machine Unit Bool noStatus).exec World.OwnDestroys (World.new twoSystems 0)
      twoOwners).any fun w =>
      decide ((w.manager.getEntityPool "256").map (·.2) = some 256 ∧
        (∀ cPos ∈ [(0, 1)], ∃ c ∈ w.created, c.handle = cPos ∧ c.entity.pool = 256) ∧
        (w.manager.destroyEntities [(0, 1)] "256").map (·.entityPools.map (·.freePos)) ≠
          (w.manager.destroyTimes [(0, 1)]).map (·.entityPools.map (·.freePos)))) = true := by
    decide +kernel
  obtain ⟨w, hreach, hp⟩ := Machine.reachUnder_of_exec init_twoSystems hw
  obtain ⟨hindex, hlive, hne⟩ := of_decide_eq_true hp
  obtain ⟨⟨pool, index⟩, hfound, rfl⟩ := Option.map_eq_some_iff.mp hindex
  exact hne (congrArg _ (hall w hreach "256" pool 256 hfound [(0, 1)] (by decide) hlive))

/-! ## Other entities -/

/-- **Allocation disturbs no other entity**, as long as what is destroyed goes back to its own pool:
the slots of the entities that stay and the pointers at their handles are as they were, and where
they were. -/
theorem allocation_undisturbed {S : Type} [DecidableEq S] (statusOf : S → Option EntityStatus)
    (w w' : World R S) (act : Act R S V)
    (h : (World.machine R S statusOf).ReachUnder World.OwnDestroys w)
    (hact : World.OwnDestroys w act) (hallocates : act.Allocates)
    (hstep : World.step statusOf w act = some w') :
    Undisturbed w.manager w'.manager (kept w.created w'.created) := by
  have howned := World.owned_of_reach (fun _ _ h => h) h
  have hchange := World.change_of_step howned.shaped hstep
  exact (World.owned_change howned (World.ownChange_of_change howned hact hchange)).2 hallocates

/-- One of two entities is destroyed, of one pool. -/
theorem allocation_undisturbed_window : ∃ w w' : World Unit Bool,
    Undisturbed w.manager w'.manager (kept w.created w'.created) ∧
      kept w.created w'.created = [⟨(0, 0), ⟨0, (0, 0)⟩⟩] := by
  have hw : (((World.machine Unit Bool noStatus).exec World.OwnDestroys (World.new twoSystems 0)
      [.registerEntityPool "Window" 2 () ["EntityStatus", "ChunkPos"],
        .createEntities "Window" 2 ENT_ALIVE]).any fun w =>
      decide (World.OwnDestroys w (.destroyEntity (0, 1) : Act Unit Bool Unit) ∧
        ((World.step noStatus w (.destroyEntity (0, 1) : Act Unit Bool Unit)).map fun w' =>
          kept w.created w'.created) = some [⟨(0, 0), ⟨0, (0, 0)⟩⟩])) = true := by
    decide +kernel
  obtain ⟨w, hreach, hp⟩ := Machine.reachUnder_of_exec init_twoSystems hw
  obtain ⟨hact, hkept⟩ := of_decide_eq_true hp
  obtain ⟨w', hstep, hkept⟩ := Option.map_eq_some_iff.mp hkept
  exact ⟨w, w', allocation_undisturbed noStatus w w' _ hreach hact trivial hstep, hkept⟩

set_option maxRecDepth 10000 in
/-- Destroyed by its handle, the entity in the last pool takes that in the first with it. -/
theorem not_allocation_undisturbed :
    ¬ ∀ w w' : World Unit Bool, ∀ act : Act Unit Bool Unit,
      (World.machine Unit Bool noStatus).ReachUnder
        (fun w act => World.FreshPools w act ∧ World.LiveDestroys w act) w →
      World.FreshPools w act ∧ World.LiveDestroys w act → act.Allocates →
      World.step noStatus w act = some w' →
        Undisturbed w.manager w'.manager (kept w.created w'.created) := by
  intro hall
  have hw : (((World.machine Unit Bool noStatus).exec World.OwnDestroys (World.new twoSystems 0)
      twoOwners).any fun w =>
      decide ((World.FreshPools w (.destroyEntity (0, 1) : Act Unit Bool Unit) ∧
          World.LiveDestroys w (.destroyEntity (0, 1) : Act Unit Bool Unit)) ∧
        (World.step noStatus w (.destroyEntity (0, 1) : Act Unit Bool Unit)).any fun
            w' : World Unit Bool => decide (∃ c ∈ kept w.created w'.created,
            w'.manager.slot c.entity ≠ w.manager.slot c.entity))) = true := by
    decide +kernel
  obtain ⟨w, hreach, hp⟩ := Machine.reachUnder_of_exec init_twoSystems hw
  obtain ⟨hact, hstep⟩ := of_decide_eq_true hp
  obtain ⟨w', hstep, hchanged⟩ := (Option.any_eq_true _ _).mp hstep
  obtain ⟨c, hc, hne⟩ := of_decide_eq_true hchanged
  have hundisturbed := hall w w' _ (hreach.mono fun _ _ h => ⟨h.1, h.2.1⟩) hact trivial hstep
  exact hne (hundisturbed.slot c hc)

end ProjectE.Ecs
