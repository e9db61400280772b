import ProjectE.Ecs.EntityManager
import ProjectE.Lib.Transition
import Mathlib.Data.List.Zip

/-!
# Allocation

The manager as a state machine: pools are registered, entities created and destroyed, one or many
at a time, and everything deleted, in any order. `created` records every entity with the handle it
holds when it is created, until that handle is destroyed; the manager does not see it.

The invariant says that every pool has given out the positions of the entities recorded in it, that
the pool of pointers has given out their handles, and that the two pointers of each are written.
What is said of every state reached (`Consistent`) speaks of the manager's own data.
-/

namespace ProjectE.Ecs

open Verif

/-- An entity, and the handle it was created with. -/
structure Created where
  handle : ChunkPos
  entity : EntityRef
deriving DecidableEq, Repr

/-- The manager, and a record of the entities created and not destroyed since. -/
structure State (R : Type) where
  manager : EntityManager R
  created : List Created

/-- What the manager is asked. -/
inductive Op (R : Type) where
  | registerEntityPool (entityName : String) (chunkSize : Nat) (others : R)
  | createEntity (entityName : String) (status : EntityStatus)
  | createEntities (entityName : String) (count : Nat) (status : EntityStatus)
  | destroyEntity (cPos : ChunkPos)
  | destroyEntities (cPosArr : List ChunkPos) (entityName : String)
  | deleteEverything

variable {R : Type}

/-- The handles that entities just created hold. -/
def record (m : EntityManager R) (entities : List EntityRef) : Option (List Created) :=
  entities.mapM fun entity => (m.getChunkPosElem entity).map fun handle => ⟨handle, entity⟩

/-- The entities left once handles are destroyed. -/
def forget (created : List Created) (cPosArr : List ChunkPos) : List Created :=
  created.filter fun c => !cPosArr.contains c.handle

/-- The id of the pool of a name. -/
def EntityManager.getEntityPoolId (m : EntityManager R) (entityName : String) :
    Option EntityPoolId :=
  (m.getEntityPool entityName).map fun entry => UInt8.ofNat entry.2

variable [ComponentPools R]

/-- A call, if it comes to an end; the record is kept by what the calls answer and are given. -/
def step (s : State R) : Op R → Option (State R)
  | .registerEntityPool entityName chunkSize others =>
    some { s with
      manager := s.manager.registerEntityPool (ArchetypePool.new entityName chunkSize others) }
  | .createEntity entityName status => do
    let (manager, entity) ← s.manager.createEntity entityName status
    let created ← record manager [entity]
    return ⟨manager, s.created ++ created⟩
  | .createEntities entityName count status => do
    let (manager, entities) ← s.manager.createEntities entityName count status
    let created ← record manager entities
    return ⟨manager, s.created ++ created⟩
  | .destroyEntity cPos => do
    let manager ← s.manager.destroyEntity cPos
    return ⟨manager, forget s.created [cPos]⟩
  | .destroyEntities cPosArr entityName => do
    let manager ← s.manager.destroyEntities cPosArr entityName
    return ⟨manager, forget s.created cPosArr⟩
  | .deleteEverything => some ⟨s.manager.deleteEverything, []⟩

/-- What the callers keep to. A pool is registered new, its component pools without chunks; there
are at most 256 pools, so that an `EntityPoolId` tells them apart. -/
def Allowed (s : State R) : Op R → Prop
  | .registerEntityPool entityName chunkSize others =>
    s.manager.entityPools.length < 256 ∧
      (∀ pool ∈ s.manager.entityPools, pool.entityName ≠ entityName) ∧ 0 < chunkSize ∧
      ∀ layout ∈ ComponentPools.layouts others, layout = []
  | .createEntity entityName _ => (s.manager.getEntityPool entityName).isSome
  | .createEntities entityName _ _ => (s.manager.getEntityPool entityName).isSome
  | .destroyEntity cPos => cPos ∈ s.manager.entityPtrPool.live
  | .destroyEntities cPosArr entityName =>
    cPosArr.Nodup ∧ ∀ cPos ∈ cPosArr, cPos ∈ s.manager.entityPtrPool.live ∧
      s.manager.entityPtrPool.others.getComponent cPos = s.manager.getEntityPoolId entityName
  | .deleteEverything => True

instance (s : State R) : ∀ op, Decidable (Allowed s op)
  | .registerEntityPool _ _ _ => inferInstanceAs (Decidable (_ ∧ _ ∧ _ ∧ _))
  | .createEntity _ _ => inferInstanceAs (Decidable (_ = true))
  | .createEntities _ _ _ => inferInstanceAs (Decidable (_ = true))
  | .destroyEntity _ => inferInstanceAs (Decidable (_ ∈ _))
  | .destroyEntities _ _ => inferInstanceAs (Decidable (_ ∧ _))
  | .deleteEverything => inferInstanceAs (Decidable True)

/-- The manager from when it holds no pool. -/
def machine (R : Type) [ComponentPools R] : Machine (State R) (Op R) where
  init s := s = ⟨EntityManager.new, []⟩
  step := step

/-! ## The invariant -/

/-- The positions recorded in a pool. -/
def positions (created : List Created) (pool : Nat) : List ChunkPos :=
  (created.filter fun c => c.entity.pool = pool).map fun c => c.entity.cPos

/-- The two pointers of an entity and its handle: at the handle stand the id of the pool and the
position in it, and at that position stands the handle. The id has eight bits, so it says which pool
only where there are no more than 256. -/
structure Stored (m : EntityManager R) (c : Created) : Prop where
  poolId : m.entityPtrPool.others.getComponent c.handle = some (UInt8.ofNat c.entity.pool)
  cPos : m.entityPtrPool.chunkPos.getComponent c.handle = some c.entity.cPos
  handle : m.getChunkPosElem c.entity = some c.handle

/-- What holds along every run: each pool is laid out for the entities the record has in it, and the
pool of the handles for their handles. -/
structure Inv (s : State R) : Prop where
  count : s.manager.entityPools.length ≤ 256
  names : (s.manager.entityPools.map (·.entityName)).Nodup
  pools : ∀ (index : Nat) (pool : ArchetypePool R), s.manager.entityPools[index]? = some pool →
    pool.Laid (positions s.created index)
  ptrPool : s.manager.entityPtrPool.Laid (s.created.map Created.handle)
  stored : ∀ c ∈ s.created, Stored s.manager c

variable {s : State R} {created created' : List Created} {m : EntityManager R} {index : Nat}
  {pool pool' : ArchetypePool R} {ptrPool' : EntityPtrPool}

/-! ### Recorded positions -/

/-- A position is on the list if an entity of the record is there. -/
theorem mem_positions {cPos : ChunkPos} :
    cPos ∈ positions created index ↔ ∃ c ∈ created, c.entity = ⟨index, cPos⟩ := by
  simp only [positions, List.mem_map, List.mem_filter, decide_eq_true_eq]
  constructor
  · rintro ⟨⟨handle, entity⟩, ⟨hmem, rfl⟩, rfl⟩
    exact ⟨⟨handle, entity⟩, hmem, rfl⟩
  · rintro ⟨⟨handle, entity⟩, hmem, rfl⟩
    exact ⟨⟨handle, ⟨index, cPos⟩⟩, ⟨hmem, rfl⟩, rfl⟩

/-- The positions of two records together. -/
theorem positions_append : positions (created ++ created') index =
    positions created index ++ positions created' index := by
  simp only [positions, List.filter_append, List.map_append]

/-- Where all entities are in one pool the record is the list of its positions. -/
theorem positions_of_pool (h : ∀ c ∈ created, c.entity.pool = index) :
    positions created index = created.map fun c => c.entity.cPos := by
  rw [positions, List.filter_eq_self.mpr fun c hc => decide_eq_true (h c hc)]

/-- And no other pool has any. -/
theorem positions_of_ne (h : ∀ c ∈ created, c.entity.pool = index) {other : Nat}
    (hother : other ≠ index) : positions created other = [] := by
  rw [positions, List.filter_eq_nil_iff.mpr, List.map_nil]
  intro c hc hpool
  exact hother ((of_decide_eq_true hpool).symm.trans (h c hc))

/-- The order of the record does not matter. -/
theorem positions_perm (h : created.Perm created') :
    (positions created index).Perm (positions created' index) :=
  (h.filter _).map _

/-- What is left are the entities whose handles were not given back. -/
theorem mem_forget {cPosArr : List ChunkPos} {c : Created} :
    c ∈ forget created cPosArr ↔ c ∈ created ∧ c.handle ∉ cPosArr := by
  simp [forget]

/-- What is destroyed and what is left. -/
theorem perm_forget (hnodup : (created.map Created.handle).Nodup) {gone : List Created}
    (hgone : ∀ c ∈ gone, c ∈ created) (hgoneNodup : (gone.map Created.handle).Nodup) :
    created.Perm (gone ++ forget created (gone.map Created.handle)) := by
  have hleft : (gone ++ forget created (gone.map Created.handle)).Nodup := by
    apply hgoneNodup.of_map.append (hnodup.of_map.filter _)
    intro c hc hforget
    exact (mem_forget.mp hforget).2 (List.mem_map_of_mem hc)
  apply (List.perm_ext_iff_of_nodup hnodup.of_map hleft).mpr
  intro c
  rw [List.mem_append, mem_forget]
  constructor
  · intro hc
    by_cases hhandle : c.handle ∈ gone.map Created.handle
    · obtain ⟨c', hc', heq⟩ := List.mem_map.mp hhandle
      have hsame : c' = c := List.inj_on_of_nodup_map hnodup (hgone c' hc') hc heq
      exact .inl (hsame ▸ hc')
    · exact .inr ⟨hc, hhandle⟩
  · rintro (hc | hc)
    · exact hgone c hc
    · exact hc.1

/-- Handles of entities recorded name them. -/
theorem exists_gone : ∀ {cPosArr : List ChunkPos},
    (∀ cPos ∈ cPosArr, ∃ c ∈ created, c.handle = cPos) →
      ∃ gone : List Created, gone.map Created.handle = cPosArr ∧ ∀ c ∈ gone, c ∈ created
  | [], _ => ⟨[], rfl, fun _ hc => absurd hc List.not_mem_nil⟩
  | cPos :: cPosArr, h => by
    obtain ⟨⟨c, hc, rfl⟩, hrest⟩ := List.forall_mem_cons.mp h
    obtain ⟨gone, rfl, hgone⟩ := exists_gone hrest
    exact ⟨c :: gone, rfl, List.forall_mem_cons.mpr ⟨hc, hgone⟩⟩

/-- One handle given back before the others. -/
theorem forget_forget (created : List Created) (cPos : ChunkPos) (cPosArr : List ChunkPos) :
    forget (forget created [cPos]) cPosArr = forget created (cPos :: cPosArr) := by
  simp only [forget, List.filter_filter]
  apply List.filter_congr
  intro c _
  simp only [List.contains_cons, List.contains_nil, Bool.or_false, Bool.not_or, Bool.and_comm]

/-! ### One pool changes -/

omit [ComponentPools R] in
/-- A pointer position is read in the pool it is in, and a pool that is exchanged concerns
no other. -/
theorem getChunkPosElem_set (hpool : m.entityPools[index]? = some pool) (entity : EntityRef) :
    EntityManager.getChunkPosElem ⟨m.entityPools.set index pool', ptrPool'⟩ entity =
      if entity.pool = index then pool'.chunkPos.getComponent entity.cPos
      else m.getChunkPosElem entity := by
  have hlt : index < m.entityPools.length := (List.getElem?_eq_some_iff.mp hpool).1
  split
  · next heq =>
    simp [EntityManager.getChunkPosElem, heq, List.getElem?_set_self hlt]
  · next hne =>
    simp [EntityManager.getChunkPosElem, List.getElem?_set_ne (Ne.symm hne)]

omit [ComponentPools R] in
/-- Entities that hold their handles are recorded with them. -/
theorem record_of_handles (h : ∀ c ∈ created, m.getChunkPosElem c.entity = some c.handle) :
    record m (created.map Created.entity) = some created := by
  rw [record, List.mapM_map]
  have hmap : created.mapM (fun c => (m.getChunkPosElem c.entity).map fun handle =>
      (⟨handle, c.entity⟩ : Created)) = some (created.map id) := by
    apply Grid.mapM_eq_some_map
    intro c hc
    rw [h c hc]
    rfl
  rw [List.map_id] at hmap
  exact hmap

omit [ComponentPools R] in
/-- A pool that keeps its name keeps the list of names. -/
theorem map_entityName_set {entityPools : List (ArchetypePool R)}
    (hpool : entityPools[index]? = some pool) (hname : pool'.entityName = pool.entityName) :
    (entityPools.set index pool').map (·.entityName) = entityPools.map (·.entityName) := by
  obtain ⟨hlt, hget⟩ := List.getElem?_eq_some_iff.mp hpool
  rw [List.map_set, hname, ← hget, ← List.map_set, List.set_getElem_self]

omit [ComponentPools R] in
/-- An entity keeps its pointers where the positions they are at are not written. -/
theorem Stored.set {c : Created} (h : Stored m c) (hpool : m.entityPools[index]? = some pool)
    (hid : ptrPool'.others.getComponent c.handle = some (UInt8.ofNat c.entity.pool))
    (hptr : ptrPool'.chunkPos.getComponent c.handle = some c.entity.cPos)
    (hpos : c.entity.pool = index → pool.chunkPos.getComponent c.entity.cPos = some c.handle →
      pool'.chunkPos.getComponent c.entity.cPos = some c.handle) :
    Stored ⟨m.entityPools.set index pool', ptrPool'⟩ c := by
  refine ⟨hid, hptr, ?_⟩
  rw [getChunkPosElem_set hpool]
  split
  · next heq =>
    apply hpos heq
    have hread := h.handle
    simpa [EntityManager.getChunkPosElem, heq, hpool] using hread
  · exact h.handle

/-- What a change of one pool and of the pointers has to keep. -/
theorem Inv.set (h : Inv s) (hpool : s.manager.entityPools[index]? = some pool)
    (hname : pool'.entityName = pool.entityName) (hlaid : pool'.Laid (positions created' index))
    (hptr : ptrPool'.Laid (created'.map Created.handle))
    (hothers : ∀ other, other ≠ index →
      (positions s.created other).Perm (positions created' other))
    (hstored : ∀ c ∈ created', Stored ⟨s.manager.entityPools.set index pool', ptrPool'⟩ c) :
    Inv ⟨⟨s.manager.entityPools.set index pool', ptrPool'⟩, created'⟩ where
  count := by
    rw [List.length_set]
    exact h.count
  names := by
    rw [map_entityName_set hpool hname]
    exact h.names
  pools other pool₁ hpool₁ := by
    by_cases hother : other = index
    · subst hother
      rw [List.getElem?_set_self (List.getElem?_eq_some_iff.mp hpool).1] at hpool₁
      cases hpool₁
      exact hlaid
    · rw [List.getElem?_set_ne (Ne.symm hother)] at hpool₁
      exact (h.pools other pool₁ hpool₁).perm (hothers other hother)
  ptrPool := hptr
  stored := hstored

/-! ### What every operation keeps -/

/-- A new manager has no entity. -/
theorem inv_new : Inv (⟨EntityManager.new, []⟩ : State R) where
  count := Nat.zero_le _
  names := List.nodup_nil
  pools _ _ h := by cases h
  ptrPool := ArchetypePool.laid_new _ (by decide) fun layout h => List.mem_singleton.mp h
  stored _ h := by cases h

/-- A new pool has no position yet, and there are no more pools than pool ids. -/
theorem Inv.registerEntityPool (h : Inv s) {entityName : String} {chunkSize : Nat} {others : R}
    (hallowed : Allowed s (.registerEntityPool entityName chunkSize others)) :
    Inv { s with manager :=
      s.manager.registerEntityPool (ArchetypePool.new entityName chunkSize others) } := by
  obtain ⟨hcount, hname, hsize, hothers⟩ := hallowed
  refine ⟨?_, ?_, ?_, h.ptrPool, ?_⟩
  · simp only [EntityManager.registerEntityPool, List.length_append, List.length_singleton]
    omega
  · simp only [EntityManager.registerEntityPool, List.map_append, List.map_cons, List.map_nil]
    apply h.names.append (List.nodup_singleton _)
    intro name hmem hnew
    obtain ⟨pool, hpool, rfl⟩ := List.mem_map.mp hmem
    exact hname pool hpool (List.mem_singleton.mp hnew)
  · intro index pool hpool
    simp only [EntityManager.registerEntityPool, List.getElem?_append] at hpool
    split at hpool
    · exact h.pools index pool hpool
    · next hge =>
      -- Nothing is recorded in a pool that was not there.
      have hnone : positions s.created index = [] := by
        apply List.eq_nil_iff_forall_not_mem.mpr
        intro cPos hmem
        obtain ⟨c, hc, hentity⟩ := mem_positions.mp hmem
        have hread := (h.stored c hc).handle
        rw [EntityManager.getChunkPosElem, hentity, List.getElem?_eq_none (Nat.le_of_not_lt hge)]
          at hread
        cases hread
      obtain ⟨_, hpool⟩ := List.getElem?_eq_some_iff.mp hpool
      rw [hnone, ← hpool, List.getElem_singleton]
      exact ArchetypePool.laid_new entityName hsize hothers
  · intro c hc
    have hstored := h.stored c hc
    refine ⟨hstored.poolId, hstored.cPos, ?_⟩
    obtain ⟨pool, hpool, hread⟩ := Option.bind_eq_some_iff.mp hstored.handle
    have hlt := (List.getElem?_eq_some_iff.mp hpool).1
    simp only [EntityManager.getChunkPosElem, EntityManager.registerEntityPool,
      List.getElem?_append_left hlt, hpool, Option.bind_eq_bind, Option.bind_some]
    exact hread

/-- After everything is deleted nobody is left. -/
theorem Inv.deleteEverything (h : Inv s) : Inv ⟨s.manager.deleteEverything, []⟩ where
  count := by
    simp only [EntityManager.deleteEverything, List.length_map]
    exact h.count
  names := by
    have hnames : (s.manager.deleteEverything.entityPools.map (·.entityName)) =
        s.manager.entityPools.map (·.entityName) := by
      simp [EntityManager.deleteEverything, ArchetypePool.deleteEverything]
    rw [hnames]
    exact h.names
  pools index pool hpool := by
    simp only [EntityManager.deleteEverything, List.getElem?_map] at hpool
    obtain ⟨before, hbefore, rfl⟩ := Option.map_eq_some_iff.mp hpool
    exact (h.pools index before hbefore).deleteEverything
  ptrPool := h.ptrPool.deleteEverything
  stored _ hc := by cases hc

/-- A batch is created and recorded, whatever its size. -/
theorem Inv.createEntities (h : Inv s) {entityName : String}
    (hname : (s.manager.getEntityPool entityName).isSome) (count : Nat) (status : EntityStatus) :
    ∃ m entities created,
      s.manager.createEntities entityName count status = some (m, entities) ∧
      entities.length = count ∧ record m entities = some created ∧
      Inv ⟨m, s.created ++ created⟩ := by
  obtain ⟨⟨pool, index⟩, hfound⟩ := Option.isSome_iff_exists.mp hname
  obtain ⟨hpool, -⟩ := EntityManager.getEntityPool_some hfound
  obtain ⟨pool', ptrPool', cPosArr, handles, hcreate, hlen, hptrLen, hgives, hptrGives, hid⟩ :=
    EntityManager.createEntities_spec hfound (h.pools index pool hpool) h.ptrPool count status
  let created := (handles.zip cPosArr).map fun e => (⟨e.1, ⟨index, e.2⟩⟩ : Created)
  have hhandles : created.map Created.handle = handles := by
    rw [List.map_map]
    exact List.map_fst_zip (Nat.le_of_eq (hptrLen.trans hlen.symm))
  have hpositions : created.map (fun c => c.entity.cPos) = cPosArr := by
    rw [List.map_map]
    exact List.map_snd_zip (Nat.le_of_eq (hlen.trans hptrLen.symm))
  have hcreated : ∀ c ∈ created, c.entity.pool = index := by
    intro c hc
    obtain ⟨e, -, rfl⟩ := List.mem_map.mp hc
    rfl
  have hentities : (cPosArr.map fun cPos => (⟨index, cPos⟩ : EntityRef)) =
      created.map Created.entity := by
    rw [← hpositions, List.map_map]
    apply List.map_congr_left
    intro c hc
    rw [Function.comp_apply, ← hcreated c hc]
  have hnew : ∀ c ∈ created, Stored ⟨s.manager.entityPools.set index pool', ptrPool'⟩ c := by
    intro c hc
    obtain ⟨⟨handle, cPos⟩, he, rfl⟩ := List.mem_map.mp hc
    have hswap : (cPos, handle) ∈ cPosArr.zip handles := by
      rw [← List.zip_swap]
      exact List.mem_map_of_mem he
    refine ⟨hid.written handle (List.of_mem_zip he).1, hptrGives.written _ he, ?_⟩
    rw [getChunkPosElem_set hpool, if_pos rfl]
    exact hgives.written _ hswap
  have hold : ∀ c ∈ s.created, Stored ⟨s.manager.entityPools.set index pool', ptrPool'⟩ c := by
    intro c hc
    have hstored := h.stored c hc
    have hused : c.handle ∈ s.created.map Created.handle := List.mem_map_of_mem hc
    refine hstored.set hpool (hid.frame _ hused _ hstored.poolId)
      (hptrGives.frame _ hused _ hstored.cPos) fun heq => hgives.frame _ ?_ _
    exact mem_positions.mpr ⟨c, hc, by rw [← heq]⟩
  refine ⟨_, _, created, hcreate, by rw [List.length_map, hlen], ?_, ?_⟩
  · rw [hentities]
    exact record_of_handles fun c hc => (hnew c hc).handle
  · refine h.set hpool hgives.entityName ?_ ?_ ?_ ?_
    · rw [positions_append, positions_of_pool hcreated, hpositions]
      exact hgives.laid
    · rw [List.map_append, hhandles]
      exact hptrGives.laid
    · intro other hother
      rw [positions_append, positions_of_ne hcreated hother, List.append_nil]
    · intro c hc
      rcases List.mem_append.mp hc with hc | hc
      · exact hold c hc
      · exact hnew c hc

/-- Handles are destroyed, all of them of entities of one pool. -/
theorem Inv.destroyEntitiesOf (h : Inv s) {gone : List Created}
    (hgone : ∀ c ∈ gone, c ∈ s.created ∧ c.entity.pool = index)
    (hnodup : (gone.map Created.handle).Nodup) (hindex : index < s.manager.entityPools.length) :
    ∃ m, s.manager.destroyEntitiesOf (gone.map Created.handle) index = some m ∧
      Inv ⟨m, forget s.created (gone.map Created.handle)⟩ := by
  have hpool := List.getElem?_eq_getElem hindex
  have hperm := perm_forget h.ptrPool.nodup_used (fun c hc => (hgone c hc).1) hnodup
  have hdeleted : s.manager.entityPtrPool.chunkPos.getComponentsAtIndexes
      (gone.map Created.handle) = some (gone.map fun c => c.entity.cPos) := by
    rw [ComponentPool.getComponentsAtIndexes, List.mapM_map]
    exact Grid.mapM_eq_some_map fun c hc => (h.stored c (hgone c hc).1).cPos
  have hused : (positions s.created index).Perm _ := positions_perm hperm
  rw [positions_append, positions_of_pool fun c hc => (hgone c hc).2] at hused
  have husedPtr := hperm.map Created.handle
  rw [List.map_append] at husedPtr
  obtain ⟨pool', ptrPool', hdestroy, hlaid, hptrLaid, hresets, hptrResets, hid⟩ :=
    EntityManager.destroyEntitiesOf_spec hpool (h.pools index _ hpool) h.ptrPool hused husedPtr
      hdeleted
  refine ⟨_, hdestroy, h.set hpool hresets.entityName hlaid hptrLaid ?_ ?_⟩
  · intro other hother
    have hother' : (positions s.created other).Perm _ := positions_perm hperm
    rwa [positions_append, positions_of_ne (fun c hc => (hgone c hc).2) hother,
      List.nil_append] at hother'
  · intro c hc
    obtain ⟨hmem, hnot⟩ := mem_forget.mp hc
    have hstored := h.stored c hmem
    refine hstored.set hpool ((hid _ hnot).trans hstored.poolId)
      ((hptrResets.frame _ hnot).trans hstored.cPos) fun heq hread =>
        (hresets.frame _ fun hdel => ?_).trans hread
    -- A position is recorded once, so the one that was given back is not this entity's.
    have hpositions := hused.nodup_iff.mp (h.pools index _ hpool).nodup_used
    exact List.disjoint_of_nodup_append hpositions hdel
      (mem_positions.mpr ⟨c, hc, by rw [← heq]⟩)

/-- A live handle is that of an entity recorded. -/
theorem Inv.exists_created (h : Inv s) {handle : ChunkPos}
    (hlive : handle ∈ s.manager.entityPtrPool.live) : ∃ c ∈ s.created, c.handle = handle :=
  List.mem_map.mp (h.ptrPool.mem_live_iff.mp hlive)

/-- An entity's pool is one of the manager's. -/
theorem Inv.pool_lt (h : Inv s) {c : Created} (hc : c ∈ s.created) :
    c.entity.pool < s.manager.entityPools.length := by
  obtain ⟨pool, hpool, -⟩ := Option.bind_eq_some_iff.mp (h.stored c hc).handle
  exact (List.getElem?_eq_some_iff.mp hpool).1

/-- Pools are told apart by their ids. -/
theorem Inv.toNat_poolId (h : Inv s) (hindex : index < s.manager.entityPools.length) :
    (UInt8.ofNat index).toNat = index :=
  UInt8.toNat_ofNat_of_lt' (Nat.lt_of_lt_of_le hindex h.count)

/-- A live handle can be given back, and its entity goes from the record. -/
theorem Inv.destroyEntity (h : Inv s) {cPos : ChunkPos}
    (hlive : cPos ∈ s.manager.entityPtrPool.live) :
    ∃ m, s.manager.destroyEntity cPos = some m ∧ Inv ⟨m, forget s.created [cPos]⟩ := by
  obtain ⟨c, hc, rfl⟩ := h.exists_created hlive
  have hgone : ∀ c' ∈ [c], c' ∈ s.created ∧ c'.entity.pool = c.entity.pool := by
    intro c' hc'
    cases List.mem_singleton.mp hc'
    exact ⟨hc, rfl⟩
  obtain ⟨m, hdestroy, hinv⟩ := h.destroyEntitiesOf hgone (List.nodup_singleton _) (h.pool_lt hc)
  refine ⟨m, ?_, hinv⟩
  rw [EntityManager.destroyEntity, (h.stored c hc).poolId, Option.bind_eq_bind, Option.bind_some,
    h.toNat_poolId (h.pool_lt hc)]
  exact hdestroy

/-- The entities that live handles of one pool name. -/
theorem Inv.exists_gone (h : Inv s) (hindex : index < s.manager.entityPools.length) :
    ∀ {cPosArr : List ChunkPos}, (∀ cPos ∈ cPosArr, cPos ∈ s.manager.entityPtrPool.live ∧
      s.manager.entityPtrPool.others.getComponent cPos = some (UInt8.ofNat index)) →
    ∃ gone : List Created, gone.map Created.handle = cPosArr ∧
      ∀ c ∈ gone, c ∈ s.created ∧ c.entity.pool = index
  | [], _ => ⟨[], rfl, fun _ hc => absurd hc List.not_mem_nil⟩
  | cPos :: cPosArr, hlive => by
    obtain ⟨gone, hmap, hgone⟩ := Inv.exists_gone h hindex fun cPos' hcPos' =>
      hlive cPos' (List.mem_cons_of_mem _ hcPos')
    obtain ⟨hcPos, hid⟩ := hlive cPos List.mem_cons_self
    obtain ⟨c, hc, rfl⟩ := h.exists_created hcPos
    have hpool : c.entity.pool = index := by
      rw [(h.stored c hc).poolId, Option.some.injEq] at hid
      rw [← h.toNat_poolId (h.pool_lt hc), hid, h.toNat_poolId hindex]
    refine ⟨c :: gone, by rw [List.map_cons, hmap], ?_⟩
    intro c' hc'
    rcases List.mem_cons.mp hc' with rfl | hc'
    · exact ⟨hc, hpool⟩
    · exact hgone c' hc'

/-- And so can several of one archetype. -/
theorem Inv.destroyEntities (h : Inv s) {cPosArr : List ChunkPos} {entityName : String}
    (hallowed : Allowed s (.destroyEntities cPosArr entityName)) :
    ∃ m, s.manager.destroyEntities cPosArr entityName = some m ∧
      Inv ⟨m, forget s.created cPosArr⟩ := by
  obtain ⟨hnodup, hlive⟩ := hallowed
  unfold EntityManager.destroyEntities
  unfold EntityManager.getEntityPoolId at hlive
  cases hfound : s.manager.getEntityPool entityName with
  | none =>
    -- A live handle holds an id, so there is none to destroy.
    have hnil : cPosArr = [] := by
      apply List.eq_nil_iff_forall_not_mem.mpr
      intro cPos hcPos
      obtain ⟨hmem, hid⟩ := hlive cPos hcPos
      obtain ⟨c, hc, rfl⟩ := h.exists_created hmem
      rw [(h.stored c hc).poolId, hfound] at hid
      cases hid
    subst hnil
    exact ⟨s.manager, rfl, by simpa [forget] using h⟩
  | some found =>
    obtain ⟨pool, index⟩ := found
    have hindex : index < s.manager.entityPools.length :=
      (List.getElem?_eq_some_iff.mp (EntityManager.getEntityPool_some hfound).1).1
    rw [hfound] at hlive
    obtain ⟨gone, rfl, hgone⟩ := h.exists_gone hindex hlive
    exact h.destroyEntitiesOf hgone hnodup hindex

/-- **Every operation asked as it may be answers**, and keeps the invariant. -/
theorem Inv.step (h : Inv s) {op : Op R} (hop : Allowed s op) :
    ∃ t, step s op = some t ∧ Inv t := by
  cases op with
  | registerEntityPool entityName chunkSize others => exact ⟨_, rfl, h.registerEntityPool hop⟩
  | createEntity entityName status =>
    obtain ⟨m, entities, created, hcreate, hlen, hrecord, hinv⟩ := h.createEntities hop 1 status
    obtain ⟨entity, rfl⟩ := List.length_eq_one_iff.mp hlen
    obtain ⟨⟨pool, index⟩, hfound⟩ := Option.isSome_iff_exists.mp hop
    have hone := EntityManager.createEntity_of_createEntities hfound
      (h.pools index pool (EntityManager.getEntityPool_some hfound).1) h.ptrPool hcreate
    refine ⟨_, ?_, hinv⟩
    simp only [Ecs.step, hone, hrecord, Option.bind_eq_bind, Option.bind_some]
    rfl
  | createEntities entityName count status =>
    obtain ⟨m, entities, created, hcreate, -, hrecord, hinv⟩ := h.createEntities hop count status
    refine ⟨_, ?_, hinv⟩
    simp only [Ecs.step, hcreate, hrecord, Option.bind_eq_bind, Option.bind_some]
    rfl
  | destroyEntity cPos =>
    obtain ⟨m, hdestroy, hinv⟩ := h.destroyEntity hop
    refine ⟨_, ?_, hinv⟩
    simp only [Ecs.step, hdestroy, Option.bind_eq_bind, Option.bind_some]
    rfl
  | destroyEntities cPosArr entityName =>
    obtain ⟨m, hdestroy, hinv⟩ := h.destroyEntities hop
    refine ⟨_, ?_, hinv⟩
    simp only [Ecs.step, hdestroy, Option.bind_eq_bind, Option.bind_some]
    rfl
  | deleteEverything => exact ⟨_, rfl, h.deleteEverything⟩

/-- In every run of allowed calls. -/
theorem inv_of_reach (h : (machine R).ReachUnder Allowed s) : Inv s := by
  refine h.invariant (fun s hs => ?_) fun s op t hs hop hstep => ?_
  · cases hs
    exact inv_new
  · obtain ⟨t', ht', hinv⟩ := hs.step hop
    cases ht'.symm.trans hstep
    exact hinv

/-! ## What holds of every state reached -/

/-- The pool and the position stored at a handle. -/
def EntityManager.pointee (m : EntityManager R) (handle : ChunkPos) : Option EntityRef := do
  let poolId ← m.entityPtrPool.others.getComponent handle
  let cPos ← m.entityPtrPool.chunkPos.getComponent handle
  return ⟨poolId.toNat, cPos⟩

/-- The live entities of all pools. -/
def EntityManager.live (m : EntityManager R) : List EntityRef :=
  m.entityPools.zipIdx.flatMap fun entry => entry.1.live.map fun cPos => ⟨entry.2, cPos⟩

/-- What the manager's data say to a user: every handle leads to its entity, and the used sizes are
the numbers of entities. -/
structure Consistent (s : State R) : Prop where
  /-- Free lists, component pools and sizes agree, in every pool. -/
  pools : ∀ pool ∈ s.manager.entityPools, pool.Sound
  ptrPool : s.manager.entityPtrPool.Sound
  /-- The live handles and the live entities are each other's, by what is stored at them. -/
  pointee : ∀ handle ∈ s.manager.entityPtrPool.live, ∃ entity ∈ s.manager.live,
    s.manager.pointee handle = some entity ∧ s.manager.getChunkPosElem entity = some handle
  pointer : ∀ entity ∈ s.manager.live, ∃ handle ∈ s.manager.entityPtrPool.live,
    s.manager.getChunkPosElem entity = some handle ∧ s.manager.pointee handle = some entity
  /-- A live handle is the one an entity was created with, and that entity is found by it. -/
  handles : ∀ handle, handle ∈ s.manager.entityPtrPool.live ↔ ∃ c ∈ s.created, c.handle = handle
  nodup_handles : (s.created.map Created.handle).Nodup
  getEntity : ∀ c ∈ s.created, s.manager.getEntity c.handle = some c.entity
  getEntityOf : ∀ c ∈ s.created, ∃ pool, s.manager.entityPools[c.entity.pool]? = some pool ∧
    s.manager.getEntityOf pool.entityName c.handle = some c.entity
  /-- Nothing the callers may ask runs into undefined behaviour. -/
  answers : ∀ op, Allowed s op → (step s op).isSome

omit [ComponentPools R] in
/-- The live entities are the positions in use, pool by pool. -/
theorem mem_live {entity : EntityRef} : entity ∈ m.live ↔
    ∃ pool, m.entityPools[entity.pool]? = some pool ∧ entity.cPos ∈ pool.live := by
  simp only [EntityManager.live, List.mem_flatMap, List.mem_map]
  constructor
  · rintro ⟨⟨pool, index⟩, hpool, cPos, hlive, rfl⟩
    exact ⟨pool, List.mem_zipIdx_iff_getElem?.mp hpool, hlive⟩
  · rintro ⟨pool, hpool, hlive⟩
    exact ⟨(pool, entity.pool), List.mem_zipIdx_iff_getElem?.mpr hpool, entity.cPos, hlive, rfl⟩

/-- The pointer at an entity's handle leads to the entity. -/
theorem Inv.pointee (h : Inv s) {c : Created} (hc : c ∈ s.created) :
    s.manager.pointee c.handle = some c.entity := by
  simp only [EntityManager.pointee, (h.stored c hc).poolId, (h.stored c hc).cPos,
    h.toNat_poolId (h.pool_lt hc), Option.bind_eq_bind, Option.bind_some]
  rfl

/-- The pool of an entity recorded, and its position there. -/
theorem Inv.exists_pool (h : Inv s) {c : Created} (hc : c ∈ s.created) :
    ∃ pool, s.manager.entityPools[c.entity.pool]? = some pool ∧ c.entity.cPos ∈ pool.live ∧
      pool.getRawEntity c.entity.cPos = some c.entity.cPos := by
  have hpool := List.getElem?_eq_getElem (h.pool_lt hc)
  have hlaid := h.pools _ _ hpool
  have hmem : c.entity.cPos ∈ positions s.created c.entity.pool := mem_positions.mpr ⟨c, hc, rfl⟩
  exact ⟨_, hpool, hlaid.mem_live_iff.mpr hmem,
    ArchetypePool.getRawEntity_of_uniform hlaid.uniform (hlaid.mem_cells_of_mem_used hmem)⟩

/-- `getEntity` of a handle answers the entity that was created with it. -/
theorem Inv.getEntity (h : Inv s) {c : Created} (hc : c ∈ s.created) :
    s.manager.getEntity c.handle = some c.entity := by
  obtain ⟨pool, hpool, -, hraw⟩ := h.exists_pool hc
  simp only [EntityManager.getEntity, (h.stored c hc).poolId, (h.stored c hc).cPos,
    h.toNat_poolId (h.pool_lt hc), hpool, hraw, Option.bind_eq_bind, Option.bind_some]
  rfl

/-- And so does the overload with the archetype's name. -/
theorem Inv.getEntityOf (h : Inv s) {c : Created} (hc : c ∈ s.created) :
    ∃ pool, s.manager.entityPools[c.entity.pool]? = some pool ∧
      s.manager.getEntityOf pool.entityName c.handle = some c.entity := by
  obtain ⟨pool, hpool, -, hraw⟩ := h.exists_pool hc
  have hrawPtr := ArchetypePool.getRawEntity_of_uniform h.ptrPool.uniform
    (h.ptrPool.mem_cells_of_mem_used (List.mem_map_of_mem hc))
  refine ⟨pool, hpool, ?_⟩
  have hfound := EntityManager.getEntityPool_of_getElem? h.names hpool
  simp only [EntityManager.getEntityOf, hrawPtr, hfound, (h.stored c hc).cPos, hraw,
    Option.bind_eq_bind, Option.bind_some]
  rfl

/-- **Allocation stays consistent**, whatever is registered, created and destroyed, in any order, as
long as callers keep to what is allowed (`Allowed`): at most 256 pools, each registered under a new
name, with a chunk size and without chunks, and live handles destroyed where they belong. In every
state reached the free lists and the entities that are live make up all positions, each once, and
looking up a handle finds its entity. -/
theorem consistent_of_reach (h : (machine R).ReachUnder Allowed s) : Consistent s := by
  have hinv := inv_of_reach h
  refine ⟨fun pool hpool => ?_, hinv.ptrPool.sound, fun handle hlive => ?_, fun entity hlive => ?_,
    fun handle => ?_, hinv.ptrPool.nodup_used, fun c hc => hinv.getEntity hc,
    fun c hc => hinv.getEntityOf hc, fun op hop => ?_⟩
  · obtain ⟨index, hindex⟩ := List.mem_iff_getElem?.mp hpool
    exact (hinv.pools index pool hindex).sound
  · obtain ⟨c, hc, rfl⟩ := hinv.exists_created hlive
    obtain ⟨pool, hpool, hmem, -⟩ := hinv.exists_pool hc
    exact ⟨c.entity, mem_live.mpr ⟨pool, hpool, hmem⟩, hinv.pointee hc, (hinv.stored c hc).handle⟩
  · obtain ⟨pool, hpool, hmem⟩ := mem_live.mp hlive
    obtain ⟨c, hc, hentity⟩ :=
      mem_positions.mp ((hinv.pools _ pool hpool).mem_live_iff.mp hmem)
    have hsame : c.entity = entity := hentity
    subst hsame
    exact ⟨c.handle, hinv.ptrPool.mem_live_iff.mpr (List.mem_map_of_mem hc),
      (hinv.stored c hc).handle, hinv.pointee hc⟩
  · rw [hinv.ptrPool.mem_live_iff, List.mem_map]
  · obtain ⟨t, ht, -⟩ := hinv.step hop
    rw [ht]
    rfl

/-- Two pools of one component. Three entities of the first, in two chunks, and one of the
second; the three are destroyed, and the next takes the position and the handle that were free
before them. -/
theorem consistent_of_reach_recycled :
    ∃ s : State (ComponentPool EntityPoolId), Consistent s ∧
      s.created = [⟨(0, 3), ⟨1, (0, 0)⟩⟩, ⟨(0, 4), ⟨0, (1, 1)⟩⟩] := by
  have hs : (((machine (ComponentPool EntityPoolId)).exec Allowed ⟨EntityManager.new, []⟩
      [.registerEntityPool "Window" 2 [], .registerEntityPool "Sprite" 3 [],
        .createEntities "Window" 3 ENT_ALIVE, .createEntity "Sprite" ENT_ALIVE,
        .destroyEntity (0, 1), .destroyEntities [(0, 2), (0, 0)] "Window",
        .createEntity "Window" ENT_ALIVE]).any fun s =>
      decide (s.created = [⟨(0, 3), ⟨1, (0, 0)⟩⟩, ⟨(0, 4), ⟨0, (1, 1)⟩⟩])) = true := by
    decide +kernel
  obtain ⟨s, hreach, hcreated⟩ := Machine.reachUnder_of_exec rfl hs
  exact ⟨s, consistent_of_reach hreach, of_decide_eq_true hcreated⟩

end ProjectE.Ecs
