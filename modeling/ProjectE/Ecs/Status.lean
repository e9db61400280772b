import ProjectE.Ecs.PoolIds

/-!
# Systems with a status

An `AStatusMonoSystem` is called for the elements of its pools that have its status. It never asks
whether an entity is there. It is called exactly for the live entities of its status because
everything else that can be at a position has none: a fresh chunk holds `ENT_NONE`, and whoever
destroys an entity resets its slot. So the law needs what `Owned` needs, systems that leave the
status of free slots alone, and systems registered once, which are then given every pool once.

A slot that is reset in another pool than its entity's keeps its status, and is visited for ever.
-/

namespace ProjectE.Ecs

open Verif

/-! ## Pools offered to systems -/

section Registry

variable {S P : Type} [DecidableEq S] {start : Systems S P} {m : AEntityManager S P}

/-- Every registered system has been offered every registered pool, in order; any other may hold
what calls that failed have offered it. -/
structure Offered (start : Systems S P) (m : AEntityManager S P) : Prop where
  nodup : m.registered.Nodup
  registered : ∀ s ∈ m.registered,
    m.systems s = (start s).mapQueries (Query.withPools m.entityPools)
  others : ∀ s, ∃ pools, m.systems s = (start s).mapQueries (Query.withPools pools)

omit [DecidableEq S] in
theorem offered_new (start : Systems S P) : Offered start (.new start) where
  nodup := List.nodup_nil
  registered _ hs := absurd hs List.not_mem_nil
  others s := ⟨[], (start s).mapQueries_withPools_nil.symm⟩

omit [DecidableEq S] in
/-- A system that holds no pool is as it was made. -/
theorem Offered.eq_start (h : Offered start m) {s : S}
    (hempty : ∀ query ∈ (m.systems s).queries, query.componentPoolsArrays = []) :
    m.systems s = start s := by
  obtain ⟨pools, hpools⟩ := h.others s
  rw [hpools]
  apply ISystem.mapQueries_eq_self_iff.mpr
  intro query hquery
  rw [hpools, ISystem.queries_mapQueries] at hempty
  have harrays := hempty _ (List.mem_map_of_mem hquery)
  obtain ⟨hold, hnew⟩ := List.append_eq_nil_iff.mp harrays
  rw [Query.withPools, hnew, List.append_nil]

/-- What a call offers, whatever it answers. -/
theorem Offered.run (h : Offered start m) {c : Call S P} (hinvolved : c.involved.Nodup)
    (hnew : ∀ s ∈ c.involved, s ∉ m.registered ∧
      ∀ query ∈ (m.systems s).queries, query.componentPoolsArrays = []) :
    Offered start (c.run m).2 := by
  have heffect := c.effect_of_run m
  -- the trees point to the systems involved besides the others, or to the others only
  have hregistered : (c.run m).2.registered.Nodup ∧
      ∀ s ∈ (c.run m).2.registered, s ∈ c.involved ∨ s ∈ m.registered := by
    cases hanswer : (c.run m).1 with
    | true =>
      have hperm := heffect.succeeded hanswer
      exact ⟨hperm.nodup_iff.mpr (hinvolved.append h.nodup fun s hs => (hnew s hs).1),
        fun s hs => List.mem_append.mp (hperm.mem_iff.mp hs)⟩
    | false =>
      obtain ⟨-, htree, hfixed⟩ := heffect.failed hanswer
      have hsame : (c.run m).2.registered = m.registered := by
        rw [AEntityManager.registered, htree, hfixed]
        rfl
      rw [hsame]
      exact ⟨h.nodup, fun s hs => .inr hs⟩
  refine ⟨hregistered.1, fun s hs => ?_, fun s => ?_⟩
  · exact c.systems_run h.nodup hinvolved (fun s hs => (hnew s hs).1) (hregistered.2 s hs)
      (fun hs => h.eq_start (hnew s hs).2) (h.registered s)
  · obtain ⟨pools, hpools⟩ := h.others s
    rw [heffect.systems, Systems.offer_apply, hpools, ISystem.mapQueries_withPools_append]
    exact ⟨_, rfl⟩

end Registry

/-! ## The elements of one query -/

section Elements

variable {R : Type}

/-- The shape of the pool at an index. -/
def shapeAt (entityPools : List (ArchetypePool R)) (index : Nat) : List Nat :=
  (entityPools[index]?.map (·.shape)).getD []

/-- The positions of the pools a query has taken. -/
def elementsOf (entityPools : List (ArchetypePool R)) (taken : List (IArchetypePool Nat)) :
    List EntityRef :=
  taken.flatMap fun entityPool =>
    (Grid.cells (shapeAt entityPools entityPool.ptr)).map fun cPos => ⟨entityPool.ptr, cPos⟩

variable {entityPools : List (ArchetypePool R)} {registered taken : List (IArchetypePool Nat)}

theorem shapeAt_of_getElem? {index : Nat} {pool : ArchetypePool R}
    (hpool : entityPools[index]? = some pool) : shapeAt entityPools index = pool.shape := by
  rw [shapeAt, hpool]
  rfl

theorem mem_elementsOf {entity : EntityRef} : entity ∈ elementsOf entityPools taken ↔
    entity.pool ∈ taken.map (·.ptr) ∧
      entity.cPos ∈ Grid.cells (shapeAt entityPools entity.pool) := by
  simp only [elementsOf, List.mem_flatMap, List.mem_map]
  constructor
  · rintro ⟨entityPool, hmem, cPos, hcPos, rfl⟩
    exact ⟨⟨entityPool, hmem, rfl⟩, hcPos⟩
  · rintro ⟨⟨entityPool, hmem, hptr⟩, hcPos⟩
    exact ⟨entityPool, hmem, entity.cPos, hptr ▸ hcPos, by rw [hptr]⟩

theorem nodup_elementsOf (h : (taken.map (·.ptr)).Nodup) :
    (elementsOf entityPools taken).Nodup := by
  rw [elementsOf, List.nodup_flatMap]
  constructor
  · intro entityPool _
    exact (Grid.nodup_cells _).map fun cPos cPos' heq => congrArg EntityRef.cPos heq
  · -- two pools have no element in common
    refine (List.pairwise_map.mp h).imp fun {entityPool entityPool'} hne entity hmem hmem' => ?_
    obtain ⟨cPos, -, rfl⟩ := List.mem_map.mp hmem
    obtain ⟨cPos', -, heq⟩ := List.mem_map.mp hmem'
    exact hne (congrArg EntityRef.pool heq).symm

/-- A query, made for some components and given pools, goes over the pools that have them all. -/
theorem elements_withPools {componentName : String} {componentNames : List String}
    (hptrs : ∀ entityPool ∈ registered, entityPool.ptr < entityPools.length) :
    ((Query.new (componentName :: componentNames)).withPools registered).elements entityPools =
      some ((registered.filter
        ((Query.new (componentName :: componentNames) : Query Nat).Matches ·)).map
          fun entityPool => (chunks (shapeAt entityPools entityPool.ptr)).map fun chunk =>
            chunk.map fun cPos => ⟨entityPool.ptr, cPos⟩) := by
  set query : Query Nat := .new (componentName :: componentNames) with hquery
  have harrays : (query.withPools registered).componentPoolsArrays =
      (registered.filter (query.Matches ·)).map query.componentPoolsArray := List.nil_append _
  rw [Query.elements, harrays, List.mapM_map]
  apply Grid.mapM_eq_some_map
  intro entityPool hmem
  have hpool := List.getElem?_eq_getElem (hptrs entityPool (List.mem_filter.mp hmem).1)
  have hfirst : (query.componentPoolsArray entityPool).head?.join =
      some ⟨entityPool.ptr, componentName⟩ := rfl
  simp only [Function.comp_apply, hfirst, hpool, shapeAt, Option.bind_eq_bind, Option.bind_some,
    Option.map_some, Option.getD_some]
  rfl

/-- So does a system of one query. -/
theorem elements_mono {componentName : String} {componentNames : List String}
    (hptrs : ∀ entityPool ∈ registered, entityPool.ptr < entityPools.length) :
    (ISystem.mono ((Query.new (componentName :: componentNames)).withPools registered)).elements
      entityPools = some (elementsOf entityPools (registered.filter
        ((Query.new (componentName :: componentNames) : Query Nat).Matches ·))) := by
  rw [ISystem.elements, elements_withPools hptrs]
  refine congrArg some ?_
  rw [List.flatten_flatten, List.map_map, elementsOf, List.flatMap_def]
  refine congrArg List.flatten (List.map_congr_left fun entityPool _ => ?_)
  rw [Function.comp_apply, ← List.map_flatten, flatten_chunks]

end Elements

/-! ## Free slots have no status -/

section Idle

variable {R V : Type} [ComponentPools R] [slots : ComponentSlots R V] {m m' : EntityManager R}
  {created gone : List Created} {index : Nat} {pool pool' : ArchetypePool R}

/-- A free slot has no status. -/
def Idle (m : EntityManager R) : Prop :=
  ∀ entity, m.Free entity → ∀ slot, m.slot entity = some slot → slot.entityStatus = ENT_NONE

omit [ComponentPools R] slots in
theorem free_iff {entity : EntityRef} (hpool : m.entityPools[entity.pool]? = some pool) :
    m.Free entity ↔ entity.cPos ∈ pool.freePos := by
  simp only [EntityManager.Free, hpool, Option.mem_def, Option.some.injEq, exists_eq_left']

/-- One pool changes: its free slots were free before, or have no status now. -/
theorem Idle.set (h : Idle m) (hpool : m.entityPools[index]? = some pool)
    (hfree : ∀ cPos ∈ pool'.freePos, (cPos ∈ pool.freePos ∧ pool'.slot cPos = pool.slot cPos) ∨
      ∃ slot, pool'.slot cPos = some slot ∧ slot.entityStatus = ENT_NONE)
    (ptrPool' : EntityPtrPool) : Idle ⟨m.entityPools.set index pool', ptrPool'⟩ := by
  intro entity hentity slot hslot
  rw [EntityManager.slot_set hpool] at hslot
  split at hslot
  next heq =>
    have hpool' : (m.entityPools.set index pool')[entity.pool]? = some pool' := by
      rw [heq]
      exact List.getElem?_set_self (List.getElem?_eq_some_iff.mp hpool).1
    rcases hfree _ ((free_iff hpool').mp hentity) with ⟨hold, hsame⟩ | ⟨slot', hslot', hstatus⟩
    · refine h entity ((free_iff (heq ▸ hpool)).mpr hold) slot ?_
      rw [EntityManager.slot_of_getElem? (heq ▸ hpool), ← hsame, hslot]
    · cases hslot.symm.trans hslot'
      exact hstatus
  next hne =>
    refine h entity ?_ slot hslot
    obtain ⟨pool₁, hpool₁, hfree₁⟩ := hentity
    rw [Option.mem_def, List.getElem?_set_ne (Ne.symm hne)] at hpool₁
    exact ⟨pool₁, hpool₁, hfree₁⟩

theorem Owned.idle_createEntities (h : Owned m created) (hidle : Idle m) {entityName : String}
    {count : Nat} {status : EntityStatus} {entities : List EntityRef}
    (hcreate : m.createEntities entityName count status = some (m', entities)) : Idle m' := by
  obtain ⟨pool, index, grown, set, ptrGrown, ptrSet, ids, hfound, hc, rfl, -⟩ :=
    h.shaped.createEntities_cases hcreate
  have hpool := (EntityManager.getEntityPool_some hfound).1
  have hgiven := (h.pools index pool hpool).given hc.grow hc.write
  refine hidle.set hpool (fun cPos hcPos => ?_) _
  rcases hgiven.free cPos hcPos with hold | hfresh
  · exact .inl hold
  · exact .inr ⟨_, hfresh, rfl⟩

theorem Owned.idle_destroyEntitiesOf (h : Owned m created) (hidle : Idle m)
    (hgone : ∀ c ∈ gone, c ∈ created ∧ c.entity.pool = index)
    (hnodup : (gone.map Created.handle).Nodup)
    (hdestroy : m.destroyEntitiesOf (gone.map Created.handle) index = some m') : Idle m' := by
  obtain ⟨pool, pool', ptrPool', hpool, rfl, hback, -⟩ := h.takenBack hgone hnodup hdestroy
  refine hidle.set hpool (fun cPos hcPos => ?_) ptrPool'
  rw [hback.freePos] at hcPos
  rcases List.mem_append.mp hcPos with hold | hnew
  · exact .inl ⟨hold, hback.free cPos hold⟩
  · exact .inr ⟨_, hback.reset cPos hnew, rfl⟩

theorem Owned.idle_destroyEntity (h : Owned m created) (hidle : Idle m) {c : Created}
    (hc : c ∈ created) (hlt : c.entity.pool < 256)
    (hdestroy : m.destroyEntity c.handle = some m') : Idle m' := by
  rw [h.destroyEntity_eq hc hlt] at hdestroy
  exact h.idle_destroyEntitiesOf hidle (List.forall_mem_singleton.mpr ⟨hc, rfl⟩)
    (List.nodup_singleton _) hdestroy

theorem Owned.idle_destroyEntitiesRange (h : Owned m created) (hidle : Idle m)
    (hgone : ∀ c ∈ gone, c ∈ created ∧ c.entity.pool < 256)
    (hnodup : (gone.map Created.handle).Nodup)
    (hdestroy : m.destroyEntitiesRange (gone.map Created.handle) = some m') : Idle m' := by
  rw [EntityManager.destroyEntitiesRange_eq_destroyTimes h.ptrPool.shaped hnodup
    (h.mapM_pointee fun c hc => (hgone c hc).1)] at hdestroy
  exact Owned.destroyTimes_rec (Q := fun m _ => Idle m)
    (fun _ _ _ _ howned hidle hc hlt hfirst => howned.idle_destroyEntity hidle hc hlt hfirst)
    h hidle hgone hnodup hdestroy

theorem Idle.registerEntityPool (h : Idle m) (hfree : pool.freePos = []) :
    Idle (m.registerEntityPool pool) := by
  intro entity hentity slot hslot
  obtain ⟨pool', hpool', hmem⟩ := hentity
  simp only [EntityManager.registerEntityPool, Option.mem_def, List.getElem?_append] at hpool'
  split at hpool'
  next hlt =>
    refine h entity ⟨pool', hpool', hmem⟩ slot ?_
    rw [EntityManager.slot_of_getElem? hpool', ← hslot]
    apply Eq.symm
    apply EntityManager.slot_of_getElem?
    rw [EntityManager.registerEntityPool, List.getElem?_append_left hlt, hpool']
  next =>
    -- the new pool has no free slot
    obtain ⟨hlt, hget⟩ := List.getElem?_eq_some_iff.mp hpool'
    rw [List.getElem_singleton] at hget
    rw [← hget, hfree] at hmem
    exact absurd hmem List.not_mem_nil

theorem idle_deleteEverything (m : EntityManager R) : Idle m.deleteEverything := by
  intro entity hentity
  obtain ⟨pool', hpool', hmem⟩ := hentity
  rw [Option.mem_def, EntityManager.deleteEverything, List.getElem?_map] at hpool'
  obtain ⟨pool, -, rfl⟩ := Option.map_eq_some_iff.mp hpool'
  exact absurd hmem List.not_mem_nil

/-- Systems that leave the status of free slots alone. -/
theorem Idle.addTime {S : Type} {statusOf : S → Option EntityStatus} {w w' : World R S} {time : ℚ}
    {fuel : Nat} {operate : Nat → S → ℚ → Nat → Slot V → Slot V} {visits : List (Visit V)}
    (h : Idle w.manager) (htime : w.addTime statusOf time fuel operate = some (w', visits))
    (hspares : World.SparesStatus statusOf w (.addTime time fuel operate)) : Idle w'.manager := by
  obtain ⟨⟨runs, hruns⟩, -, -⟩ := World.addTime_cases htime
  have hkept := EntityManager.runSystems_rec
    (Q := fun entity slot => w.manager.Free entity → slot.entityStatus = ENT_NONE) hruns
    (fun entity slot hslot hfree => h entity hfree slot hslot) fun visit hvisit hbefore hfree => by
      rw [hspares _ htime visit hvisit hfree]
      exact hbefore hfree
  intro entity hentity slot hslot
  exact hkept entity slot hslot ((EntityManager.same_of_runSystems hruns).free hentity)

end Idle

/-! ## Worlds -/

section Worlds

variable {R S V : Type} [ComponentPools R] [slots : ComponentSlots R V] [DecidableEq S]
  {statusOf : S → Option EntityStatus} {start : Systems S Nat} {w w' : World R S} {act : Act R S V}

/-- Handles are destroyed as they should be, systems registered once, and the status of free slots
is left alone. -/
def World.KeepsStatus (statusOf : S → Option EntityStatus) (w : World R S) (act : Act R S V) :
    Prop :=
  World.OwnDestroys w act ∧ World.Registrations w act ∧ World.SparesStatus statusOf w act

instance (w : World R S) (act : Act R S V) : Decidable (World.KeepsStatus statusOf w act) :=
  inferInstanceAs (Decidable (_ ∧ _ ∧ _))

/-- What holds in every state of such a run: entities are owned, free slots have no status, every
system has been offered every pool, and the pointers the queries hold are the indexes of the pools.
-/
structure StatusInv (start : Systems S Nat) (w : World R S) : Prop where
  owned : Owned w.manager w.created
  idle : Idle w.manager
  offered : Offered start w.registry
  ptrs : w.registry.entityPools.map (·.ptr) = List.range w.manager.entityPools.length

omit [DecidableEq S] in
theorem idle_change (h : Owned w.manager w.created) (hidle : Idle w.manager)
    (hspares : World.SparesStatus statusOf w act) {m : EntityManager R} {created : List Created}
    (hchange : World.OwnChange statusOf w act m created) : Idle m := by
  cases hchange with
  | keeps => exact hidle
  | registers => exact hidle.registerEntityPool rfl
  | creates hcreate => exact h.idle_createEntities hidle hcreate
  | destroys hgone hnodup hdestroy => exact h.idle_destroyEntitiesOf hidle hgone hnodup hdestroy
  | destroysRange hgone hnodup hdestroy =>
    exact h.idle_destroyEntitiesRange hidle hgone hnodup hdestroy
  | deletes => exact idle_deleteEverything w.manager
  | runs htime => exact hidle.addTime htime hspares

/-- What is registered is told apart by the indices of the pools. -/
theorem offered_change (h : StatusInv start w) (hact : World.Registrations w act)
    {m : EntityManager R} {registry : AEntityManager S Nat} {created : List Created}
    (hchange : World.Change statusOf w act m registry created) :
    Offered start registry ∧
      registry.entityPools.map (·.ptr) = List.range m.entityPools.length := by
  have hlength : m.entityPools.length = w.manager.entityPools.length + act.newNames.length := by
    have hnames := congrArg List.length (World.names_change h.owned.shaped hchange)
    simpa only [EntityManager.names, List.length_append, List.length_map] using hnames
  have hsame : act.newNames = [] → Offered start w.registry ∧
      w.registry.entityPools.map (·.ptr) = List.range m.entityPools.length := by
    intro hnone
    rw [hlength, hnone]
    exact ⟨h.offered, h.ptrs⟩
  cases hchange with
  | registerEntityPool entityName chunkSize others componentNames nodup =>
    refine ⟨h.offered.run List.nodup_nil fun _ hs => absurd hs List.not_mem_nil, ?_⟩
    rw [(Call.effect_of_run _ _).entityPools, List.map_append, h.ptrs, hlength]
    exact List.range_succ.symm
  | register call hpools =>
    refine ⟨h.offered.run hact.1 hact.2, ?_⟩
    rw [(Call.effect_of_run _ _).entityPools, hpools, List.append_nil, hlength]
    exact h.ptrs
  | createEntity => exact hsame rfl
  | createEntities => exact hsame rfl
  | destroyEntity => exact hsame rfl
  | destroyEntities => exact hsame rfl
  | destroyNothing => exact hsame rfl
  | destroyEntitiesRange => exact hsame rfl
  | deleteEverything => exact hsame rfl
  | addTime => exact hsame rfl

theorem statusInv_of_reach
    (h : (World.machine R S statusOf).ReachUnder (World.KeepsStatus statusOf) w) :
    ∃ start, World.StatusSystems statusOf start ∧ StatusInv start w := by
  refine h.invariant (I := fun w => ∃ start, World.StatusSystems statusOf start ∧
    StatusInv start w) (fun w hw => ?_) fun w act w' hw hact hstep => ?_
  · obtain ⟨start, fixedUpdateTime, -, hstart, rfl⟩ := hw
    refine ⟨start, hstart, owned_new, fun entity hentity => ?_, offered_new start, rfl⟩
    obtain ⟨pool, hpool, -⟩ := hentity
    cases hpool
  · obtain ⟨start, hstart, hinv⟩ := hw
    obtain ⟨hown, hregistrations, hspares⟩ := hact
    have hchange := World.change_of_step hinv.owned.shaped hstep
    have hownChange := World.ownChange_of_change hinv.owned hown hchange
    obtain ⟨hoffered, hptrs⟩ := offered_change hinv hregistrations hchange
    exact ⟨start, hstart, (World.owned_change hinv.owned hownChange).1,
      idle_change hinv.owned hinv.idle hspares hownChange, hoffered, hptrs⟩

omit [DecidableEq S] in
theorem StatusInv.ptr_lt (h : StatusInv start w) :
    ∀ entityPool ∈ w.registry.entityPools, entityPool.ptr < w.manager.entityPools.length := by
  intro entityPool hmem
  have hptr := List.mem_map_of_mem (f := (·.ptr)) hmem
  rw [h.ptrs] at hptr
  exact List.mem_range.mp hptr

omit [DecidableEq S] in
theorem StatusInv.exists_pool (h : StatusInv start w) {index : Nat}
    {Q : IArchetypePool Nat → Prop}
    (htaken : ∃ entityPool ∈ w.registry.entityPools, entityPool.ptr = index ∧ Q entityPool) :
    ∃ pool, w.manager.entityPools[index]? = some pool := by
  obtain ⟨entityPool, hmem, rfl, -⟩ := htaken
  exact ⟨_, List.getElem?_eq_getElem (h.ptr_lt entityPool hmem)⟩

/-- An entity that is there, in a pool the system takes, and has the status. -/
def World.Called (w : World R S) (s : S) (status : EntityStatus) (entity : EntityRef) : Prop :=
  (∃ c ∈ w.created, c.entity = entity) ∧
  (∃ entityPool ∈ w.registry.entityPools, entityPool.ptr = entity.pool ∧
    ∀ query ∈ (w.registry.systems s).queries, query.Matches entityPool) ∧
  ∃ slot ∈ w.manager.slot entity, slot.entityStatus = status

instance (w : World R S) (s : S) (status : EntityStatus) (entity : EntityRef) :
    Decidable (w.Called s status entity) :=
  inferInstanceAs (Decidable ((∃ _ ∈ _, _) ∧ (∃ _ ∈ _, _) ∧ ∃ _ ∈ _, _))

/-- A run of a system that visits these calls it once for each live entity of the status, with what
is there, and for no free slot. -/
structure World.CallsExactly (w : World R S) (s : S) (status : EntityStatus)
    (visits : List (Visit V)) : Prop where
  once : (visits.map Visit.entity).Nodup
  called : ∀ entity, entity ∈ visits.map Visit.entity ↔ w.Called s status entity
  own : ∀ visit ∈ visits, w.manager.slot visit.entity = some visit.before
  spared : ∀ visit ∈ visits, ¬ w.manager.Free visit.entity

omit [DecidableEq S] in
/-- The elements a registered system with a status goes over. -/
theorem StatusInv.elements (h : StatusInv start w) (hstart : World.StatusSystems statusOf start)
    {s : S} (hs : s ∈ w.registry.registered) (hstatus : (statusOf s).isSome) :
    ∃ entities, (w.registry.systems s).elements w.manager.entityPools = some entities ∧
      entities.Nodup ∧ ∀ entity, entity ∈ entities ↔
        (∃ entityPool ∈ w.registry.entityPools, entityPool.ptr = entity.pool ∧
          ∀ query ∈ (w.registry.systems s).queries, query.Matches entityPool) ∧
        entity.cPos ∈ Grid.cells (shapeAt w.manager.entityPools entity.pool) := by
  obtain ⟨componentNames, hsystem⟩ := hstart s hstatus
  have hnodup : (w.registry.entityPools.map (·.ptr)).Nodup := h.ptrs ▸ List.nodup_range
  rw [h.offered.registered s hs, hsystem]
  refine ⟨_, elements_mono h.ptr_lt, nodup_elementsOf ?_, fun entity => ?_⟩
  · exact hnodup.sublist (List.filter_sublist.map _)
  · rw [mem_elementsOf, List.mem_map]
    refine and_congr_left fun _ => exists_congr fun entityPool => ?_
    rw [List.mem_filter, decide_eq_true_eq, and_assoc]
    refine and_congr_right fun _ => and_comm.trans (and_congr_right fun _ => ?_)
    rw [ISystem.queries_mapQueries, List.forall_mem_map]
    -- the pools a query has taken do not change what it matches
    constructor
    · intro hmatches query hquery
      cases List.mem_singleton.mp hquery
      exact hmatches
    · intro hall
      exact hall _ (List.mem_singleton_self _)

/-- **A system with a status is called exactly for the live entities of its status**, each once and
with its own components, and for no free slot. -/
theorem status_system_exact (w : World R S)
    (h : (World.machine R S statusOf).ReachUnder (World.KeepsStatus statusOf) w) (s : S)
    (hs : s ∈ w.registry.registered) (status : EntityStatus) (hstatus : statusOf s = some status)
    (hne : status ≠ ENT_NONE) (operate : Nat → Slot V → Slot V) :
    ∃ m' visits, w.manager.runSystem (w.registry.systems s) (statusOf s) operate =
      some (m', visits) ∧ w.CallsExactly s status visits := by
  obtain ⟨start, hstart, hinv⟩ := statusInv_of_reach h
  obtain ⟨entities, helements, hnodup, hmem⟩ := hinv.elements hstart hs (hstatus ▸ rfl)
  have hread : ∀ entity ∈ entities, w.manager.Readable entity := by
    intro entity hentity
    obtain ⟨htaken, hcPos⟩ := (hmem entity).mp hentity
    obtain ⟨pool, hpool⟩ := hinv.exists_pool htaken
    rw [shapeAt_of_getElem? hpool] at hcPos
    exact ⟨pool, hpool, (hinv.owned.pools _ pool hpool).shaped, hcPos⟩
  obtain ⟨⟨m', visits⟩, hrun⟩ := Option.isSome_iff_exists.mp
    (EntityManager.isSome_operateEach hread (some status) operate)
  obtain ⟨hvisited, hbefore⟩ := EntityManager.visits_operateEach hnodup hrun
  have hcalled : ∀ entity, entity ∈ visits.map Visit.entity ↔ w.Called s status entity := by
    intro entity
    have hfiltered : entity ∈ visits.map Visit.entity ↔ entity ∈ entities ∧
        ∃ slot ∈ w.manager.slot entity, slot.entityStatus = status := by
      rw [hvisited, List.mem_filter, Option.any_eq_true]
      simp only [Option.all_some, decide_eq_true_eq, eq_comm (a := status), Option.mem_def]
    rw [hfiltered, hmem]
    constructor
    · rintro ⟨⟨htaken, hcPos⟩, slot, hslot, rfl⟩
      obtain ⟨pool, hpool⟩ := hinv.exists_pool htaken
      rw [shapeAt_of_getElem? hpool] at hcPos
      refine ⟨?_, htaken, slot, hslot, rfl⟩
      -- a free slot would have no status
      have hnot : entity.cPos ∉ pool.freePos := fun hfree =>
        hne (hinv.idle entity ((free_iff hpool).mpr hfree) slot hslot)
      exact mem_positions.mp (((hinv.owned.pools _ pool hpool).places.mem_used_iff
        (Grid.nodup_cells _)).mpr ⟨hcPos, hnot⟩)
    · rintro ⟨⟨c, hc, rfl⟩, htaken, hslot⟩
      obtain ⟨pool, hpool⟩ := hinv.exists_pool htaken
      refine ⟨⟨htaken, ?_⟩, hslot⟩
      rw [shapeAt_of_getElem? hpool]
      exact (hinv.owned.pools _ pool hpool).mem_cells_of_mem_used (mem_positions_self hc)
  refine ⟨m', visits, ?_, hvisited ▸ hnodup.filter _, hcalled, hbefore, ?_⟩
  · rw [EntityManager.runSystem, helements, hstatus]
    exact hrun
  · intro visit hvisit hfree
    obtain ⟨-, -, slot, hslot, hstatus⟩ := (hcalled _).mp (List.mem_map_of_mem hvisit)
    exact hne (hstatus ▸ hinv.idle _ hfree slot hslot)

end Worlds

/-! ### A slot that keeps its status -/

/-- The system `true` is one of live entities. -/
def aliveStatus : Bool → Option EntityStatus
  | false => none
  | true => some ENT_ALIVE

/-- It is given their handles, and the other system every handle. -/
def aliveSystems : Systems Bool Nat
  | false => .mono (.new ["ChunkPos"])
  | true => .mono (.new ["EntityStatus", "ChunkPos"])

theorem init_aliveSystems :
    (World.machine Unit Bool aliveStatus).init (World.new aliveSystems 0) := by
  refine ⟨aliveSystems, 0, fun s query hquery => ?_, fun s hs => ?_, rfl⟩
  · cases s with
    | false =>
      cases List.mem_singleton.mp hquery
      rfl
    | true =>
      cases List.mem_singleton.mp hquery
      rfl
  · cases s with
    | false => exact absurd hs Bool.false_ne_true
    | true => exact ⟨["ChunkPos"], rfl⟩

/-- Three entities in two chunks, one of them destroyed and the systems run. -/
theorem status_system_exact_window : ∃ (w : World Unit Bool) (m' : EntityManager Unit)
    (visits : List (Visit Unit)),
    w.manager.runSystem (w.registry.systems true) (some ENT_ALIVE) (fun _ slot => slot) =
        some (m', visits) ∧ w.CallsExactly true ENT_ALIVE visits ∧
      w.Called true ENT_ALIVE ⟨0, (0, 0)⟩ ∧ w.Called true ENT_ALIVE ⟨0, (1, 0)⟩ ∧
      w.manager.Free ⟨0, (0, 1)⟩ := by
  have hw : (((World.machine Unit Bool aliveStatus).exec (World.KeepsStatus aliveStatus)
      (World.new aliveSystems 0)
      [.registerEntityPool "Window" 2 () ["EntityStatus", "ChunkPos"],
        .register (.system true ROOT_SYS_GROUP true), .register (.system false ROOT_SYS_GROUP true),
        .createEntities "Window" 3 ENT_ALIVE, .destroyEntity (0, 1),
        .addTime 1 4 fun _ _ _ _ slot => slot]).any fun w =>
      decide (true ∈ w.registry.registered ∧
        w.Called true ENT_ALIVE ⟨0, (0, 0)⟩ ∧ w.Called true ENT_ALIVE ⟨0, (1, 0)⟩ ∧
        w.manager.Free ⟨0, (0, 1)⟩)) = true := by
    decide +kernel
  obtain ⟨w, hreach, hp⟩ := Machine.reachUnder_of_exec init_aliveSystems hw
  obtain ⟨hs, hcalled, hfree⟩ := of_decide_eq_true hp
  obtain ⟨m', visits, hrun, hexact⟩ := status_system_exact w hreach true hs ENT_ALIVE rfl
    (by decide) fun _ slot => slot
  exact ⟨w, m', visits, hrun, hexact, hcalled, hfree⟩

set_option maxRecDepth 10000 in
/-- Destroyed by its handle, the entity in the last of 257 pools is still visited. -/
theorem not_status_system_exact :
    ¬ ∀ w : World Unit Bool, (World.machine Unit Bool aliveStatus).ReachUnder
      (fun w act => World.FreshPools w act ∧ World.LiveDestroys w act ∧
        World.Registrations w act ∧ World.SparesStatus aliveStatus w act) w →
      ∀ s ∈ w.registry.registered, ∀ status, aliveStatus s = some status → status ≠ ENT_NONE →
      ∀ operate m' visits,
        w.manager.runSystem (w.registry.systems s) (some status) operate = some (m', visits) →
        w.CallsExactly s status visits := by
  intro hall
  have hw : (((World.machine Unit Bool aliveStatus).exec
      (fun w act => World.FreshPools w act ∧ World.LiveDestroys w act ∧
        World.Registrations w act ∧ World.SparesStatus aliveStatus w act)
      (World.new aliveSystems 0)
      (.register (.system true ROOT_SYS_GROUP true) :: twoOwners ++
        [.destroyEntity (0, 1)])).any fun w =>
      decide (true ∈ w.registry.registered ∧ ¬ w.Called true ENT_ALIVE ⟨256, (0, 0)⟩) &&
        (w.manager.runSystem (w.registry.systems true) (some ENT_ALIVE) fun _ slot => slot).any
          fun run => decide (⟨256, (0, 0)⟩ ∈ run.2.map Visit.entity)) = true := by
    decide +kernel
  obtain ⟨w, hreach, hp⟩ := Machine.reachUnder_of_exec init_aliveSystems hw
  obtain ⟨hw, hrun⟩ := Bool.and_eq_true_iff.mp hp
  obtain ⟨hs, hnot⟩ := of_decide_eq_true hw
  obtain ⟨⟨m', visits⟩, hrun, hvisited⟩ := (Option.any_eq_true _ _).mp hrun
  have hexact := hall w hreach true hs ENT_ALIVE rfl (by decide) _ m' visits hrun
  exact hnot ((hexact.called _).mp (of_decide_eq_true hvisited))

end ProjectE.Ecs
