import ProjectE.Ecs.Status

/-!
# What entities start from

Creating an entity writes its status and its handle, and nothing else: what the other components of
a new entity hold is what its slot held before. A fresh chunk is made with every field `T {0}`, a
slot that is destroyed is reset to `T {}`, so a new entity starts from the default values as long as
nobody writes to a slot that no entity owns.

Systems do: an `AMonoSystem` is given every slot, and `IncrementTimerSystem` counts on in all of
them. An entity created after it has run starts with the time its slot was free.
-/

namespace ProjectE.Ecs

open Verif

section Plain

variable {R V : Type} [ComponentPools R] [slots : ComponentSlots R V]

/-! ## Pools -/

namespace ArchetypePool

/-- The free slots of a pool hold default values, and so do those of the next chunk: what a chunk is
filled with is what a reset writes. -/
structure Plain (pool : ArchetypePool R) : Prop where
  shaped : pool.Shaped
  defaults :
    (ComponentSlots.defaults pool.others).zero = (ComponentSlots.defaults pool.others).empty
  free : ∀ cPos ∈ pool.freePos,
    ComponentSlots.read pool.others cPos = some (ComponentSlots.defaults pool.others).empty

variable {pool pool' : ArchetypePool R} {indexes values back : List ChunkPos}
  {status : EntityStatus}

theorem plain_new (entityName : String) {chunkSize : Nat} {others : R} (hsize : 0 < chunkSize)
    (hothers : ∀ layout ∈ ComponentPools.layouts others, layout = [])
    (hdefaults : (ComponentSlots.defaults others).zero = (ComponentSlots.defaults others).empty) :
    Plain (new entityName chunkSize others) where
  shaped := (laid_new entityName hsize hothers).shaped
  defaults := hdefaults
  free _ hcPos := absurd hcPos List.not_mem_nil

theorem Plain.addChunk (h : Plain pool) : Plain pool.addChunk where
  shaped := h.shaped.addChunk
  defaults := by
    rw [(h.shaped.keeps_addChunk []).defaults]
    exact h.defaults
  free cPos hcPos := by
    rw [(h.shaped.keeps_addChunk []).defaults]
    rcases h.shaped.mem_freePos_addChunk hcPos with hold | hnew
    · exact ComponentSlots.read_addChunk _ _ _ _ (h.free cPos hold)
    · rw [← h.defaults]
      have hcell := h.shaped.addChunk.freePos_mem cPos hcPos
      exact (slot_eq_some.mp (h.shaped.slot_addChunk_new hcell hnew)).1

/-- The other components are as they were, and so is the free list. -/
theorem Plain.setEntities (h : Plain pool)
    (hset : pool.setEntities indexes status values = some pool') : Plain pool' := by
  have hsets := setsSlots_of_setEntities hset
  refine ⟨h.shaped.setEntities hset, ?_, ?_⟩
  · rw [hsets.others]
    exact h.defaults
  · rw [hsets.others, hsets.freePos]
    exact h.free

theorem Plain.giveBack (h : Plain pool)
    (hreset : (pool.insertFree back).resetEntityAtIndexes back = some pool') : Plain pool' := by
  have hresets := resetsSlots_of_reset hreset
  have hdefaults : ComponentSlots.defaults pool'.others = ComponentSlots.defaults pool.others :=
    hresets.keeps.defaults
  refine ⟨h.shaped.giveBack hreset, ?_, fun cPos hcPos => ?_⟩
  · rw [hdefaults]
    exact h.defaults
  · rw [hdefaults]
    by_cases hback : cPos ∈ back
    · exact (slot_eq_some.mp (hresets.reset cPos hback)).1
    · have hold : cPos ∈ pool.freePos := by
        rw [hresets.freePos] at hcPos
        exact (List.mem_append.mp hcPos).resolve_right hback
      obtain ⟨others, hothers, hreset⟩ := Option.bind_eq_some_iff.mp hreset
      obtain ⟨chunkPos, -, hreset⟩ := Option.bind_eq_some_iff.mp hreset
      obtain ⟨entityStatus, -, hreset⟩ := Option.bind_eq_some_iff.mp hreset
      cases hreset
      exact (ComponentSlots.read_reset _ _ _ _ hothers hback).trans (h.free cPos hold)

theorem poolLaw_plain : PoolLaw (Plain (R := R)) where
  addChunk _ h := h.addChunk
  setEntities _ _ _ _ _ h hset := h.setEntities hset
  dropFree _ count h := ⟨h.shaped.dropFree count, h.defaults,
    fun cPos hcPos => h.free cPos (List.mem_of_mem_drop hcPos)⟩
  giveBack _ _ _ h hreset := h.giveBack hreset
  deleteEverything pool h := by
    refine ⟨h.shaped.deleteEverything, ?_, fun _ hcPos => absurd hcPos List.not_mem_nil⟩
    show (ComponentSlots.defaults (ComponentPools.deleteEverything pool.others)).zero = _
    rw [ComponentSlots.defaults_delete, h.defaults]
    exact congrArg Defaults.empty (ComponentSlots.defaults_delete pool.others).symm

end ArchetypePool

/-! ## Managers -/

namespace EntityManager

variable {m m' : EntityManager R} {entityName : String} {status : EntityStatus}

/-- An entity has the default value in every component but its status and its handle. -/
def HasDefaults (m : EntityManager R) (entity : EntityRef) : Prop :=
  ∃ pool ∈ m.entityPools[entity.pool]?, ∃ slot ∈ pool.slot entity.cPos,
    slot.others = (ComponentSlots.defaults pool.others).empty

instance [DecidableEq V] (m : EntityManager R) (entity : EntityRef) :
    Decidable (m.HasDefaults entity) :=
  inferInstanceAs (Decidable (∃ _ ∈ _, ∃ _ ∈ _, _))

/-- Systems that leave the other components of free slots alone. -/
theorem plain_of_runSystems {S : Type} {systems : Systems S Nat}
    {statusOf : S → Option EntityStatus} {operate : Nat → S → ℚ → Nat → Slot V → Slot V}
    {runs : List (S × ℚ)} {visits : List (Visit V)}
    (hruns : runSystems systems statusOf operate runs m = some (m', visits))
    (h : ∀ pool ∈ m.entityPools, pool.Plain)
    (hspares : ∀ visit ∈ visits, m.Free visit.entity → visit.after.others = visit.before.others) :
    ∀ pool ∈ m'.entityPools, pool.Plain := by
  have hkept := runSystems_rec
    (Q := fun entity slot => ∀ pool, m.entityPools[entity.pool]? = some pool →
      entity.cPos ∈ pool.freePos → slot.others = (ComponentSlots.defaults pool.others).empty) hruns
    (fun entity slot hslot pool hpool hfree => by
      rw [slot_of_getElem? hpool] at hslot
      have hread := (ArchetypePool.slot_eq_some.mp hslot).1
      rw [(h pool (List.mem_of_getElem? hpool)).free _ hfree] at hread
      exact (Option.some.inj hread).symm)
    fun visit hvisit hbefore pool hpool hfree => by
      rw [hspares visit hvisit ⟨pool, hpool, hfree⟩]
      exact hbefore pool hpool hfree
  intro pool' hpool'
  obtain ⟨index, hindex⟩ := List.mem_iff_getElem?.mp hpool'
  obtain ⟨pool, hpool, hsame⟩ := (same_of_runSystems hruns).exists_pool' hindex
  have hplain := h pool (List.mem_of_getElem? hpool)
  have hshaped := hsame.shaped hplain.shaped
  refine ⟨hshaped, ?_, fun cPos hcPos => ?_⟩
  · rw [hsame.defaults]
    exact hplain.defaults
  · obtain ⟨slot, hslot⟩ := hshaped.exists_slot (hshaped.freePos_mem cPos hcPos)
    have hslot' : m'.slot ⟨index, cPos⟩ = some slot := (slot_of_getElem? hindex).trans hslot
    rw [hsame.defaults, ← hkept ⟨index, cPos⟩ slot hslot' pool hpool (hsame.freePos ▸ hcPos)]
    exact (ArchetypePool.slot_eq_some.mp hslot).1

/-- What is created takes free slots, and leaves their other components. -/
theorem hasDefaults_createEntities (hm : m.Shaped) (h : ∀ pool ∈ m.entityPools, pool.Plain)
    {count : Nat} {entities : List EntityRef}
    (hcreate : m.createEntities entityName count status = some (m', entities)) :
    ∀ entity ∈ entities, m'.HasDefaults entity := by
  obtain ⟨pool, index, grown, set, ptrGrown, ptrSet, ids, hfound, hc, rfl, rfl⟩ :=
    hm.createEntities_cases hcreate
  have hpool := (getEntityPool_some hfound).1
  have hgrown : grown.Plain := ArchetypePool.growTo_rec (fun _ hQ => hQ.addChunk) hc.grow
    (h pool (List.mem_of_getElem? hpool))
  have hset := hgrown.setEntities hc.write
  have hsets := ArchetypePool.setsSlots_of_setEntities hc.write
  intro entity hentity
  obtain ⟨cPos, hcPos, rfl⟩ := List.mem_map.mp hentity
  have hfree : cPos ∈ set.freePos := by
    rw [hsets.freePos]
    exact List.mem_of_mem_take hcPos
  obtain ⟨slot, hslot⟩ := hset.shaped.exists_slot (hset.shaped.freePos_mem cPos hfree)
  refine ⟨set.dropFree count, List.getElem?_set_self (List.getElem?_eq_some_iff.mp hpool).1, slot,
    hslot, ?_⟩
  have hread := (ArchetypePool.slot_eq_some.mp hslot).1
  rw [hset.free cPos hfree] at hread
  exact (Option.some.inj hread).symm

end EntityManager

end Plain

/-! ## Worlds -/

section Worlds

variable {R S V : Type} [ComponentPools R] [slots : ComponentSlots R V] [DecidableEq S]
  {statusOf : S → Option EntityStatus} {w : World R S}

/-- Pools are registered new, and systems leave the other components of free slots alone. -/
def World.KeepsDefaults (statusOf : S → Option EntityStatus) (w : World R S) (act : Act R S V) :
    Prop :=
  World.FreshPools w act ∧ World.PlainDefaults w act ∧ World.SparesOthers statusOf w act

instance [DecidableEq V] (w : World R S) (act : Act R S V) :
    Decidable (World.KeepsDefaults statusOf w act) :=
  inferInstanceAs (Decidable (_ ∧ _ ∧ _))

theorem plain_of_reach
    (h : (World.machine R S statusOf).ReachUnder (World.KeepsDefaults statusOf) w) :
    w.manager.Shaped ∧ ∀ pool ∈ w.manager.entityPools, pool.Plain := by
  refine h.invariant (I := fun w => w.manager.Shaped ∧ ∀ pool ∈ w.manager.entityPools, pool.Plain)
    (fun w hw => ?_) fun w act w' hw hact hstep => ?_
  · obtain ⟨systems, fixedUpdateTime, -, -, rfl⟩ := hw
    exact ⟨World.shaped_new systems fixedUpdateTime, fun _ hpool => absurd hpool List.not_mem_nil⟩
  · have hchange := World.change_of_step hw.1 hstep
    refine ⟨World.shaped_change hw.1 hact.1 hchange, World.forall_change
      ArchetypePool.poolLaw_plain hw.1 hw.2 hchange ?_ ?_⟩
    · rintro entityName chunkSize others componentNames rfl
      exact ArchetypePool.plain_new entityName hact.1.1 hact.1.2 hact.2.1
    · rintro time fuel operate w₁ visits rfl htime
      obtain ⟨⟨runs, hruns⟩, -, -⟩ := World.addTime_cases htime
      exact EntityManager.plain_of_runSystems hruns hw.2 (hact.2.2 _ htime)

/-- **New entities start from default components**, in slots fresh or recycled, as long as no system
writes to a slot that is free. -/
theorem created_with_defaults (w : World R S)
    (h : (World.machine R S statusOf).ReachUnder (World.KeepsDefaults statusOf) w)
    (entityName : String) (status : EntityStatus) :
    (∀ m' entity, w.manager.createEntity entityName status = some (m', entity) →
      m'.HasDefaults entity) ∧
    (∀ count m' entities, w.manager.createEntities entityName count status = some (m', entities) →
      ∀ entity ∈ entities, m'.HasDefaults entity) ∧
    ∀ count m' entities, w.manager.createEntitiesN entityName count status = some (m', entities) →
      ∀ entity ∈ entities, m'.HasDefaults entity := by
  obtain ⟨hshaped, hplain⟩ := plain_of_reach h
  refine ⟨fun m' entity hcreate => ?_, fun count m' entities hcreate => ?_,
    fun count m' entities hcreate => ?_⟩
  · have hone := EntityManager.createEntities_of_createEntity hshaped hcreate
    exact EntityManager.hasDefaults_createEntities hshaped hplain hone entity
      (List.mem_singleton_self entity)
  · exact EntityManager.hasDefaults_createEntities hshaped hplain hcreate
  · exact EntityManager.hasDefaults_createEntities hshaped hplain hcreate

end Worlds

/-! ### Timers -/

instance : Component ℚ := ⟨0, 0⟩

/-- `IncrementTimerSystem::_innerOperate`, on a slot: it counts whether an entity has the slot or
not. -/
def IncrementTimerSystem.innerOperate (deltaTime : ℚ) (timer : Slot ℚ) : Slot ℚ :=
  { timer with others := timer.others + deltaTime }

/-- `IncrementTimerSystem`, and one like it of live entities. -/
def timerSystems : Systems Bool Nat
  | false => .mono (.new ["Timer"])
  | true => .mono (.new ["EntityStatus", "Timer"])

theorem init_timerSystems :
    (World.machine (ComponentPool ℚ) Bool aliveStatus).init (World.new timerSystems 0) := by
  refine ⟨timerSystems, 0, fun s query hquery => ?_, fun s hs => ?_, rfl⟩
  · cases s with
    | false =>
      cases List.mem_singleton.mp hquery
      rfl
    | true =>
      cases List.mem_singleton.mp hquery
      rfl
  · cases s with
    | false => exact absurd hs Bool.false_ne_true
    | true => exact ⟨["Timer"], rfl⟩

/-- A timer, a system and one second: the system `s` has counted. -/
def oneSecond (s : Bool) : List (Act (ComponentPool ℚ) Bool ℚ) :=
  [.registerEntityPool "Timer" 2 [] ["EntityStatus", "ChunkPos", "Timer"],
    .register (.system s ROOT_SYS_GROUP true), .createEntity "Timer" ENT_ALIVE,
    .addTime 1 1 fun _ _ deltaTime _ => IncrementTimerSystem.innerOperate deltaTime]

/-- The system of live entities counts on for a timer that is destroyed: its slot is taken again
once the fresh one is. -/
theorem created_with_defaults_timer : ∃ (w : World (ComponentPool ℚ) Bool)
    (m' : EntityManager (ComponentPool ℚ)) (entities : List EntityRef),
    w.manager.createEntities "Timer" 2 ENT_ALIVE = some (m', entities) ∧
      entities = [⟨0, (0, 1)⟩, ⟨0, (0, 0)⟩] ∧ ∀ entity ∈ entities, m'.HasDefaults entity := by
  have hw : (((World.machine (ComponentPool ℚ) Bool aliveStatus).exec
      (World.KeepsDefaults aliveStatus) (World.new timerSystems 0)
      (oneSecond true ++ [.destroyEntity (0, 0)])).any fun w =>
      decide ((w.manager.createEntities "Timer" 2 ENT_ALIVE).map (·.2) =
        some [⟨0, (0, 1)⟩, ⟨0, (0, 0)⟩])) = true := by
    decide +kernel
  obtain ⟨w, hreach, hp⟩ := Machine.reachUnder_of_exec init_timerSystems hw
  obtain ⟨⟨m', entities⟩, hcreate, hentities⟩ := Option.map_eq_some_iff.mp (of_decide_eq_true hp)
  exact ⟨w, m', entities, hcreate, hentities,
    (created_with_defaults w hreach "Timer" ENT_ALIVE).2.1 2 m' entities hcreate⟩

/-- `IncrementTimerSystem` has counted in the free slot too. -/
theorem not_created_with_defaults :
    ¬ ∀ w : World (ComponentPool ℚ) Bool,
      (World.machine (ComponentPool ℚ) Bool aliveStatus).ReachUnder
        (fun w act => World.FreshPools w act ∧ World.PlainDefaults w act ∧
          World.LiveDestroys w act) w →
      ∀ entityName status m' entity,
        w.manager.createEntity entityName status = some (m', entity) → m'.HasDefaults entity := by
  intro hall
  have hw : (((World.machine (ComponentPool ℚ) Bool aliveStatus).exec
      (fun w act => World.FreshPools w act ∧ World.PlainDefaults w act ∧
        World.LiveDestroys w act) (World.new timerSystems 0) (oneSecond false)).any fun w =>
      (w.manager.createEntity "Timer" ENT_ALIVE).any fun created =>
        decide (¬ created.1.HasDefaults created.2)) = true := by
    decide +kernel
  obtain ⟨w, hreach, hp⟩ := Machine.reachUnder_of_exec init_timerSystems hw
  obtain ⟨⟨m', entity⟩, hcreate, hnot⟩ := (Option.any_eq_true _ _).mp hp
  exact of_decide_eq_true hnot (hall w hreach "Timer" ENT_ALIVE m' entity hcreate)

end ProjectE.Ecs
