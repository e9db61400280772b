import ProjectE.Ecs.History

/-!
# Slots nobody owns

A system without a status is given the slots nobody owns too, and what it does there is seen where
it asks no more of a slot than what is in it. A slot nobody owns was made with its chunk or reset,
and systems have been over it since. So what is true of slots as they are made and as they are
reset, and what no system takes from a free slot, is true of every free slot (`rests_of_reach`);
that free slots have no status is one case of it.

`StatusInv.exists_visits` says what a system is given in the middle of a step, after others.
-/

namespace ProjectE.Ecs

open Verif

section Resting

variable {R V : Type} [ComponentPools R] [slots : ComponentSlots R V] {P : Slot V → Prop}
  {m m' : EntityManager R} {created gone : List Created} {index : Nat}
  {pool pool' : ArchetypePool R}

/-- It is true of slots as chunks are made with them, and as they are reset. -/
def Defaults.Make (P : Slot V → Prop) (defaults : Defaults V) : Prop :=
  P ⟨defaults.zero, Component.zero, Component.zero⟩ ∧
    P ⟨defaults.empty, Component.empty, Component.empty⟩

instance [DecidablePred P] (defaults : Defaults V) : Decidable (defaults.Make P) :=
  inferInstanceAs (Decidable (_ ∧ _))

/-- It is true of the free slots, and of the slots that are made or reset. -/
structure Rests (P : Slot V → Prop) (m : EntityManager R) : Prop where
  made : ∀ pool ∈ m.entityPools, (ComponentSlots.defaults pool.others).Make P
  free : ∀ entity, m.Free entity → ∀ slot, m.slot entity = some slot → P slot

/-! ## One pool changes -/

/-- Its free slots were free before, or it is true of them. -/
theorem Rests.set (h : Rests P m) (hpool : m.entityPools[index]? = some pool)
    (hdefaults : ComponentSlots.defaults pool'.others = ComponentSlots.defaults pool.others)
    (hfree : ∀ cPos ∈ pool'.freePos, (cPos ∈ pool.freePos ∧ pool'.slot cPos = pool.slot cPos) ∨
      ∃ slot, pool'.slot cPos = some slot ∧ P slot)
    (ptrPool' : EntityPtrPool) : Rests P ⟨m.entityPools.set index pool', ptrPool'⟩ := by
  refine ⟨PoolLaw.forall_set h.made ?_, fun entity hentity slot hslot => ?_⟩
  · rw [hdefaults]
    exact h.made pool (List.mem_of_getElem? hpool)
  · rw [EntityManager.slot_set hpool] at hslot
    split at hslot
    next heq =>
      have hpool' : (m.entityPools.set index pool')[entity.pool]? = some pool' := by
        rw [heq]
        exact List.getElem?_set_self (List.getElem?_eq_some_iff.mp hpool).1
      rcases hfree _ ((free_iff hpool').mp hentity) with ⟨hold, hsame⟩ | ⟨slot', hslot', hP⟩
      · refine h.free entity ((free_iff (heq ▸ hpool)).mpr hold) slot ?_
        rw [EntityManager.slot_of_getElem? (heq ▸ hpool), ← hsame, hslot]
      · cases hslot.symm.trans hslot'
        exact hP
    next hne =>
      refine h.free entity ?_ slot hslot
      obtain ⟨pool₁, hpool₁, hfree₁⟩ := hentity
      rw [Option.mem_def, List.getElem?_set_ne (Ne.symm hne)] at hpool₁
      exact ⟨pool₁, hpool₁, hfree₁⟩

theorem Owned.rests_createEntities (h : Owned m created) (hrests : Rests P m) {entityName : String}
    {count : Nat} {status : EntityStatus} {entities : List EntityRef}
    (hcreate : m.createEntities entityName count status = some (m', entities)) : Rests P m' := by
  obtain ⟨pool, index, grown, set, ptrGrown, ptrSet, ids, hfound, hc, rfl, -⟩ :=
    h.shaped.createEntities_cases hcreate
  have hpool := (EntityManager.getEntityPool_some hfound).1
  have hgiven := (h.pools index pool hpool).given hc.grow hc.write
  refine hrests.set hpool hgiven.keeps.defaults (fun cPos hcPos => ?_) _
  rcases hgiven.free cPos hcPos with hold | hfresh
  · exact .inl hold
  · exact .inr ⟨_, hfresh, (hrests.made pool (List.mem_of_getElem? hpool)).1⟩

theorem Owned.rests_destroyEntitiesOf (h : Owned m created) (hrests : Rests P m)
    (hgone : ∀ c ∈ gone, c ∈ created ∧ c.entity.pool = index)
    (hnodup : (gone.map Created.handle).Nodup)
    (hdestroy : m.destroyEntitiesOf (gone.map Created.handle) index = some m') : Rests P m' := by
  obtain ⟨pool, pool', ptrPool', hpool, rfl, hback, -⟩ := h.takenBack hgone hnodup hdestroy
  refine hrests.set hpool hback.keeps.defaults (fun cPos hcPos => ?_) ptrPool'
  rw [hback.freePos] at hcPos
  rcases List.mem_append.mp hcPos with hold | hnew
  · exact .inl ⟨hold, hback.free cPos hold⟩
  · exact .inr ⟨_, hback.reset cPos hnew, (hrests.made pool (List.mem_of_getElem? hpool)).2⟩

theorem Owned.rests_destroyEntitiesRange (h : Owned m created) (hrests : Rests P m)
    (hgone : ∀ c ∈ gone, c ∈ created ∧ c.entity.pool < 256)
    (hnodup : (gone.map Created.handle).Nodup)
    (hdestroy : m.destroyEntitiesRange (gone.map Created.handle) = some m') : Rests P m' := by
  rw [EntityManager.destroyEntitiesRange_eq_destroyTimes h.ptrPool.shaped hnodup
    (h.mapM_pointee fun c hc => (hgone c hc).1)] at hdestroy
  refine Owned.destroyTimes_rec (Q := fun m _ => Rests P m) ?_ h hrests hgone hnodup hdestroy
  intro m created m' c howned hrests hc hlt hfirst
  rw [howned.destroyEntity_eq hc hlt] at hfirst
  exact howned.rests_destroyEntitiesOf hrests (List.forall_mem_singleton.mpr ⟨hc, rfl⟩)
    (List.nodup_singleton _) hfirst

/-! ## All pools -/

theorem Rests.registerEntityPool (h : Rests P m) (hfree : pool.freePos = [])
    (hmade : (ComponentSlots.defaults pool.others).Make P) :
    Rests P (m.registerEntityPool pool) := by
  refine ⟨List.forall_mem_append.mpr ⟨h.made, List.forall_mem_singleton.mpr hmade⟩, ?_⟩
  intro entity hentity slot hslot
  obtain ⟨pool', hpool', hmem⟩ := hentity
  simp only [EntityManager.registerEntityPool, Option.mem_def, List.getElem?_append] at hpool'
  split at hpool'
  next hlt =>
    refine h.free entity ⟨pool', hpool', hmem⟩ slot ?_
    rw [EntityManager.slot_of_getElem? hpool', ← hslot]
    apply Eq.symm
    apply EntityManager.slot_of_getElem?
    rw [EntityManager.registerEntityPool, List.getElem?_append_left hlt, hpool']
  next =>
    -- the new pool has no free slot
    obtain ⟨hlt, hget⟩ := List.getElem?_eq_some_iff.mp hpool'
    rw [List.getElem_singleton] at hget
    rw [← hget, hfree] at hmem
    exact absurd hmem List.not_mem_nil

theorem Rests.deleteEverything (h : Rests P m) : Rests P m.deleteEverything := by
  refine ⟨fun pool' hpool' => ?_, fun entity hentity => ?_⟩
  · obtain ⟨pool, hpool, rfl⟩ := List.mem_map.mp hpool'
    show (ComponentSlots.defaults (ComponentPools.deleteEverything pool.others)).Make P
    rw [ComponentSlots.defaults_delete]
    exact h.made pool hpool
  · obtain ⟨pool', hpool', hmem⟩ := hentity
    rw [Option.mem_def, EntityManager.deleteEverything, List.getElem?_map] at hpool'
    obtain ⟨pool, -, rfl⟩ := Option.map_eq_some_iff.mp hpool'
    exact absurd hmem List.not_mem_nil

/-- Systems that do not take it from a free slot. -/
theorem Rests.runSystems {S : Type} {systems : Systems S Nat} {statusOf : S → Option EntityStatus}
    {operate : Nat → S → ℚ → Nat → Slot V → Slot V} {runs : List (S × ℚ)} {visits : List (Visit V)}
    (h : Rests P m)
    (hruns : EntityManager.runSystems systems statusOf operate runs m = some (m', visits))
    (hspares : ∀ visit ∈ visits, m.Free visit.entity → P visit.before → P visit.after) :
    Rests P m' := by
  have hsame := EntityManager.same_of_runSystems hruns
  refine ⟨fun pool' hpool' => ?_, ?_⟩
  · obtain ⟨index, hindex⟩ := List.mem_iff_getElem?.mp hpool'
    obtain ⟨pool, hpool, hsame⟩ := hsame.exists_pool' hindex
    rw [hsame.defaults]
    exact h.made pool (List.mem_of_getElem? hpool)
  · have hkept := EntityManager.runSystems_rec
      (Q := fun entity slot => m.Free entity → P slot) hruns
      (fun entity slot hslot hfree => h.free entity hfree slot hslot)
      fun visit hvisit hbefore hfree => hspares visit hvisit hfree (hbefore hfree)
    exact fun entity hentity slot hslot => hkept entity slot hslot (hsame.free hentity)

end Resting

/-! ## Worlds -/

section Worlds

variable {R S V : Type} [ComponentPools R] [slots : ComponentSlots R V] [DecidableEq S]
  {statusOf : S → Option EntityStatus} {P : Slot V → Prop} {w w' : World R S} {act : Act R S V}

namespace World

/-- The pools registered are made so that it is true, and no system takes it from a free slot. -/
def KeepsResting (P : Slot V → Prop) (statusOf : S → Option EntityStatus) (w : World R S) :
    Act R S V → Prop
  | .registerEntityPool _ _ others _ => (ComponentSlots.defaults others).Make P
  | .addTime time fuel operate => ∀ after ∈ w.addTime statusOf time fuel operate,
    ∀ visit ∈ after.2, w.manager.Free visit.entity → P visit.before → P visit.after
  | _ => True

instance [DecidablePred P] (w : World R S) :
    ∀ act : Act R S V, Decidable (KeepsResting P statusOf w act)
  | .registerEntityPool _ _ _ _ => inferInstanceAs (Decidable (Defaults.Make _ _))
  | .addTime _ _ _ => inferInstanceAs (Decidable (∀ _ ∈ _, _))
  | .register _ | .createEntity _ _ | .createEntities _ _ _ | .destroyEntity _
  | .destroyEntities _ _ | .destroyEntitiesRange _ | .deleteEverything =>
    inferInstanceAs (Decidable True)

end World

omit [DecidableEq S] in
theorem rests_change (h : Owned w.manager w.created) (hrests : Rests P w.manager)
    (hkeeps : World.KeepsResting P statusOf w act) {m : EntityManager R} {created : List Created}
    (hchange : World.OwnChange statusOf w act m created) : Rests P m := by
  cases hchange with
  | keeps => exact hrests
  | registers => exact hrests.registerEntityPool rfl hkeeps
  | creates hcreate => exact h.rests_createEntities hrests hcreate
  | destroys hgone hnodup hdestroy => exact h.rests_destroyEntitiesOf hrests hgone hnodup hdestroy
  | destroysRange hgone hnodup hdestroy =>
    exact h.rests_destroyEntitiesRange hrests hgone hnodup hdestroy
  | deletes => exact hrests.deleteEverything
  | runs htime =>
    obtain ⟨⟨runs, hruns⟩, -, -⟩ := World.addTime_cases htime
    exact hrests.runSystems hruns (hkeeps _ htime)

/-- What no system takes from a free slot is true of every free slot, if slots are made and reset
with it. -/
theorem rests_of_reach {G : World R S → Act R S V → Prop}
    (hG : ∀ w act, G w act → World.OwnDestroys w act ∧ World.KeepsResting P statusOf w act)
    (h : (World.machine R S statusOf).ReachUnder G w) : Rests P w.manager := by
  refine (h.invariant (I := fun w => Owned w.manager w.created ∧ Rests P w.manager)
    (fun w hw => ?_) fun w act w' hw hact hstep => ?_).2
  · obtain ⟨systems, fixedUpdateTime, -, -, rfl⟩ := hw
    refine ⟨owned_new, fun pool hpool => absurd hpool List.not_mem_nil, fun entity hentity => ?_⟩
    obtain ⟨pool, hpool, -⟩ := hentity
    cases hpool
  · have hchange := World.ownChange_of_change hw.1 (hG w act hact).1
      (World.change_of_step hw.1.shaped hstep)
    exact ⟨(World.owned_change hw.1 hchange).1, rests_change hw.1 hw.2 (hG w act hact).2 hchange⟩

/-! ## Runs of a system -/

omit slots in
/-- Every element of the pools a query has taken is a slot. -/
theorem readable_of_mem_elementsOf {m : EntityManager R} (hm : m.Shaped)
    {taken : List (IArchetypePool Nat)}
    (hptrs : ∀ entityPool ∈ taken, entityPool.ptr < m.entityPools.length) :
    ∀ entity ∈ elementsOf m.entityPools taken, m.Readable entity := by
  intro entity hentity
  obtain ⟨hpool, hcell⟩ := mem_elementsOf.mp hentity
  obtain ⟨entityPool, hentityPool, hptr⟩ := List.mem_map.mp hpool
  have hget := List.getElem?_eq_getElem (hptr ▸ hptrs entityPool hentityPool)
  rw [shapeAt_of_getElem? hget] at hcell
  exact ⟨_, hget, hm.pools _ (List.getElem_mem _), hcell⟩

omit [DecidableEq S] in
/-- A registered system of one query is given the slots of the pools it takes that have its status,
each once, as they are after the systems that ran before it. -/
theorem StatusInv.exists_visits {start : Systems S Nat} (h : StatusInv start w)
    (hfresh : start.Fresh) {s : S} (hs : s ∈ w.registry.registered)
    (hmono : (w.registry.systems s).Mono) {m : EntityManager R} (hsame : w.manager.Same m)
    (status : Option EntityStatus) (operate : Nat → Slot V → Slot V) :
    ∃ m' visits, m.runSystem (w.registry.systems s) status operate = some (m', visits) ∧
      (visits.map Visit.entity).Nodup ∧
      (∀ visit ∈ visits, m.slot visit.entity = some visit.before) ∧
      ∀ entity, entity ∈ visits.map Visit.entity ↔ w.Takes entity s ∧
        ∃ slot ∈ m.slot entity, status.all (· = slot.entityStatus) = true := by
  obtain ⟨name, names, hsystem⟩ :=
    ISystem.exists_names hfresh (h.offered.registered s hs) hmono
  have hnodup : (w.registry.entityPools.map (·.ptr)).Nodup := h.ptrs ▸ List.nodup_range
  have hptrs : ∀ entityPool ∈ w.registry.entityPools, entityPool.ptr < m.entityPools.length := by
    rw [hsame.length]
    exact h.ptr_lt
  set taken := w.registry.entityPools.filter
    ((Query.new (name :: names) : Query Nat).Matches ·) with htaken
  have helements : (w.registry.systems s).elements m.entityPools =
      some (elementsOf m.entityPools taken) := by
    rw [hsystem]
    exact elements_mono hptrs
  have hmem (entity : EntityRef) : entity.pool ∈ taken.map (·.ptr) ↔ w.Takes entity s := by
    rw [World.Takes, List.mem_map, hsystem]
    refine exists_congr fun entityPool => ?_
    rw [htaken, List.mem_filter, decide_eq_true_eq, and_assoc, and_comm (a := Query.Matches _ _)]
    refine and_congr_right fun _ => and_congr_right fun _ => ?_
    rw [ISystem.queries, List.forall_mem_singleton]
    rfl
  have hdistinct : (elementsOf m.entityPools taken).Nodup :=
    nodup_elementsOf (hnodup.sublist (List.filter_sublist.map _))
  have hread : ∀ entity ∈ elementsOf m.entityPools taken, m.Readable entity :=
    readable_of_mem_elementsOf (hsame.shaped h.owned.shaped)
      fun entityPool hentityPool => hptrs entityPool (List.mem_of_mem_filter hentityPool)
  obtain ⟨⟨m', visits⟩, hrun⟩ := Option.isSome_iff_exists.mp
    (EntityManager.isSome_operateEach hread status operate)
  obtain ⟨hvisited, hbefore⟩ := EntityManager.visits_operateEach hdistinct hrun
  refine ⟨m', visits, ?_, hvisited ▸ hdistinct.filter _, hbefore, fun entity => ?_⟩
  · rw [EntityManager.runSystem, helements]
    exact hrun
  · rw [hvisited, List.mem_filter, mem_elementsOf, hmem, Option.any_eq_true, and_assoc]
    refine and_congr_right fun _ => and_iff_right_of_imp ?_
    rintro ⟨slot, hslot, -⟩
    obtain ⟨pool, hpool, hslot⟩ := Option.bind_eq_some_iff.mp hslot
    rw [shapeAt_of_getElem? hpool]
    exact ArchetypePool.mem_cells_of_slot hslot

end Worlds

end ProjectE.Ecs
