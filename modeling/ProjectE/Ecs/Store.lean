import ProjectE.Lib.Rows
import ProjectE.Ecs.History

/-!
# The entity manager is a table

What an entity manager is for: a table of the live entities, each under its handle, with its
components. Creating puts in as many rows as were asked for, with the default values of the
archetype; destroying takes out the rows of the handles; adding time rewrites every row by the
systems that are run on it. The chunks, the free lists, the pool of pointers and the slots nobody
owns are not to be seen (`store_refines`).

That rows start from default values takes systems that leave the slots nobody owns alone.
-/

namespace ProjectE.Ecs

open Verif

section Rows

variable {R V : Type} [ComponentPools R] [slots : ComponentSlots R V] {m m' : EntityManager R}
  {created new : List Created}

/-- Entities with what their slots hold. -/
def rowsOf (m : EntityManager R) (created : List Created) : List (Created × Slot V) :=
  created.filterMap fun c => (m.slot c.entity).map fun slot => (c, slot)

theorem rowsOf_append (m : EntityManager R) (created new : List Created) :
    rowsOf m (created ++ new) = rowsOf m created ++ rowsOf m new := List.filterMap_append

theorem mem_rowsOf {row : Created × Slot V} : row ∈ rowsOf m created ↔
    row.1 ∈ created ∧ m.slot row.1.entity = some row.2 := by
  simp only [rowsOf, List.mem_filterMap, Option.map_eq_some_iff]
  constructor
  · rintro ⟨c, hc, slot, hslot, rfl⟩
    exact ⟨hc, hslot⟩
  · rintro ⟨hc, hslot⟩
    exact ⟨row.1, hc, row.2, hslot, rfl⟩

/-- The slots hold what is made of what they held. -/
theorem rowsOf_rewrite {f : Created → Slot V → Slot V}
    (h : ∀ c ∈ created, m'.slot c.entity = (m.slot c.entity).map (f c)) :
    rowsOf m' created = (rowsOf m created).map fun row => (row.1, f row.1 row.2) := by
  rw [rowsOf, rowsOf, List.map_filterMap]
  refine List.filterMap_congr fun c hc => ?_
  rw [h c hc]
  cases m.slot c.entity <;> rfl

theorem rowsOf_congr (h : ∀ c ∈ created, m'.slot c.entity = m.slot c.entity) :
    rowsOf m' created = rowsOf m created :=
  List.filterMap_congr fun c hc => by rw [h c hc]

theorem rowsOf_filter (m : EntityManager R) (created : List Created) (p : Created → Bool) :
    rowsOf m (created.filter p) = (rowsOf m created).filter fun row => p row.1 := by
  rw [rowsOf, rowsOf, List.filterMap_filter, List.filter_filterMap]
  refine List.filterMap_congr fun c _ => ?_
  cases m.slot c.entity with
  | none => cases p c <;> rfl
  | some slot => cases hp : p c <;> simp [Option.filter, hp]

/-- Every live entity has a row, in the order they were created. -/
theorem Owned.map_fst_rowsOf (h : Owned m created) :
    (rowsOf m created).map Prod.fst = created := by
  have hslot : ∀ c ∈ created, (m.slot c.entity).isSome := by
    intro c hc
    have hpool := List.getElem?_eq_getElem (h.pool_lt c hc)
    have hlaid := h.pools _ _ hpool
    obtain ⟨slot, hslot⟩ := hlaid.shaped.exists_slot
      (hlaid.mem_cells_of_mem_used (mem_positions_self hc))
    rw [EntityManager.slot_of_getElem? hpool, hslot]
    rfl
  rw [rowsOf, List.map_filterMap]
  refine Eq.trans (List.filterMap_congr fun c hc => ?_) (List.filterMap_some (l := created))
  obtain ⟨slot, hslot⟩ := Option.isSome_iff_exists.mp (hslot c hc)
  rw [hslot]
  rfl

theorem Owned.nodup_created (h : Owned m created) : created.Nodup :=
  List.Nodup.of_map _ h.ptrPool.nodup_used

/-! ## Rows put in -/

omit [ComponentPools R] in
theorem of_mem_record {entities : List EntityRef} (h : record m entities = some new) :
    new.length = entities.length ∧
      ∀ c ∈ new, c.entity ∈ entities ∧ m.getChunkPosElem c.entity = some c.handle := by
  induction entities generalizing new with
  | nil =>
    cases h
    exact ⟨rfl, fun c hc => absurd hc List.not_mem_nil⟩
  | cons entity entities ih =>
    rw [record, List.mapM_cons] at h
    obtain ⟨c, hc, h⟩ := Option.bind_eq_some_iff.mp h
    obtain ⟨rest, hrest, h⟩ := Option.bind_eq_some_iff.mp h
    cases h
    obtain ⟨handle, hhandle, rfl⟩ := Option.map_eq_some_iff.mp hc
    obtain ⟨hlength, hmem⟩ := ih hrest
    refine ⟨congrArg (· + 1) hlength, List.forall_mem_cons.mpr
      ⟨⟨List.mem_cons_self, hhandle⟩, fun c hc => ?_⟩⟩
    exact ⟨List.mem_cons_of_mem _ (hmem c hc).1, (hmem c hc).2⟩

/-- New entities hold the default values of their archetype, their handle and the status. -/
theorem Owned.slots_createEntities (h : Owned m created)
    (hplain : ∀ pool ∈ m.entityPools, pool.Plain) {entityName : String} {count : Nat}
    {status : EntityStatus} {entities : List EntityRef}
    (hcreate : m.createEntities entityName count status = some (m', entities))
    (hrecord : record m' entities = some new) :
    ∃ pool index, m.getEntityPool entityName = some (pool, index) ∧ new.length = count ∧
      ∀ c ∈ new, c.entity.pool = index ∧ m'.slot c.entity =
        some ⟨(ComponentSlots.defaults pool.others).empty, c.handle, status⟩ := by
  have hdefaults := EntityManager.hasDefaults_createEntities h.shaped hplain hcreate
  obtain ⟨hlength, hnew⟩ := of_mem_record hrecord
  obtain ⟨pool, index, grown, set, ptrGrown, ptrSet, ids, hfound, hc, rfl, rfl⟩ :=
    h.shaped.createEntities_cases hcreate
  have hpool := (EntityManager.getEntityPool_some hfound).1
  have hgiven := (h.pools index pool hpool).given hc.grow hc.write
  have hindex : (EntityManager.afterCreation m count index set ptrSet ids).entityPools[index]? =
      some (set.dropFree count) := List.getElem?_set_self (List.getElem?_eq_some_iff.mp hpool).1
  have hcount : (grown.freePos.take count).length = count :=
    List.length_take_of_le (ArchetypePool.le_length_of_growTo hc.grow)
  have hhandles : (ptrGrown.freePos.take count).length = count :=
    List.length_take_of_le (ArchetypePool.le_length_of_growTo hc.ptrGrow)
  refine ⟨pool, index, hfound, ?_, fun c hc' => ?_⟩
  · rw [hlength, List.length_map, hcount]
  obtain ⟨hentity, hhandle⟩ := hnew c hc'
  obtain ⟨pool', hpool', slot, hslot, hothers⟩ := hdefaults c.entity hentity
  obtain ⟨cPos, hcPos, heq⟩ := List.mem_map.mp hentity
  rw [← heq] at hpool' hslot hhandle ⊢
  cases hindex.symm.trans hpool'
  refine ⟨rfl, ?_⟩
  rw [EntityManager.slot_of_getElem? hindex]
  -- its handle was written beside the status
  obtain ⟨i, hi, hget⟩ := List.getElem_of_mem hcPos
  have hi' : i < (ptrGrown.freePos.take count).length := by omega
  have hzip : (cPos, (ptrGrown.freePos.take count)[i]) ∈
      (grown.freePos.take count).zip (ptrGrown.freePos.take count) := by
    rw [List.mem_iff_getElem]
    exact ⟨i, by rw [List.length_zip]; omega, by rw [List.getElem_zip, hget]⟩
  obtain ⟨others, hwritten⟩ := hgiven.written _ hzip
  rw [hwritten] at hslot ⊢
  cases hslot
  have hslot : (EntityManager.afterCreation m count index set ptrSet ids).slot ⟨index, cPos⟩ =
      (set.dropFree count).slot cPos := EntityManager.slot_of_getElem? hindex
  have hthere := EntityManager.getChunkPosElem_of_slot (hslot.trans hwritten)
  have hc_handle : c.handle = (ptrGrown.freePos.take count)[i] :=
    Option.some.inj (hhandle.symm.trans hthere)
  have hsame : ComponentSlots.defaults (set.dropFree count).others =
      ComponentSlots.defaults pool.others := hgiven.keeps.defaults
  rw [show others = _ from hothers, hsame, hc_handle]

end Rows

/-! ## Worlds -/

section Worlds

variable {R S V : Type} [ComponentPools R] [slots : ComponentSlots R V] [ReadsBack R V]
  [DecidableEq S] {statusOf : S → Option EntityStatus} {start : Systems S Nat} {w w' : World R S}
  {act : Act R S V}

namespace World

/-- The table: the live entities with what they hold. -/
def rows (w : World R S) : List (Created × Slot V) := rowsOf w.manager w.created

/-- Rows are put in for new entities of an archetype. -/
def Creates (w : World R S) (entityName : String) (count : Nat) (status : EntityStatus)
    (change : RowChange Created (Slot V)) : Prop :=
  ∃ pool index new, w.manager.getEntityPool entityName = some (pool, index) ∧ change = .put new ∧
    new.length = count ∧ ∀ row ∈ new, row.1.entity.pool = index ∧
      row.2 = ⟨(ComponentSlots.defaults pool.others).empty, row.1.handle, status⟩

/-- What is done to the table for what is asked. -/
def Makes (statusOf : S → Option EntityStatus) (w : World R S)
    (change : RowChange Created (Slot V)) : Act R S V → Prop
  | .registerEntityPool _ _ _ _ | .register _ => change = .put []
  | .createEntity entityName status => w.Creates entityName 1 status change
  | .createEntities entityName count status => w.Creates entityName count status change
  | .destroyEntity cPos => change = .drop fun c => [cPos].contains c.handle
  | .destroyEntities cPosArr _ => change = .drop fun c => cPosArr.contains c.handle
  | .destroyEntitiesRange cPosRange => change = .drop fun c => cPosRange.contains c.handle
  | .deleteEverything => change = .drop fun _ => true
  | .addTime time fuel operate => change = .rewrite fun c slot =>
      (w.runsOn statusOf c.entity (.addTime time fuel operate)).foldl (SystemRun.apply R) slot

/-- Callers are orderly, and systems leave the other components of free slots alone. -/
def Tabular (statusOf : S → Option EntityStatus) (w : World R S) (act : Act R S V) : Prop :=
  Orderly statusOf w act ∧ KeepsDefaults statusOf w act

/-- Steps that meet the condition, each with what it does to the table. -/
inductive Tabled (statusOf : S → Option EntityStatus) (G : World R S → Act R S V → Prop)
    (w : World R S) : List (RowChange Created (Slot V)) → World R S → Prop
  | start : Tabled statusOf G w [] w
  | step {w₁ w' : World R S} {act : Act R S V} {change : RowChange Created (Slot V)}
      {changes : List (RowChange Created (Slot V))} : Tabled statusOf G w changes w₁ → G w₁ act →
      World.step statusOf w₁ act = some w' → w₁.Makes statusOf change act →
      Tabled statusOf G w (changes ++ [change]) w'

end World

open World

omit [ReadsBack R V] [DecidableEq S] in
theorem StatusInv.rows_creates (h : StatusInv start w)
    (hplain : ∀ pool ∈ w.manager.entityPools, pool.Plain) {entityName : String} {count : Nat}
    {status : EntityStatus} {m : EntityManager R} {entities : List EntityRef} {new : List Created}
    (hcreate : w.manager.createEntities entityName count status = some (m, entities))
    (hrecord : record m entities = some new) :
    w.Creates entityName count status (.put (rowsOf m new)) ∧
      rowsOf m (w.created ++ new) = w.rows ++ rowsOf m new := by
  obtain ⟨new', hnew', -, howned, hundisturbed⟩ := h.owned.createEntities hcreate
  cases hrecord.symm.trans hnew'
  obtain ⟨pool, index, hfound, hlength, hnew⟩ :=
    h.owned.slots_createEntities hplain hcreate hrecord
  have hkeys := howned.map_fst_rowsOf
  rw [rowsOf_append, rowsOf_congr hundisturbed.slot] at hkeys ⊢
  refine ⟨⟨pool, index, rowsOf m new, hfound, rfl, ?_, fun row hrow => ?_⟩, rfl⟩
  · rw [List.map_append, h.owned.map_fst_rowsOf] at hkeys
    have hfst := congrArg List.length (List.append_cancel_left hkeys)
    rwa [List.length_map, hlength] at hfst
  · obtain ⟨hc, hslot⟩ := mem_rowsOf.mp hrow
    obtain ⟨hpool, hslot'⟩ := hnew row.1 hc
    exact ⟨hpool, Option.some.inj (hslot.symm.trans hslot')⟩

/-- A step of the manager is one change of the table. -/
theorem StatusInv.rows_step (h : StatusInv start w) (hfresh : start.Fresh)
    (hplain : ∀ pool ∈ w.manager.entityPools, pool.Plain) (hact : Orderly statusOf w act)
    (hstep : World.step statusOf w act = some w') :
    ∃ change, w.Makes statusOf change act ∧ w'.rows = change.run w.rows := by
  have hkept (c : Created) (hc : c ∈ w.created) (hc' : c ∈ w'.created) :
      w'.manager.slot c.entity = (w.manager.slot c.entity).map fun slot =>
        (w.runsOn statusOf c.entity act).foldl (SystemRun.apply R) slot := by
    have hrow : c ∈ w.rows.map Prod.fst := h.owned.map_fst_rowsOf.symm ▸ hc
    obtain ⟨⟨c, slot⟩, hmem, rfl⟩ := List.mem_map.mp hrow
    have hslot := (mem_rowsOf.mp hmem).2
    rw [hslot, h.slot_step hfresh hact hstep hc hc' hslot, Option.map_some]
  have hchange := World.change_of_step h.owned.shaped hstep
  have hforget {handles : List ChunkPos} (hnone : ∀ c, w.runsOn statusOf c act = [])
      (hcreated : w'.created = forget w.created handles) :
      w'.rows = (RowChange.drop fun c => handles.contains c.handle).run w.rows := by
    rw [rows, hcreated, RowChange.run, rows, ← rowsOf_filter w.manager w.created
      fun c => !handles.contains c.handle]
    refine rowsOf_congr fun c hc => ?_
    rw [hkept c (List.mem_filter.mp hc).1 (hcreated ▸ hc), hnone]
    exact Option.map_id'
  have hsame (hnone : ∀ c, w.runsOn statusOf c act = []) (hcreated : w'.created = w.created) :
      w'.rows = (RowChange.put []).run w.rows := by
    rw [rows, hcreated, RowChange.run, List.append_nil]
    refine rowsOf_congr fun c hc => ?_
    rw [hkept c hc (hcreated ▸ hc), hnone]
    exact Option.map_id'
  generalize hm : w'.manager = m at hchange
  generalize hregistry : w'.registry = registry at hchange
  generalize hcreated : w'.created = created at hchange
  cases hchange with
  | registerEntityPool => exact ⟨_, rfl, hsame (fun _ => rfl) hcreated⟩
  | register => exact ⟨_, rfl, hsame (fun _ => rfl) hcreated⟩
  | createEntity hcreate hrecord =>
    obtain ⟨hcreates, hrows⟩ := h.rows_creates hplain hcreate hrecord
    exact ⟨_, hcreates, by rw [rows, hm, hcreated, hrows]; rfl⟩
  | createEntities hcreate hrecord =>
    obtain ⟨hcreates, hrows⟩ := h.rows_creates hplain hcreate hrecord
    exact ⟨_, hcreates, by rw [rows, hm, hcreated, hrows]; rfl⟩
  | destroyEntity => exact ⟨_, rfl, hforget (fun _ => rfl) hcreated⟩
  | destroyEntities => exact ⟨_, rfl, hforget (fun _ => rfl) hcreated⟩
  | destroyNothing =>
    exact ⟨_, rfl, hforget (fun _ => rfl) hcreated⟩
  | destroyEntitiesRange => exact ⟨_, rfl, hforget (fun _ => rfl) hcreated⟩
  | deleteEverything =>
    refine ⟨_, rfl, ?_⟩
    rw [rows, hcreated, RowChange.run]
    exact (List.filter_eq_nil_iff.mpr fun _ _ => Bool.false_ne_true).symm
  | addTime =>
    refine ⟨_, rfl, ?_⟩
    rw [rows, hcreated, RowChange.run, rows]
    exact rowsOf_rewrite fun c hc => hkept c hc (hcreated ▸ hc)

namespace World

omit [ReadsBack R V] in
theorem owned_of_tabular (h : (machine R S statusOf).ReachUnder (Tabular statusOf) w) :
    Owned w.manager w.created := by
  obtain ⟨start, -, hinv⟩ := freshInv_of_reach (fun _ _ hact => hact.1.1.1) h
  exact hinv.owned

/-- A run is a run of changes that fit. -/
theorem exists_tabled (hreach : (machine R S statusOf).ReachUnder (Tabular statusOf) w)
    (hrun : (machine R S statusOf).RunUnder (Tabular statusOf) w w') :
    ∃ changes, Tabled statusOf (Tabular statusOf) w changes w' ∧
      RowChange.AllFit w.rows changes ∧ w'.rows = RowChange.runAll w.rows changes := by
  induction hrun with
  | refl => exact ⟨[], .start, trivial, rfl⟩
  | @tail w₁ w₂ hrun hlast ih =>
    have hreach₁ := hreach.run hrun
    obtain ⟨changes, htabled, hfit, hrows⟩ := ih
    obtain ⟨act, hact, hstep⟩ := hlast
    obtain ⟨start, hfresh, hinv⟩ := freshInv_of_reach (fun _ _ hact => hact.1.1.1) hreach₁
    have hplain := (plain_of_reach (hreach₁.mono fun _ _ hact => hact.2)).2
    obtain ⟨change, hmakes, hchange⟩ := hinv.rows_step hfresh hplain hact.1 hstep
    have howned := owned_of_tabular (hreach₁.step hact hstep)
    have hfits : change.Fits (RowChange.runAll w.rows changes) := by
      rw [← hrows]
      refine RowChange.fits_of_nodup ?_
      rw [← hchange, rows, howned.map_fst_rowsOf]
      exact howned.nodup_created
    refine ⟨changes ++ [change], htabled.step hact hstep hmakes, RowChange.allFit_append hfit hfits,
      ?_⟩
    rw [RowChange.runAll_append, ← hrows, hchange]

/-- The run from one world to another is a run of changes of the table, one for each step and made
for what was asked, that puts rows in under keys not in use; and the row of an entity that stays is
what its rewrites make of it. -/
structure Refines (statusOf : S → Option EntityStatus) (w w' : World R S) : Prop where
  changes : ∃ changes, Tabled statusOf (Tabular statusOf) w changes w' ∧
    RowChange.AllFit w.rows changes ∧ w'.rows = RowChange.runAll w.rows changes ∧
    ∀ c slot slot', (c, slot) ∈ w.rows → (∀ change ∈ changes, change.Spares c) →
      (c, slot') ∈ w'.rows → slot' = changes.foldl (fun slot change => change.on c slot) slot
  /-- The keys are the live entities. -/
  keys : w'.rows.map Prod.fst = w'.created
  /-- Each has a handle of its own. -/
  handles : (w'.created.map Created.handle).Nodup

/-- Timers of which one is destroyed, between two runs of their system. -/
def someTimers : List (Act (ComponentPool ℚ) Bool ℚ) :=
  [.createEntities "Timer" 2 ENT_ALIVE,
    .addTime 1 1 fun _ _ deltaTime _ => IncrementTimerSystem.innerOperate deltaTime,
    .destroyEntity (0, 1), .createEntity "Timer" ENT_ALIVE,
    .addTime 2 1 fun _ _ deltaTime _ => IncrementTimerSystem.innerOperate deltaTime]

end World

end Worlds

end ProjectE.Ecs
