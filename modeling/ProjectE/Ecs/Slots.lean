import ProjectE.Ecs.EntityManager

/-!
# Slots

What a pool holds at one position: the values of its components there. The positions of a pool are
its slots, whether an entity owns them or not: a chunk is made with every slot filled, an entity
that is destroyed leaves a slot reset, and a system goes over them all.

Everything a pool does is said of its slots. `Keeps` is what every operation has in common: the
chunks stay where they are, more may follow, and only the slots it names change.
-/

namespace ProjectE.Ecs

open Verif

/-- The values a fresh chunk holds, and those a reset leaves. -/
structure Defaults (V : Type) where
  zero : V
  empty : V
deriving DecidableEq, Repr

/-- The values in the pools of an archetype's other components. -/
class ComponentSlots (R : Type) (V : outParam Type) [ComponentPools R] where
  defaults : R → Defaults V
  read : R → ChunkPos → Option V
  write : R → ChunkPos → V → Option R
  isSome_read : ∀ (pools : R) cPos, (read pools cPos).isSome ↔
    ∀ layout ∈ ComponentPools.layouts pools, cPos ∈ Grid.cells layout
  defaults_addChunk : ∀ (pools : R) elemCount,
    defaults (ComponentPools.addChunk pools elemCount) = defaults pools
  read_addChunk : ∀ (pools : R) elemCount cPos value, read pools cPos = some value →
    read (ComponentPools.addChunk pools elemCount) cPos = some value
  read_addChunk_new : ∀ (pools : R) elemCount chunk index,
    (∀ layout ∈ ComponentPools.layouts pools, layout.length = chunk) → index < elemCount →
      read (ComponentPools.addChunk pools elemCount) (chunk, index) = some (defaults pools).zero
  defaults_reset : ∀ (pools : R) indexes (pools' : R),
    ComponentPools.resetComponentAtIndexes pools indexes = some pools' →
      defaults pools' = defaults pools
  read_reset : ∀ (pools : R) indexes (pools' : R) cPos,
    ComponentPools.resetComponentAtIndexes pools indexes = some pools' → cPos ∉ indexes →
      read pools' cPos = read pools cPos
  read_reset_of_mem : ∀ (pools : R) indexes (pools' : R) cPos,
    ComponentPools.resetComponentAtIndexes pools indexes = some pools' → cPos ∈ indexes →
      read pools' cPos = some (defaults pools).empty
  reset_nil : ∀ (pools : R), ComponentPools.resetComponentAtIndexes pools [] = some pools
  reset_append : ∀ (pools : R) indexes indexes',
    ComponentPools.resetComponentAtIndexes pools (indexes ++ indexes') =
      (ComponentPools.resetComponentAtIndexes pools indexes).bind fun (pools : R) =>
        ComponentPools.resetComponentAtIndexes pools indexes'
  defaults_delete : ∀ (pools : R), defaults (ComponentPools.deleteEverything pools) = defaults pools
  layouts_write : ∀ (pools : R) cPos value (pools' : R), write pools cPos value = some pools' →
    ComponentPools.layouts pools' = ComponentPools.layouts pools
  defaults_write : ∀ (pools : R) cPos value (pools' : R), write pools cPos value = some pools' →
    defaults pools' = defaults pools
  read_write_ne : ∀ (pools : R) cPos value (pools' : R) other,
    write pools cPos value = some pools' → other ≠ cPos → read pools' other = read pools other
  isSome_write : ∀ (pools : R) cPos value, (read pools cPos).isSome →
    (write pools cPos value).isSome

namespace ComponentPool

variable {T : Type} [Component T] {pool pool' : ComponentPool T} {indexes : List ChunkPos}

omit [Component T] in
/-- A position that was written holds the value, also where it was named twice. -/
theorem getComponent_setComponentAtIndexes_self {component : T} {cPos : ChunkPos}
    (h : pool.setComponentAtIndexes indexes component = some pool') (hcPos : cPos ∈ indexes) :
    pool'.getComponent cPos = some component := by
  refine Grid.read_writeEach_of_forall h ?_ ?_
  · intro e he _
    obtain ⟨index, -, rfl⟩ := List.mem_map.mp he
    rfl
  · rw [List.map_map]
    simpa [Function.comp_def] using hcPos

omit [Component T] in
/-- Two batches of positions are written one after the other. -/
theorem setComponentAtIndexes_append (pool : ComponentPool T) (indexes indexes' : List ChunkPos)
    (component : T) : pool.setComponentAtIndexes (indexes ++ indexes') component =
      (pool.setComponentAtIndexes indexes component).bind fun pool =>
        pool.setComponentAtIndexes indexes' component := by
  rw [setComponentAtIndexes, List.map_append, Grid.writeEach_append]
  rfl

omit [Component T] in
/-- What can be read are the positions of the pool. -/
theorem isSome_getComponent_iff (pool : ComponentPool T) (cPos : ChunkPos) :
    (pool.getComponent cPos).isSome ↔ cPos ∈ Grid.cells (Grid.layout pool) := Grid.isSome_read_iff

/-- The elements of a new chunk are `T {0}`. -/
theorem getComponent_addChunk_new (pool : ComponentPool T) {chunk index elemCount : Nat}
    (hchunk : (Grid.layout pool).length = chunk) (hindex : index < elemCount) :
    (pool.addChunk elemCount).getComponent (chunk, index) = some Component.zero := by
  have hlength : pool.length = chunk := by rw [← hchunk, Grid.layout, List.length_map]
  subst hlength
  exact Grid.read_new_row pool Component.zero hindex

end ComponentPool

/-- One component. -/
instance {T : Type} [Component T] : ComponentSlots (ComponentPool T) T where
  defaults _ := ⟨Component.zero, Component.empty⟩
  read := ComponentPool.getComponent
  write := ComponentPool.setComponentAtIndex
  isSome_read pools cPos := by
    rw [ComponentPool.isSome_getComponent_iff]
    exact (List.forall_mem_singleton (p := (cPos ∈ Grid.cells ·))).symm
  defaults_addChunk _ _ := rfl
  read_addChunk _ elemCount _ _ h := ComponentPool.getComponent_addChunk h elemCount
  read_addChunk_new pools _ _ _ hlayouts hindex :=
    pools.getComponent_addChunk_new (hlayouts _ List.mem_cons_self) hindex
  defaults_reset _ _ _ _ := rfl
  read_reset _ _ _ _ h hcPos := ComponentPool.getComponent_setComponentAtIndexes h hcPos
  read_reset_of_mem _ _ _ _ h hcPos :=
    ComponentPool.getComponent_setComponentAtIndexes_self h hcPos
  reset_nil _ := rfl
  reset_append pools indexes indexes' := pools.setComponentAtIndexes_append indexes indexes' _
  defaults_delete _ := rfl
  layouts_write _ _ _ _ h := congrArg ([·]) (Grid.layout_write h)
  defaults_write _ _ _ _ _ := rfl
  read_write_ne _ _ _ _ _ h hne := Grid.read_write_ne h hne
  isSome_write _ _ value h := Grid.isSome_write (Grid.isSome_read_iff.mp h) value

/-- No other component. -/
instance : ComponentSlots Unit Unit where
  defaults _ := ⟨(), ()⟩
  read _ _ := some ()
  write pools _ _ := some pools
  isSome_read _ _ := by simp [ComponentPools.layouts]
  defaults_addChunk _ _ := rfl
  read_addChunk _ _ _ _ _ := rfl
  read_addChunk_new _ _ _ _ _ _ := rfl
  defaults_reset _ _ _ _ := rfl
  read_reset _ _ _ _ _ _ := rfl
  read_reset_of_mem _ _ _ _ _ _ := rfl
  reset_nil _ := rfl
  reset_append _ _ _ := rfl
  defaults_delete _ := rfl
  layouts_write _ _ _ _ _ := rfl
  defaults_write _ _ _ _ _ := rfl
  read_write_ne _ _ _ _ _ _ _ := rfl
  isSome_write _ _ _ _ := rfl

/-- One component, and others. -/
instance {R S V W : Type} [ComponentPools R] [ComponentPools S] [ComponentSlots R V]
    [ComponentSlots S W] : ComponentSlots (R × S) (V × W) where
  defaults pools :=
    let fst := ComponentSlots.defaults pools.1
    let snd := ComponentSlots.defaults pools.2
    ⟨(fst.zero, snd.zero), (fst.empty, snd.empty)⟩
  read pools cPos := do
    let fst ← ComponentSlots.read pools.1 cPos
    let snd ← ComponentSlots.read pools.2 cPos
    return (fst, snd)
  write pools cPos value := do
    let fst ← ComponentSlots.write pools.1 cPos value.1
    let snd ← ComponentSlots.write pools.2 cPos value.2
    return (fst, snd)
  isSome_read pools cPos := by
    have hfst := ComponentSlots.isSome_read pools.1 cPos
    have hsnd := ComponentSlots.isSome_read pools.2 cPos
    simp only [ComponentPools.layouts, List.forall_mem_append, ← hfst, ← hsnd]
    cases ComponentSlots.read pools.1 cPos with
    | none => simp
    | some fst =>
      cases ComponentSlots.read pools.2 cPos with
      | none => simp
      | some snd => simp
  defaults_addChunk pools elemCount := by
    simp only [ComponentPools.addChunk, ComponentSlots.defaults_addChunk]
  read_addChunk pools elemCount cPos value h := by
    obtain ⟨fst, hfst, h⟩ := Option.bind_eq_some_iff.mp h
    obtain ⟨snd, hsnd, h⟩ := Option.bind_eq_some_iff.mp h
    simp only [ComponentPools.addChunk, ComponentSlots.read_addChunk _ _ _ _ hfst,
      ComponentSlots.read_addChunk _ _ _ _ hsnd]
    exact h
  read_addChunk_new pools elemCount chunk index hlayouts hindex := by
    obtain ⟨hfst, hsnd⟩ := List.forall_mem_append.mp hlayouts
    simp only [ComponentPools.addChunk, ComponentSlots.read_addChunk_new _ _ _ _ hfst hindex,
      ComponentSlots.read_addChunk_new _ _ _ _ hsnd hindex]
    rfl
  defaults_reset pools indexes pools' h := by
    obtain ⟨fst, hfst, h⟩ := Option.bind_eq_some_iff.mp h
    obtain ⟨snd, hsnd, h⟩ := Option.bind_eq_some_iff.mp h
    cases h
    simp only [ComponentSlots.defaults_reset _ _ _ hfst, ComponentSlots.defaults_reset _ _ _ hsnd]
  read_reset pools indexes pools' cPos h hcPos := by
    obtain ⟨fst, hfst, h⟩ := Option.bind_eq_some_iff.mp h
    obtain ⟨snd, hsnd, h⟩ := Option.bind_eq_some_iff.mp h
    cases h
    simp only [ComponentSlots.read_reset _ _ _ _ hfst hcPos,
      ComponentSlots.read_reset _ _ _ _ hsnd hcPos]
  read_reset_of_mem pools indexes pools' cPos h hcPos := by
    obtain ⟨fst, hfst, h⟩ := Option.bind_eq_some_iff.mp h
    obtain ⟨snd, hsnd, h⟩ := Option.bind_eq_some_iff.mp h
    cases h
    simp only [ComponentSlots.read_reset_of_mem _ _ _ _ hfst hcPos,
      ComponentSlots.read_reset_of_mem _ _ _ _ hsnd hcPos]
    rfl
  reset_nil pools := by
    simp only [ComponentPools.resetComponentAtIndexes, ComponentSlots.reset_nil]
    rfl
  reset_append pools indexes indexes' := by
    simp only [ComponentPools.resetComponentAtIndexes, ComponentSlots.reset_append]
    cases ComponentPools.resetComponentAtIndexes pools.1 indexes with
    | none => rfl
    | some fst =>
      cases ComponentPools.resetComponentAtIndexes pools.2 indexes with
      | none =>
        -- the second fails, whatever the first does with the rest
        show (ComponentPools.resetComponentAtIndexes fst indexes').bind (fun _ => none) = none
        exact Option.bind_fun_none _
      | some snd => rfl
  defaults_delete pools := by
    simp only [ComponentPools.deleteEverything, ComponentSlots.defaults_delete]
  layouts_write pools cPos value pools' h := by
    obtain ⟨fst, hfst, h⟩ := Option.bind_eq_some_iff.mp h
    obtain ⟨snd, hsnd, h⟩ := Option.bind_eq_some_iff.mp h
    cases h
    simp only [ComponentPools.layouts, ComponentSlots.layouts_write _ _ _ _ hfst,
      ComponentSlots.layouts_write _ _ _ _ hsnd]
  defaults_write pools cPos value pools' h := by
    obtain ⟨fst, hfst, h⟩ := Option.bind_eq_some_iff.mp h
    obtain ⟨snd, hsnd, h⟩ := Option.bind_eq_some_iff.mp h
    cases h
    simp only [ComponentSlots.defaults_write _ _ _ _ hfst,
      ComponentSlots.defaults_write _ _ _ _ hsnd]
  read_write_ne pools cPos value pools' other h hne := by
    obtain ⟨fst, hfst, h⟩ := Option.bind_eq_some_iff.mp h
    obtain ⟨snd, hsnd, h⟩ := Option.bind_eq_some_iff.mp h
    cases h
    simp only [ComponentSlots.read_write_ne _ _ _ _ _ hfst hne,
      ComponentSlots.read_write_ne _ _ _ _ _ hsnd hne]
  isSome_write pools cPos value h := by
    obtain ⟨read, hread⟩ := Option.isSome_iff_exists.mp h
    obtain ⟨fst, hfst, hread⟩ := Option.bind_eq_some_iff.mp hread
    obtain ⟨snd, hsnd, -⟩ := Option.bind_eq_some_iff.mp hread
    obtain ⟨fst', hfst'⟩ := Option.isSome_iff_exists.mp
      (ComponentSlots.isSome_write pools.1 cPos value.1 (Option.isSome_iff_exists.mpr ⟨_, hfst⟩))
    obtain ⟨snd', hsnd'⟩ := Option.isSome_iff_exists.mp
      (ComponentSlots.isSome_write pools.2 cPos value.2 (Option.isSome_iff_exists.mpr ⟨_, hsnd⟩))
    simp [hfst', hsnd']

/-- The archetypes of a program. A pool holds values of its own archetype only: writing others does
nothing, which the types of the source forbid. -/
instance {Archetype : Type} [DecidableEq Archetype] {Pools Values : Archetype → Type}
    [∀ a, ComponentPools (Pools a)] [∀ a, ComponentSlots (Pools a) (Values a)] :
    ComponentSlots (Σ a, Pools a) (Σ a, Values a) where
  defaults pools :=
    let snd := ComponentSlots.defaults pools.2
    ⟨⟨pools.1, snd.zero⟩, ⟨pools.1, snd.empty⟩⟩
  read pools cPos := (ComponentSlots.read pools.2 cPos).map fun value => ⟨pools.1, value⟩
  write pools cPos value :=
    if h : value.1 = pools.1 then
      (ComponentSlots.write pools.2 cPos (h ▸ value.2)).map fun snd => ⟨pools.1, snd⟩
    else some pools
  isSome_read pools cPos := by
    rw [Option.isSome_map]
    exact ComponentSlots.isSome_read pools.2 cPos
  defaults_addChunk pools elemCount := by
    simp only [ComponentPools.addChunk, ComponentSlots.defaults_addChunk]
  read_addChunk pools elemCount cPos value h := by
    obtain ⟨snd, hsnd, rfl⟩ := Option.map_eq_some_iff.mp h
    simp only [ComponentPools.addChunk, ComponentSlots.read_addChunk _ _ _ _ hsnd, Option.map_some]
  read_addChunk_new pools elemCount chunk index hlayouts hindex := by
    simp only [ComponentPools.addChunk]
    rw [ComponentSlots.read_addChunk_new pools.2 _ _ _ hlayouts hindex, Option.map_some]
  defaults_reset pools indexes pools' h := by
    obtain ⟨snd, hsnd, rfl⟩ := Option.map_eq_some_iff.mp h
    simp only [ComponentSlots.defaults_reset _ _ _ hsnd]
  read_reset pools indexes pools' cPos h hcPos := by
    obtain ⟨snd, hsnd, rfl⟩ := Option.map_eq_some_iff.mp h
    simp only [ComponentSlots.read_reset _ _ _ _ hsnd hcPos]
  read_reset_of_mem pools indexes pools' cPos h hcPos := by
    obtain ⟨snd, hsnd, rfl⟩ := Option.map_eq_some_iff.mp h
    simp only [ComponentSlots.read_reset_of_mem _ _ _ _ hsnd hcPos, Option.map_some]
  reset_nil pools := by
    simp only [ComponentPools.resetComponentAtIndexes, ComponentSlots.reset_nil, Option.map_some]
  reset_append pools indexes indexes' := by
    simp only [ComponentPools.resetComponentAtIndexes, ComponentSlots.reset_append]
    cases ComponentPools.resetComponentAtIndexes pools.2 indexes with
    | none => rfl
    | some snd => rfl
  defaults_delete pools := by
    simp only [ComponentPools.deleteEverything, ComponentSlots.defaults_delete]
  layouts_write pools cPos value pools' h := by
    split at h
    · obtain ⟨snd, hsnd, rfl⟩ := Option.map_eq_some_iff.mp h
      exact ComponentSlots.layouts_write pools.2 cPos _ snd hsnd
    · cases h
      rfl
  defaults_write pools cPos value pools' h := by
    split at h
    · obtain ⟨snd, hsnd, rfl⟩ := Option.map_eq_some_iff.mp h
      simp only [ComponentSlots.defaults_write _ _ _ _ hsnd]
    · cases h
      rfl
  read_write_ne pools cPos value pools' other h hne := by
    split at h
    · obtain ⟨snd, hsnd, rfl⟩ := Option.map_eq_some_iff.mp h
      simp only [ComponentSlots.read_write_ne _ _ _ _ _ hsnd hne]
    · cases h
      rfl
  isSome_write pools cPos value h := by
    rw [Option.isSome_map] at h
    split
    · rw [Option.isSome_map]
      exact ComponentSlots.isSome_write _ _ _ h
    · rfl

/-- What a pool holds at one position: the values of the archetype's own components, the position of
the pointer, and the status. -/
structure Slot (V : Type) where
  others : V
  chunkPos : ChunkPos
  entityStatus : EntityStatus
deriving DecidableEq, Repr

namespace ArchetypePool

variable {R V : Type} [ComponentPools R] [slots : ComponentSlots R V]

/-- `none`: a component has no such position. -/
def slot (pool : ArchetypePool R) (cPos : ChunkPos) : Option (Slot V) := do
  let others ← ComponentSlots.read pool.others cPos
  let chunkPos ← pool.chunkPos.getComponent cPos
  let entityStatus ← pool.entityStatus.getComponent cPos
  return ⟨others, chunkPos, entityStatus⟩

/-- What is referred to at a position is changed. -/
def operate (pool : ArchetypePool R) (cPos : ChunkPos) (f : Slot V → Slot V) :
    Option (ArchetypePool R) := do
  let slot ← pool.slot cPos
  let others ← ComponentSlots.write pool.others cPos (f slot).others
  let chunkPos ← pool.chunkPos.setComponentAtIndex cPos (f slot).chunkPos
  let entityStatus ← pool.entityStatus.setComponentAtIndex cPos (f slot).entityStatus
  return { pool with others := others, chunkPos := chunkPos, entityStatus := entityStatus }

/-- A slot that was reset. -/
def blank (pool : ArchetypePool R) : Slot V :=
  ⟨(ComponentSlots.defaults pool.others).empty, Component.empty, Component.empty⟩

/-- All components have one shape, and the free positions are positions of it. Nothing is said of
how often a position is free: this is all that is needed for calls to answer. -/
structure Shaped (pool : ArchetypePool R) : Prop where
  size_pos : 0 < pool.chunkSize
  uniform : ∀ layout ∈ pool.layouts, layout = pool.shape
  freePos_mem : ∀ cPos ∈ pool.freePos, cPos ∈ Grid.cells pool.shape

/-- The chunks stay, and so does what is in their slots, but for those at `indexes`. There may be
more chunks than before. -/
structure Keeps (pool pool' : ArchetypePool R) (indexes : List ChunkPos) : Prop where
  entityName : pool'.entityName = pool.entityName
  chunkSize : pool'.chunkSize = pool.chunkSize
  shape : pool.shape <+: pool'.shape
  defaults : ComponentSlots.defaults pool'.others = ComponentSlots.defaults pool.others
  slot : ∀ cPos ∈ Grid.cells pool.shape, cPos ∉ indexes → pool'.slot cPos = pool.slot cPos

variable {pool pool' pool'' : ArchetypePool R} {used indexes : List ChunkPos}

/-- A pool whose positions all have one owner is well shaped. -/
theorem Laid.shaped (h : Laid pool used) : Shaped pool :=
  ⟨h.size_pos, h.uniform, fun _ hcPos => h.places.mem_of_mem_free hcPos⟩

/-- What counts are the layouts and the free positions. -/
theorem Shaped.congr (h : Shaped pool) (hsize : pool'.chunkSize = pool.chunkSize)
    (hlayouts : pool'.layouts = pool.layouts) (hshape : pool'.shape = pool.shape)
    (hfree : ∀ cPos ∈ pool'.freePos, cPos ∈ Grid.cells pool.shape) : Shaped pool' where
  size_pos := hsize ▸ h.size_pos
  uniform := by
    rw [hlayouts, hshape]
    exact h.uniform
  freePos_mem := by
    rw [hshape]
    exact hfree

/-- The statuses have the shape of the pool. -/
theorem Shaped.layout_entityStatus (h : Shaped pool) :
    Grid.layout pool.entityStatus = pool.shape :=
  h.uniform (Grid.layout pool.entityStatus) (by simp [layouts])

/-- A slot is what stands at one position of all component pools. -/
theorem slot_eq_some {cPos : ChunkPos} {slot : Slot V} : pool.slot cPos = some slot ↔
    ComponentSlots.read pool.others cPos = some slot.others ∧
      pool.chunkPos.getComponent cPos = some slot.chunkPos ∧
      pool.entityStatus.getComponent cPos = some slot.entityStatus := by
  constructor
  · intro h
    obtain ⟨others, hothers, h⟩ := Option.bind_eq_some_iff.mp h
    obtain ⟨chunkPos, hchunkPos, h⟩ := Option.bind_eq_some_iff.mp h
    obtain ⟨entityStatus, hstatus, h⟩ := Option.bind_eq_some_iff.mp h
    cases h
    exact ⟨hothers, hchunkPos, hstatus⟩
  · rintro ⟨hothers, hchunkPos, hstatus⟩
    simp only [ArchetypePool.slot, hothers, hchunkPos, hstatus]
    rfl

/-- Only a position of the pool has a slot. -/
theorem mem_cells_of_slot {cPos : ChunkPos} {slot : Slot V} (h : pool.slot cPos = some slot) :
    cPos ∈ Grid.cells pool.shape :=
  (ComponentPool.isSome_getComponent_iff pool.chunkPos cPos).mp
    (Option.isSome_iff_exists.mpr ⟨_, (slot_eq_some.mp h).2.1⟩)

/-- A well-shaped pool has a slot at each of its positions and nowhere else. -/
theorem Shaped.isSome_slot (h : Shaped pool) {cPos : ChunkPos} :
    (pool.slot cPos).isSome ↔ cPos ∈ Grid.cells pool.shape := by
  constructor
  · intro hsome
    obtain ⟨slot, hslot⟩ := Option.isSome_iff_exists.mp hsome
    exact mem_cells_of_slot hslot
  · intro hcPos
    have hcells : ∀ layout ∈ pool.layouts, cPos ∈ Grid.cells layout := by
      intro layout hlayout
      rw [h.uniform layout hlayout]
      exact hcPos
    obtain ⟨others, hothers⟩ := Option.isSome_iff_exists.mp
      ((ComponentSlots.isSome_read pool.others cPos).mpr fun layout hlayout =>
        hcells layout (List.mem_append_left _ hlayout))
    obtain ⟨chunkPos, hchunkPos⟩ := Option.isSome_iff_exists.mp
      ((ComponentPool.isSome_getComponent_iff pool.chunkPos cPos).mpr hcPos)
    obtain ⟨entityStatus, hstatus⟩ := Option.isSome_iff_exists.mp
      ((ComponentPool.isSome_getComponent_iff pool.entityStatus cPos).mpr
        (h.layout_entityStatus ▸ hcPos))
    have hslot : pool.slot cPos = some ⟨others, chunkPos, entityStatus⟩ :=
      slot_eq_some.mpr ⟨hothers, hchunkPos, hstatus⟩
    rw [hslot]
    rfl

/-- So a position can be read. -/
theorem Shaped.exists_slot (h : Shaped pool) {cPos : ChunkPos}
    (hcPos : cPos ∈ Grid.cells pool.shape) : ∃ slot, pool.slot cPos = some slot :=
  Option.isSome_iff_exists.mp (h.isSome_slot.mpr hcPos)

/-- Nothing was written. -/
theorem Keeps.refl (pool : ArchetypePool R) (indexes : List ChunkPos) : Keeps pool pool indexes :=
  ⟨rfl, rfl, List.prefix_refl _, rfl, fun _ _ _ => rfl⟩

/-- Two writes to the same positions leave the others. -/
theorem Keeps.trans (h : Keeps pool pool' indexes) (h' : Keeps pool' pool'' indexes) :
    Keeps pool pool'' indexes where
  entityName := h'.entityName.trans h.entityName
  chunkSize := h'.chunkSize.trans h.chunkSize
  shape := h.shape.trans h'.shape
  defaults := h'.defaults.trans h.defaults
  slot cPos hcPos hnot := by
    rw [h'.slot cPos (Grid.mem_cells_of_prefix h.shape hcPos) hnot, h.slot cPos hcPos hnot]

/-- More positions may be written than are. -/
theorem Keeps.mono (h : Keeps pool pool' indexes) {indexes' : List ChunkPos}
    (hsub : indexes ⊆ indexes') : Keeps pool pool' indexes' :=
  ⟨h.entityName, h.chunkSize, h.shape, h.defaults,
    fun cPos hcPos hnot => h.slot cPos hcPos fun hmem => hnot (hsub hmem)⟩

/-! ## A chunk more -/

/-- A new chunk is like the others in every component pool. -/
theorem Shaped.addChunk (h : Shaped pool) : Shaped pool.addChunk where
  size_pos := h.size_pos
  uniform := uniform_addChunk h.uniform
  freePos_mem cPos hcPos := by
    rw [shape_addChunk, Grid.cells_append_row]
    rcases List.mem_append.mp hcPos with hcPos | hcPos
    · exact List.mem_append_left _ (h.freePos_mem cPos hcPos)
    · rw [getChunkCount_of_uniform h.uniform] at hcPos
      exact List.mem_append_right _ hcPos

/-- A new chunk leaves all slots there are. -/
theorem Shaped.keeps_addChunk (h : Shaped pool) (indexes : List ChunkPos) :
    Keeps pool pool.addChunk indexes where
  entityName := rfl
  chunkSize := rfl
  shape := by
    rw [shape_addChunk]
    exact List.prefix_append _ _
  defaults := ComponentSlots.defaults_addChunk _ _
  slot cPos hcPos _ := by
    obtain ⟨slot, hslot⟩ := h.exists_slot hcPos
    obtain ⟨hothers, hchunkPos, hstatus⟩ := slot_eq_some.mp hslot
    rw [hslot]
    exact slot_eq_some.mpr ⟨ComponentSlots.read_addChunk _ _ _ _ hothers,
      ComponentPool.getComponent_addChunk hchunkPos _,
      ComponentPool.getComponent_addChunk hstatus _⟩

/-- The positions of the new chunk are free. -/
theorem Shaped.mem_freePos_addChunk (h : Shaped pool) {cPos : ChunkPos}
    (hcPos : cPos ∈ pool.addChunk.freePos) :
    cPos ∈ pool.freePos ∨ cPos ∉ Grid.cells pool.shape := by
  rcases List.mem_append.mp hcPos with hold | hnew
  · exact .inl hold
  · right
    rw [getChunkCount_of_uniform h.uniform] at hnew
    have hnodup := Grid.nodup_cells (pool.shape ++ [pool.chunkSize])
    rw [Grid.cells_append_row] at hnodup
    exact fun hcell => List.disjoint_of_nodup_append hnodup hcell hnew

/-- The slots of the new chunk. -/
theorem Shaped.slot_addChunk_new (h : Shaped pool) {cPos : ChunkPos}
    (hcPos : cPos ∈ Grid.cells pool.addChunk.shape) (hnew : cPos ∉ Grid.cells pool.shape) :
    pool.addChunk.slot cPos = some ⟨(ComponentSlots.defaults pool.others).zero, (0, 0), 0⟩ := by
  rw [shape_addChunk, Grid.cells_append_row] at hcPos
  obtain ⟨index, hindex, rfl⟩ := List.mem_map.mp ((List.mem_append.mp hcPos).resolve_left hnew)
  have hindex := List.mem_range.mp hindex
  have hlength : ∀ layout ∈ pool.layouts, layout.length = pool.shape.length := by
    intro layout hlayout
    rw [h.uniform layout hlayout]
  refine slot_eq_some.mpr ⟨?_, ?_, ?_⟩
  · exact ComponentSlots.read_addChunk_new _ _ _ _
      (fun layout hlayout => hlength layout (List.mem_append_left _ hlayout)) hindex
  · exact pool.chunkPos.getComponent_addChunk_new rfl hindex
  · exact pool.entityStatus.getComponent_addChunk_new
      (congrArg List.length h.layout_entityStatus) hindex

/-! ## Writing and resetting -/

/-- What writing entities does to the slots: those written to get the status and the pointer, and
keep their other components, whatever these hold. -/
structure SetsSlots (pool pool' : ArchetypePool R) (indexes : List ChunkPos)
    (status : EntityStatus) (values : List ChunkPos) : Prop where
  keeps : Keeps pool pool' indexes
  freePos : pool'.freePos = pool.freePos
  layouts : pool'.layouts = pool.layouts
  others : pool'.others = pool.others
  written : indexes.Nodup → ∀ e ∈ indexes.zip values, pool'.slot e.1 =
    (pool.slot e.1).map fun slot => { slot with chunkPos := e.2, entityStatus := status }

/-- The slots written have the status and their pointer positions, and keep their components. -/
theorem setsSlots_of_setEntities {status : EntityStatus} {values : List ChunkPos}
    (h : pool.setEntities indexes status values = some pool') :
    SetsSlots pool pool' indexes status values := by
  have hlayouts := layouts_setEntities h
  obtain ⟨entityStatus, hstatus, h⟩ := Option.bind_eq_some_iff.mp h
  obtain ⟨chunkPos, hchunkPos, h⟩ := Option.bind_eq_some_iff.mp h
  cases h
  have hshape : Grid.layout chunkPos = pool.shape := layout_setComponentsAtIndexes hchunkPos
  unfold ComponentPool.setComponentsAtIndexes at hchunkPos
  split at hchunkPos
  next hlength =>
    have hkeys : (indexes.zip values).map Prod.fst = indexes := List.map_fst_zip hlength
    refine ⟨⟨rfl, rfl, ?_, rfl, fun cPos _ hcPos => ?_⟩, rfl, hlayouts, rfl, fun hnodup e he => ?_⟩
    · exact hshape ▸ List.prefix_refl _
    · have hread : ComponentPool.getComponent chunkPos cPos = pool.chunkPos.getComponent cPos :=
        Grid.read_writeEach_of_notMem hchunkPos (by rwa [hkeys])
      simp only [slot, hread, ComponentPool.getComponent_setComponentAtIndexes hstatus hcPos]
    · have hread : ComponentPool.getComponent chunkPos e.1 = some e.2 :=
        Grid.read_writeEach hchunkPos (by rwa [hkeys]) he
      have hmem : e.1 ∈ indexes := (List.of_mem_zip he).1
      have hold : ∀ index ∈ indexes, index ∈ Grid.cells (Grid.layout pool.chunkPos) ∧
          index ∈ Grid.cells (Grid.layout pool.entityStatus) := by
        intro index hindex
        constructor
        · rw [← hkeys] at hindex
          obtain ⟨e', he', rfl⟩ := List.mem_map.mp hindex
          exact Grid.mem_cells_of_writeEach hchunkPos e' he'
        · exact Grid.mem_cells_of_writeEach hstatus (index, status)
            (List.mem_map_of_mem (f := fun index => (index, status)) hindex)
      obtain ⟨cPos₀, hcPos₀⟩ := Option.isSome_iff_exists.mp
        ((ComponentPool.isSome_getComponent_iff pool.chunkPos e.1).mpr (hold _ hmem).1)
      obtain ⟨status₀, hstatus₀⟩ := Option.isSome_iff_exists.mp
        ((ComponentPool.isSome_getComponent_iff pool.entityStatus e.1).mpr (hold _ hmem).2)
      simp only [slot, hread, ComponentPool.getComponent_setComponentAtIndexes_self hstatus hmem,
        hcPos₀, hstatus₀]
      cases ComponentSlots.read pool.others e.1 with
      | none => rfl
      | some others => rfl
  · cases hchunkPos

/-- What resetting does to the slots: all their components get the value of a reset, and a reset
that answers was of positions of the pool. -/
structure ResetsSlots (pool pool' : ArchetypePool R) (indexes : List ChunkPos) : Prop where
  keeps : Keeps pool pool' indexes
  freePos : pool'.freePos = pool.freePos
  layouts : pool'.layouts = pool.layouts
  shape : pool'.shape = pool.shape
  mem : ∀ cPos ∈ indexes, cPos ∈ Grid.cells pool.shape
  reset : ∀ cPos ∈ indexes, pool'.slot cPos = some pool.blank

/-- The slots reset hold what a reset leaves; the others are as they were. -/
theorem resetsSlots_of_reset (h : pool.resetEntityAtIndexes indexes = some pool') :
    ResetsSlots pool pool' indexes := by
  obtain ⟨others, hothers, h⟩ := Option.bind_eq_some_iff.mp h
  obtain ⟨chunkPos, hchunkPos, h⟩ := Option.bind_eq_some_iff.mp h
  obtain ⟨entityStatus, hstatus, h⟩ := Option.bind_eq_some_iff.mp h
  cases h
  have hshape : Grid.layout chunkPos = pool.shape :=
    ComponentPool.layout_setComponentAtIndexes hchunkPos
  refine ⟨⟨rfl, rfl, ?_, ComponentSlots.defaults_reset _ _ _ hothers, fun cPos _ hcPos => ?_⟩, rfl,
    ?_, hshape, fun cPos hcPos => ?_, fun cPos hcPos => ?_⟩
  · exact hshape ▸ List.prefix_refl _
  · simp only [slot, ComponentSlots.read_reset _ _ _ _ hothers hcPos,
      ComponentPool.getComponent_setComponentAtIndexes hchunkPos hcPos,
      ComponentPool.getComponent_setComponentAtIndexes hstatus hcPos]
  · simp only [ArchetypePool.layouts, hshape, ComponentPools.layouts_reset _ _ _ hothers,
      ComponentPool.layout_setComponentAtIndexes hstatus]
    rfl
  · exact Grid.mem_cells_of_writeEach hchunkPos (cPos, Component.empty)
      (List.mem_map_of_mem (f := fun index => (index, Component.empty)) hcPos)
  · exact slot_eq_some.mpr ⟨ComponentSlots.read_reset_of_mem _ _ _ _ hothers hcPos,
      ComponentPool.getComponent_setComponentAtIndexes_self hchunkPos hcPos,
      ComponentPool.getComponent_setComponentAtIndexes_self hstatus hcPos⟩

/-- Putting positions at the end of the free list and resetting do not mind each other. -/
theorem reset_insertFree (pool : ArchetypePool R) (indexes back : List ChunkPos) :
    (pool.insertFree back).resetEntityAtIndexes indexes =
      (pool.resetEntityAtIndexes indexes).map (·.insertFree back) := by
  simp only [resetEntityAtIndexes, insertFree]
  cases ComponentPools.resetComponentAtIndexes pool.others indexes with
  | none => rfl
  | some others =>
    cases pool.chunkPos.resetComponentAtIndexes indexes with
    | none => rfl
    | some chunkPos =>
      cases pool.entityStatus.resetComponentAtIndexes indexes with
      | none => rfl
      | some entityStatus => rfl

include slots in
/-- There is nothing to reset. -/
theorem reset_nil (pool : ArchetypePool R) : pool.resetEntityAtIndexes [] = some pool := by
  simp only [resetEntityAtIndexes, ComponentSlots.reset_nil]
  rfl

include slots in
/-- Resetting one range after the other. -/
theorem reset_append (pool : ArchetypePool R) (indexes indexes' : List ChunkPos) :
    pool.resetEntityAtIndexes (indexes ++ indexes') =
      (pool.resetEntityAtIndexes indexes).bind fun pool => pool.resetEntityAtIndexes indexes' := by
  simp only [resetEntityAtIndexes, ComponentSlots.reset_append,
    ComponentPool.resetComponentAtIndexes, ComponentPool.setComponentAtIndexes_append,
    Option.bind_eq_bind]
  -- where a component fails in the first range, it fails, whatever the others do in the second
  cases ComponentPools.resetComponentAtIndexes pool.others indexes with
  | none => rfl
  | some others =>
    cases pool.chunkPos.setComponentAtIndexes indexes Component.empty with
    | none => simp only [Option.bind_some, Option.bind_none, Option.bind_fun_none]
    | some chunkPos =>
      cases pool.entityStatus.setComponentAtIndexes indexes Component.empty with
      | none => simp only [Option.bind_some, Option.bind_none, Option.bind_fun_none]
      | some entityStatus => rfl

/-! ## What a system changes -/

/-- A pool in which only values differ: it has the same chunks, and the same positions are free. -/
structure Same (pool pool' : ArchetypePool R) : Prop where
  entityName : pool'.entityName = pool.entityName
  chunkSize : pool'.chunkSize = pool.chunkSize
  freePos : pool'.freePos = pool.freePos
  layouts : pool'.layouts = pool.layouts
  shape : pool'.shape = pool.shape
  defaults : ComponentSlots.defaults pool'.others = ComponentSlots.defaults pool.others

/-- Nothing was changed. -/
theorem Same.refl (pool : ArchetypePool R) : Same pool pool := ⟨rfl, rfl, rfl, rfl, rfl, rfl⟩

/-- Two steps that change values only. -/
theorem Same.trans (h : Same pool pool') (h' : Same pool' pool'') : Same pool pool'' :=
  ⟨h'.entityName.trans h.entityName, h'.chunkSize.trans h.chunkSize, h'.freePos.trans h.freePos,
    h'.layouts.trans h.layouts, h'.shape.trans h.shape, h'.defaults.trans h.defaults⟩

/-- Values play no part in the shape. -/
theorem Same.shaped (h : Same pool pool') (hpool : Shaped pool) : Shaped pool' :=
  hpool.congr h.chunkSize h.layouts h.shape fun cPos hcPos => by
    rw [h.freePos] at hcPos
    exact hpool.freePos_mem cPos hcPos

/-- Changing one slot leaves the others. -/
theorem same_of_operate {cPos : ChunkPos} {f : Slot V → Slot V}
    (h : pool.operate cPos f = some pool') :
    Same pool pool' ∧ ∀ other, other ≠ cPos → pool'.slot other = pool.slot other := by
  obtain ⟨slot, -, h⟩ := Option.bind_eq_some_iff.mp h
  obtain ⟨others, hothers, h⟩ := Option.bind_eq_some_iff.mp h
  obtain ⟨chunkPos, hchunkPos, h⟩ := Option.bind_eq_some_iff.mp h
  obtain ⟨entityStatus, hstatus, h⟩ := Option.bind_eq_some_iff.mp h
  cases h
  have hshape : Grid.layout chunkPos = pool.shape := Grid.layout_write hchunkPos
  refine ⟨⟨rfl, rfl, rfl, ?_, hshape, ComponentSlots.defaults_write _ _ _ _ hothers⟩,
    fun other hne => ?_⟩
  · simp only [ArchetypePool.layouts, hshape, ComponentSlots.layouts_write _ _ _ _ hothers,
      Grid.layout_write hstatus]
    rfl
  · have hread : ComponentPool.getComponent chunkPos other = pool.chunkPos.getComponent other :=
      Grid.read_write_ne hchunkPos hne
    have hread' : ComponentPool.getComponent entityStatus other =
        pool.entityStatus.getComponent other := Grid.read_write_ne hstatus hne
    simp only [ArchetypePool.slot, ComponentSlots.read_write_ne _ _ _ _ _ hothers hne, hread,
      hread']

/-- A system can work on every position of the pool. -/
theorem Shaped.isSome_operate (h : Shaped pool) {cPos : ChunkPos}
    (hcPos : cPos ∈ Grid.cells pool.shape) (f : Slot V → Slot V) :
    (pool.operate cPos f).isSome := by
  obtain ⟨slot, hslot⟩ := h.exists_slot hcPos
  obtain ⟨hothers, -, -⟩ := slot_eq_some.mp hslot
  obtain ⟨others, hothers⟩ := Option.isSome_iff_exists.mp
    (ComponentSlots.isSome_write pool.others cPos (f slot).others
      (Option.isSome_iff_exists.mpr ⟨_, hothers⟩))
  obtain ⟨chunkPos, hchunkPos⟩ := Option.isSome_iff_exists.mp
    (Grid.isSome_write (g := pool.chunkPos) hcPos (f slot).chunkPos)
  have hcPos' : cPos ∈ Grid.cells (Grid.layout pool.entityStatus) := h.layout_entityStatus ▸ hcPos
  obtain ⟨entityStatus, hstatus⟩ := Option.isSome_iff_exists.mp
    (Grid.isSome_write (g := pool.entityStatus) hcPos' (f slot).entityStatus)
  simp [operate, hslot, hothers, ComponentPool.setComponentAtIndex, hchunkPos, hstatus]

end ArchetypePool

end ProjectE.Ecs
