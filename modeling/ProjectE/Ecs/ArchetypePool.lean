import ProjectE.Ecs.ComponentPool
import ProjectE.Lib.FreeList

/-!
# Archetype pools

The pool of one archetype: the pools of its components, all grown together, and the list of the free
positions in them. Positions are taken from the front of that list and given back at its end.

`Laid pool used` is what holds of a pool between two operations, `used` being the positions given
out: all component pools have one shape, and the free and the used positions are the positions of
that shape, each once.
-/

namespace ProjectE.Ecs

open Verif

/-- `ArchetypePool<Name, TComps...>`. `TComps` are the components in reverse order of declaration,
so the status, which every archetype has first, comes last, and the pointer position before it. -/
structure ArchetypePool (R : Type) where
  entityName : String
  chunkSize : Nat
  others : R
  chunkPos : ComponentPool ChunkPos
  entityStatus : ComponentPool EntityStatus
  freePos : List ChunkPos

namespace ArchetypePool

variable {R : Type} [ComponentPools R]

/-- `ArchetypePool(chunkSize)`: no chunk yet, and so nothing free; the first entity makes the first
chunk. -/
def new (entityName : String) (chunkSize : Nat) (others : R) : ArchetypePool R where
  entityName := entityName
  chunkSize := chunkSize
  others := others
  chunkPos := []
  entityStatus := []
  freePos := []

/-- The shapes of `getVecComponentPools()`. -/
def layouts (pool : ArchetypePool R) : List (List Nat) :=
  ComponentPools.layouts pool.others ++ [Grid.layout pool.chunkPos, Grid.layout pool.entityStatus]

/-- `elemCount()` of a component pool. -/
def elemCount (layout : List Nat) : UInt64 :=
  layout.foldl (fun size elems => size + UInt64.ofNat elems) 0

/-- `getTotalSize`, in 64 bits: the slots of the first component pool. -/
def getTotalSize (pool : ArchetypePool R) : UInt64 := elemCount (pool.layouts.headD [])

/-- `getUsedSize`: those slots less the free ones, in 64 bits. -/
def getUsedSize (pool : ArchetypePool R) : UInt64 :=
  elemCount (pool.layouts.headD []) - UInt64.ofNat pool.freePos.length

/-- `getChunkCount`: the chunks of the first component pool. -/
def getChunkCount (pool : ArchetypePool R) : Nat := (pool.layouts.headD []).length

/-- `addChunk`: every component pool gets a chunk, and the new positions are free. -/
def addChunk (pool : ArchetypePool R) : ArchetypePool R :=
  let cCount := pool.getChunkCount
  { pool with
    others := ComponentPools.addChunk pool.others pool.chunkSize
    chunkPos := pool.chunkPos.addChunk pool.chunkSize
    entityStatus := pool.entityStatus.addChunk pool.chunkSize
    freePos := pool.freePos ++ (List.range pool.chunkSize).map fun i => (cCount, i) }

/-- `getRawEntity(cPos)`: references to every component at the position, which is all that is kept
of them here. `none`: a chunk or an element is indexed past the end. -/
def getRawEntity (pool : ArchetypePool R) (cPos : ChunkPos) : Option ChunkPos :=
  if ∀ layout ∈ pool.layouts, cPos ∈ Grid.cells layout then some cPos else none

/-- `resetEntityAtIndexes`: the components, the pointer positions and the statuses are reset. -/
def resetEntityAtIndexes (pool : ArchetypePool R) (indexes : List ChunkPos) :
    Option (ArchetypePool R) := do
  let others ← ComponentPools.resetComponentAtIndexes pool.others indexes
  let chunkPos ← pool.chunkPos.resetComponentAtIndexes indexes
  let entityStatus ← pool.entityStatus.resetComponentAtIndexes indexes
  return { pool with others := others, chunkPos := chunkPos, entityStatus := entityStatus }

/-- `deleteEverything`: all pools and the free list are emptied. -/
def deleteEverything (pool : ArchetypePool R) : ArchetypePool R :=
  { pool with
    others := ComponentPools.deleteEverything pool.others
    chunkPos := pool.chunkPos.deleteEverything
    entityStatus := pool.entityStatus.deleteEverything
    freePos := [] }

/-- `while (freePos.size() < count) addChunk()`, in at most `fuel` turns. -/
def growTo (count : Nat) : (fuel : Nat) → ArchetypePool R → Option (ArchetypePool R)
  | fuel, pool =>
    if pool.freePos.length < count then
      match fuel with
      | 0 => none
      | fuel + 1 => growTo count fuel pool.addChunk
    else some pool

/-- The components of one entity that the manager writes. -/
def setEntity (pool : ArchetypePool R) (entity : ChunkPos) (status : EntityStatus)
    (chunkPos : ChunkPos) : Option (ArchetypePool R) := do
  let entityStatus ← pool.entityStatus.setComponentAtIndex entity status
  let chunkPos ← pool.chunkPos.setComponentAtIndex entity chunkPos
  return { pool with entityStatus := entityStatus, chunkPos := chunkPos }

/-- The same of many, at each of the positions. -/
def setEntities (pool : ArchetypePool R) (indexes : List ChunkPos) (status : EntityStatus)
    (chunkPoss : List ChunkPos) : Option (ArchetypePool R) := do
  let entityStatus ← pool.entityStatus.setComponentAtIndexes indexes status
  let chunkPos ← pool.chunkPos.setComponentsAtIndexes indexes chunkPoss
  return { pool with entityStatus := entityStatus, chunkPos := chunkPos }

/-- `freePos.erase(freePos.begin(), freePos.begin() + count)`: positions are taken from the front of
the free list, the oldest first. -/
def dropFree (pool : ArchetypePool R) (count : Nat) : ArchetypePool R :=
  { pool with freePos := pool.freePos.drop count }

/-- `freePos.insert(freePos.end(), ...)`: positions that are given back go to the end, whether they
are in the list already or not. -/
def insertFree (pool : ArchetypePool R) (cPosRange : List ChunkPos) : ArchetypePool R :=
  { pool with freePos := pool.freePos ++ cPosRange }

/-! ## The invariant -/

/-- The shape its components should all have. -/
def shape (pool : ArchetypePool R) : List Nat := Grid.layout pool.chunkPos

/-- The chunks of all component pools are alike, and the free positions and `used` are all
positions, each once. -/
structure Laid (pool : ArchetypePool R) (used : List ChunkPos) : Prop where
  size_pos : 0 < pool.chunkSize
  uniform : ∀ layout ∈ pool.layouts, layout = pool.shape
  places : Partition pool.freePos used (Grid.cells pool.shape)

/-- The positions in a chunk that are not free. -/
def live (pool : ArchetypePool R) : List ChunkPos :=
  (Grid.cells pool.shape).filter fun cPos => cPos ∉ pool.freePos

variable {pool pool' : ArchetypePool R} {used : List ChunkPos}

/-- Where the pools are alike, the first one has the shape of all. -/
theorem headD_layouts_of_uniform (huniform : ∀ layout ∈ pool.layouts, layout = pool.shape) :
    pool.layouts.headD [] = pool.shape := by
  have hne : pool.layouts ≠ [] := by simp [layouts]
  obtain ⟨layout, rest, hlayouts⟩ := List.exists_cons_of_ne_nil hne
  rw [hlayouts]
  exact huniform layout (by rw [hlayouts]; exact List.mem_cons_self)

/-- Where the pools are alike, the chunks of the first are the chunks of all. -/
theorem getChunkCount_of_uniform (huniform : ∀ layout ∈ pool.layouts, layout = pool.shape) :
    pool.getChunkCount = pool.shape.length := by
  rw [getChunkCount, headD_layouts_of_uniform huniform]

/-- A new pool has no position at all. -/
theorem laid_new (entityName : String) {chunkSize : Nat} {others : R} (hsize : 0 < chunkSize)
    (hothers : ∀ layout ∈ ComponentPools.layouts others, layout = []) :
    Laid (new entityName chunkSize others) [] := by
  refine ⟨hsize, fun layout hlayout => ?_, List.Perm.refl []⟩
  simp only [layouts, new, List.mem_append, List.mem_cons, List.not_mem_nil, or_false] at hlayout
  rcases hlayout with hlayout | rfl | rfl
  · exact hothers layout hlayout
  · rfl
  · rfl

/-- The new chunk is the last one. -/
theorem shape_addChunk (pool : ArchetypePool R) :
    pool.addChunk.shape = pool.shape ++ [pool.chunkSize] :=
  ComponentPool.layout_addChunk _ _

/-- Every component pool gets the same chunk. -/
theorem layouts_addChunk (pool : ArchetypePool R) :
    pool.addChunk.layouts = pool.layouts.map (· ++ [pool.chunkSize]) := by
  simp only [layouts, addChunk, ComponentPools.layouts_addChunk, ComponentPool.layout_addChunk,
    List.map_append, List.map_cons, List.map_nil]

/-- Pools that are alike stay alike. -/
theorem uniform_addChunk (huniform : ∀ layout ∈ pool.layouts, layout = pool.shape) :
    ∀ layout ∈ pool.addChunk.layouts, layout = pool.addChunk.shape := by
  intro layout hlayout
  rw [layouts_addChunk] at hlayout
  obtain ⟨before, hbefore, rfl⟩ := List.mem_map.mp hlayout
  rw [huniform before hbefore, shape_addChunk]

/-- A chunk more: its positions are free. -/
theorem Laid.addChunk (h : Laid pool used) : Laid pool.addChunk used where
  size_pos := h.size_pos
  uniform := uniform_addChunk h.uniform
  places := by
    rw [shape_addChunk, Grid.cells_append_row, ← getChunkCount_of_uniform h.uniform]
    exact h.places.grow _

/-- A new chunk brings as many free positions as it has elements. -/
theorem length_freePos_addChunk (pool : ArchetypePool R) :
    pool.addChunk.freePos.length = pool.freePos.length + pool.chunkSize := by
  simp only [ArchetypePool.addChunk, List.length_append, List.length_map, List.length_range]

/-! ## Growing -/

/-- What growing keeps: whatever could be read before is read as before. What the new chunks hold is
for `Laid` to say. -/
structure Grows (pool pool' : ArchetypePool R) : Prop where
  entityName : pool'.entityName = pool.entityName
  chunkSize : pool'.chunkSize = pool.chunkSize
  chunkPos : ∀ cPos component, pool.chunkPos.getComponent cPos = some component →
    pool'.chunkPos.getComponent cPos = some component

omit [ComponentPools R] in
/-- No chunk was added. -/
theorem Grows.refl (pool : ArchetypePool R) : Grows pool pool := ⟨rfl, rfl, fun _ _ => id⟩

/-- One chunk was added. -/
theorem grows_addChunk (pool : ArchetypePool R) : Grows pool pool.addChunk :=
  ⟨rfl, rfl, fun _ _ h => ComponentPool.getComponent_addChunk h _⟩

omit [ComponentPools R] in
/-- Chunks added in two goes. -/
theorem Grows.trans {pool'' : ArchetypePool R} (h₁ : Grows pool pool') (h₂ : Grows pool' pool'') :
    Grows pool pool'' :=
  ⟨h₂.entityName.trans h₁.entityName, h₂.chunkSize.trans h₁.chunkSize,
    fun cPos component h => h₂.chunkPos cPos component (h₁.chunkPos cPos component h)⟩

/-- What adding a chunk keeps, growing keeps. -/
theorem growTo_rec {count : Nat} {Q : ArchetypePool R → Prop}
    (hadd : ∀ pool, Q pool → Q pool.addChunk) : ∀ {fuel : Nat} {pool grown : ArchetypePool R},
      growTo count fuel pool = some grown → Q pool → Q grown
  | fuel, pool, grown, h, hQ => by
    unfold growTo at h
    split at h
    · cases fuel with
      | zero => cases h
      | succ fuel => exact growTo_rec hadd h (hadd pool hQ)
    · cases h
      exact hQ

/-- The loop ends with as many free positions as were asked for, which is what it tests. -/
theorem le_length_of_growTo {count : Nat} : ∀ {fuel : Nat} {pool grown : ArchetypePool R},
    growTo count fuel pool = some grown → count ≤ grown.freePos.length
  | fuel, pool, grown, h => by
    unfold growTo at h
    split at h
    · cases fuel with
      | zero => cases h
      | succ fuel => exact le_length_of_growTo h
    · next hge =>
      cases h
      omega

/-- Growing ends after as many turns as there are positions asked for, since a chunk has one at
least. -/
theorem isSome_growTo {count : Nat} : ∀ {fuel : Nat} (pool : ArchetypePool R),
    0 < pool.chunkSize → count ≤ pool.freePos.length + fuel → (growTo count fuel pool).isSome
  | fuel, pool, hsize, hfuel => by
    unfold growTo
    split
    · next hlt =>
      cases fuel with
      | zero => omega
      | succ fuel =>
        have hlen := length_freePos_addChunk pool
        have hfuel' : count ≤ pool.addChunk.freePos.length + fuel := by omega
        exact isSome_growTo pool.addChunk hsize hfuel'
    · rfl

/-- Growing gives no position to anyone and takes none away. -/
theorem Laid.laid_of_growTo {count fuel : Nat} {grown : ArchetypePool R} (h : Laid pool used)
    (hgrow : pool.growTo count fuel = some grown) : Laid grown used :=
  growTo_rec (Q := fun grown => Laid grown used) (fun _ hQ => hQ.addChunk) hgrow h

/-- Growing adds chunks and does nothing else. -/
theorem grows_of_growTo {count fuel : Nat} {grown : ArchetypePool R}
    (hgrow : growTo count fuel pool = some grown) : Grows pool grown :=
  growTo_rec (Q := Grows pool) (fun grown hQ => hQ.trans (grows_addChunk grown)) hgrow
    (Grows.refl pool)

/-- Every turn of the loop brings a free position at least, so it ends after as many turns as
positions are missing. -/
theorem Laid.growTo {count fuel : Nat} (h : Laid pool used)
    (hfuel : count ≤ pool.freePos.length + fuel) : ∃ grown,
      ArchetypePool.growTo count fuel pool = some grown ∧ Laid grown used ∧ Grows pool grown ∧
        count ≤ grown.freePos.length := by
  obtain ⟨grown, hgrow⟩ := Option.isSome_iff_exists.mp (isSome_growTo pool h.size_pos hfuel)
  exact ⟨grown, hgrow, h.laid_of_growTo hgrow, grows_of_growTo hgrow, le_length_of_growTo hgrow⟩

/-- Growing to one position adds a chunk where none is free. -/
theorem Laid.growTo_one (h : Laid pool used) : ArchetypePool.growTo 1 1 pool =
    some (if pool.freePos.isEmpty then pool.addChunk else pool) := by
  have hpos := h.size_pos
  have hlen := length_freePos_addChunk pool
  cases hfree : pool.freePos with
  | nil =>
    rw [hfree, List.length_nil] at hlen
    have hge : ¬ pool.addChunk.freePos.length < 1 := by omega
    simp [ArchetypePool.growTo, hfree, hge]
  | cons cPos rest => simp [ArchetypePool.growTo, hfree]

/-! ## Taking and giving back -/

omit [ComponentPools R] in
/-- `setEntities` of one position is `setEntity`. -/
theorem setEntities_singleton (pool : ArchetypePool R) (entity : ChunkPos) (status : EntityStatus)
    (chunkPos : ChunkPos) :
    pool.setEntities [entity] status [chunkPos] = pool.setEntity entity status chunkPos := by
  simp [ArchetypePool.setEntities, setEntity, ComponentPool.setComponentsAtIndexes,
    ComponentPool.setComponentAtIndexes_singleton, ComponentPool.setComponentAtIndex,
    Grid.writeEach]

/-- What counts are the layouts and who has which position. -/
theorem Laid.congr (h : Laid pool used) {used' : List ChunkPos}
    (hsize : pool'.chunkSize = pool.chunkSize) (hlayouts : pool'.layouts = pool.layouts)
    (hshape : pool'.shape = pool.shape)
    (hplaces : Partition pool'.freePos used' (Grid.cells pool.shape)) : Laid pool' used' where
  size_pos := by
    rw [hsize]
    exact h.size_pos
  uniform := by
    rw [hlayouts, hshape]
    exact h.uniform
  places := by
    rw [hshape]
    exact hplaces

/-- No position is free twice. -/
theorem Laid.nodup_freePos (h : Laid pool used) : pool.freePos.Nodup :=
  h.places.nodup_free (Grid.nodup_cells _)

/-- No position is used twice. -/
theorem Laid.nodup_used (h : Laid pool used) : used.Nodup :=
  h.places.nodup_used (Grid.nodup_cells _)

/-- The order of the used positions does not matter. -/
theorem Laid.perm (h : Laid pool used) {used' : List ChunkPos} (hused : used.Perm used') :
    Laid pool used' :=
  ⟨h.size_pos, h.uniform, (hused.symm.append_left _).trans h.places⟩

omit [ComponentPools R] in
/-- The live positions are those of the pool that are not free. -/
theorem mem_live {cPos : ChunkPos} :
    cPos ∈ pool.live ↔ cPos ∈ Grid.cells pool.shape ∧ cPos ∉ pool.freePos := by
  simp [live]

/-- The positions given out are the live ones. -/
theorem Laid.mem_live_iff (h : Laid pool used) {cPos : ChunkPos} :
    cPos ∈ pool.live ↔ cPos ∈ used := by
  rw [mem_live, h.places.mem_used_iff (Grid.nodup_cells _)]

/-- There are as many live positions as used ones. -/
theorem Laid.length_live (h : Laid pool used) : pool.live.length = used.length := by
  have hnodup : pool.live.Nodup := (Grid.nodup_cells _).filter _
  exact ((List.perm_ext_iff_of_nodup hnodup h.nodup_used).mpr fun _ => h.mem_live_iff).length_eq

/-- A used position is one of the pool's. -/
theorem Laid.mem_cells_of_mem_used (h : Laid pool used) {cPos : ChunkPos} (hcPos : cPos ∈ used) :
    cPos ∈ Grid.cells pool.shape :=
  ((h.places.mem_used_iff (Grid.nodup_cells _)).mp hcPos).1

/-- A free position is not used. -/
theorem Laid.notMem_used (h : Laid pool used) {cPos : ChunkPos} (hcPos : cPos ∈ pool.freePos) :
    cPos ∉ used := fun hused =>
  ((h.places.mem_used_iff (Grid.nodup_cells _)).mp hused).2 hcPos

/-- A position of the pool can be referred to. -/
theorem getRawEntity_of_uniform (huniform : ∀ layout ∈ pool.layouts, layout = pool.shape)
    {cPos : ChunkPos} (hcPos : cPos ∈ Grid.cells pool.shape) :
    pool.getRawEntity cPos = some cPos := by
  rw [ArchetypePool.getRawEntity, if_pos]
  intro layout hlayout
  rw [huniform layout hlayout]
  exact hcPos

/-- `getRawEntity` answers the position it is asked for, if it answers. -/
theorem eq_of_getRawEntity {cPos entity : ChunkPos} (h : pool.getRawEntity cPos = some entity) :
    entity = cPos := by
  unfold ArchetypePool.getRawEntity at h
  split at h
  · exact (Option.some.inj h).symm
  · cases h

/-- What writing entities at `indexes` does: the chunks and the free list stay, the positions
written to hold `values`, in order, and all others what they held. -/
structure Writes (pool pool' : ArchetypePool R) (indexes values : List ChunkPos) : Prop where
  entityName : pool'.entityName = pool.entityName
  chunkSize : pool'.chunkSize = pool.chunkSize
  others : pool'.others = pool.others
  freePos : pool'.freePos = pool.freePos
  layouts : pool'.layouts = pool.layouts
  shape : pool'.shape = pool.shape
  written : ∀ e ∈ indexes.zip values, pool'.chunkPos.getComponent e.1 = some e.2
  frame : ∀ cPos, cPos ∉ indexes →
    pool'.chunkPos.getComponent cPos = pool.chunkPos.getComponent cPos

/-- Where the pools are alike, statuses and pointer positions can be written at every position. -/
theorem isSome_setEntities_of_uniform (pool : ArchetypePool R) {indexes values : List ChunkPos}
    (huniform : ∀ layout ∈ pool.layouts, layout = pool.shape)
    (hindexes : ∀ index ∈ indexes, index ∈ Grid.cells pool.shape) (status : EntityStatus)
    (hlength : indexes.length = values.length) :
    (pool.setEntities indexes status values).isSome := by
  have hstatusCells : ∀ index ∈ indexes, index ∈ Grid.cells (Grid.layout pool.entityStatus) := by
    rw [huniform (Grid.layout pool.entityStatus) (by simp [layouts])]
    exact hindexes
  obtain ⟨entityStatus, hstatus⟩ := Option.isSome_iff_exists.mp
    (pool.entityStatus.isSome_setComponentAtIndexes hstatusCells status)
  obtain ⟨chunkPos, hchunkPos⟩ := Option.isSome_iff_exists.mp
    (Grid.isSome_writeEach (g := pool.chunkPos) (l := indexes.zip values)
      fun e he => hindexes e.1 (List.of_mem_zip he).1)
  have hle : indexes.length ≤ values.length := Nat.le_of_eq hlength
  simp [ArchetypePool.setEntities, hstatus, ComponentPool.setComponentsAtIndexes, hle, hchunkPos]

omit [ComponentPools R] in
/-- Writing moves no chunk. -/
theorem layout_setComponentsAtIndexes {pool pool' : ComponentPool ChunkPos}
    {indexes values : List ChunkPos}
    (h : pool.setComponentsAtIndexes indexes values = some pool') :
    Grid.layout pool' = Grid.layout pool := by
  unfold ComponentPool.setComponentsAtIndexes at h
  split at h
  · exact Grid.layout_writeEach h
  · cases h

/-- Setting statuses and pointer positions moves no chunk. -/
theorem layouts_setEntities {indexes values : List ChunkPos} {status : EntityStatus}
    (h : pool.setEntities indexes status values = some pool') : pool'.layouts = pool.layouts := by
  obtain ⟨entityStatus, hstatus, h⟩ := Option.bind_eq_some_iff.mp h
  obtain ⟨chunkPos, hchunkPos, h⟩ := Option.bind_eq_some_iff.mp h
  cases h
  simp only [layouts, layout_setComponentsAtIndexes hchunkPos,
    ComponentPool.layout_setComponentAtIndexes hstatus]

/-- Written are the pointer positions of the entities, and of nobody else. -/
theorem writes_of_setEntities {indexes values : List ChunkPos} {status : EntityStatus}
    (hnodup : indexes.Nodup) (h : pool.setEntities indexes status values = some pool') :
    Writes pool pool' indexes values := by
  have hlayouts := layouts_setEntities h
  obtain ⟨entityStatus, hstatus, h⟩ := Option.bind_eq_some_iff.mp h
  obtain ⟨chunkPos, hchunkPos, h⟩ := Option.bind_eq_some_iff.mp h
  cases h
  have hshape : Grid.layout chunkPos = pool.shape := layout_setComponentsAtIndexes hchunkPos
  unfold ComponentPool.setComponentsAtIndexes at hchunkPos
  split at hchunkPos
  next hlength =>
    have hkeys : (indexes.zip values).map Prod.fst = indexes := List.map_fst_zip hlength
    refine ⟨rfl, rfl, rfl, rfl, hlayouts, hshape, fun e he => ?_, fun cPos hcPos => ?_⟩
    · exact Grid.read_writeEach hchunkPos (by rwa [hkeys]) he
    · exact Grid.read_writeEach_of_notMem hchunkPos (by rwa [hkeys])
  · cases hchunkPos

/-- The front of the free list is written. -/
theorem Laid.setEntities (h : Laid pool used) (count : Nat) (status : EntityStatus)
    {values : List ChunkPos} (hvalues : (pool.freePos.take count).length = values.length) :
    ∃ pool', pool.setEntities (pool.freePos.take count) status values = some pool' ∧
      Writes pool pool' (pool.freePos.take count) values := by
  have hcells : ∀ index ∈ pool.freePos.take count, index ∈ Grid.cells pool.shape :=
    fun index hi => h.places.mem_of_mem_free (List.mem_of_mem_take hi)
  obtain ⟨pool', hset⟩ := Option.isSome_iff_exists.mp
    (pool.isSome_setEntities_of_uniform h.uniform hcells status hvalues)
  exact ⟨pool', hset,
    writes_of_setEntities (h.nodup_freePos.sublist (List.take_sublist _ _)) hset⟩

/-- What was written is taken from the free list. -/
theorem Laid.dropFree (h : Laid pool used) {values : List ChunkPos} (count : Nat)
    (hw : Writes pool pool' (pool.freePos.take count) values) :
    Laid (pool'.dropFree count) (used ++ pool.freePos.take count) := by
  refine h.congr hw.chunkSize hw.layouts hw.shape ?_
  show Partition (pool'.freePos.drop count) _ _
  rw [hw.freePos]
  exact h.places.take count

/-- What giving out the positions `given` does, `values` being written to them: they join those in
use, which hold what they held. Whether the pool had to grow for it is left open. -/
structure Gives (pool pool' : ArchetypePool R) (used given values : List ChunkPos) : Prop where
  entityName : pool'.entityName = pool.entityName
  laid : Laid pool' (used ++ given)
  written : ∀ e ∈ given.zip values, pool'.chunkPos.getComponent e.1 = some e.2
  frame : ∀ cPos ∈ used, ∀ component, pool.chunkPos.getComponent cPos = some component →
    pool'.chunkPos.getComponent cPos = some component

/-- Giving out the front of the free list of a pool that has grown. -/
theorem Grows.gives {grown : ArchetypePool R} (hgrows : Grows pool grown) (hgrown : grown.Laid used)
    (count : Nat) (status : EntityStatus) {values : List ChunkPos}
    (hvalues : (grown.freePos.take count).length = values.length) :
    ∃ pool', grown.setEntities (grown.freePos.take count) status values = some pool' ∧
      pool'.others = grown.others ∧
      Gives pool (pool'.dropFree count) used (grown.freePos.take count) values := by
  obtain ⟨pool', hset, hwrites⟩ := hgrown.setEntities count status hvalues
  refine ⟨pool', hset, hwrites.others, hwrites.entityName.trans hgrows.entityName,
    hgrown.dropFree count hwrites, hwrites.written, ?_⟩
  intro cPos hused component hread
  have hnot : cPos ∉ grown.freePos.take count := by
    intro hmem
    exact hgrown.notMem_used (List.mem_of_mem_take hmem) hused
  exact (hwrites.frame cPos hnot).trans (hgrows.chunkPos cPos component hread)

/-- The other components may be written too. -/
theorem Gives.setOthers {given values : List ChunkPos} (h : Gives pool pool' used given values)
    {others : R} (hlayouts : ComponentPools.layouts others = ComponentPools.layouts pool'.others) :
    Gives pool { pool' with others := others } used given values where
  entityName := h.entityName
  laid := h.laid.congr rfl (by simp only [layouts, hlayouts]) rfl h.laid.places
  written := h.written
  frame := h.frame

/-- What resetting entities does: no chunk and no free position comes or goes, and only the
positions reset hold something else. That they are free is for the caller to say. -/
structure Resets (pool pool' : ArchetypePool R) (indexes : List ChunkPos) : Prop where
  entityName : pool'.entityName = pool.entityName
  chunkSize : pool'.chunkSize = pool.chunkSize
  freePos : pool'.freePos = pool.freePos
  layouts : pool'.layouts = pool.layouts
  shape : pool'.shape = pool.shape
  frame : ∀ cPos, cPos ∉ indexes →
    pool'.chunkPos.getComponent cPos = pool.chunkPos.getComponent cPos

/-- Positions of pools that are alike can be reset, and then hold what a reset leaves. -/
theorem resetEntityAtIndexes_of_uniform (pool : ArchetypePool R) {indexes : List ChunkPos}
    (huniform : ∀ layout ∈ pool.layouts, layout = pool.shape)
    (hindexes : ∀ index ∈ indexes, index ∈ Grid.cells pool.shape) :
    ∃ pool', pool.resetEntityAtIndexes indexes = some pool' ∧ Resets pool pool' indexes ∧
      ComponentPools.resetComponentAtIndexes pool.others indexes = some pool'.others := by
  have hcells : ∀ layout ∈ pool.layouts, ∀ index ∈ indexes, index ∈ Grid.cells layout := by
    intro layout hlayout index hindex
    rw [huniform layout hlayout]
    exact hindexes index hindex
  obtain ⟨others, hothers⟩ := Option.isSome_iff_exists.mp
    (ComponentPools.isSome_reset pool.others indexes
      fun layout hlayout => hcells layout (List.mem_append_left _ hlayout))
  obtain ⟨chunkPos, hchunkPos⟩ := Option.isSome_iff_exists.mp
    (ComponentPool.isSome_setComponentAtIndexes pool.chunkPos
      (hcells (Grid.layout pool.chunkPos) (by simp [layouts])) Component.empty)
  obtain ⟨entityStatus, hstatus⟩ := Option.isSome_iff_exists.mp
    (ComponentPool.isSome_setComponentAtIndexes pool.entityStatus
      (hcells (Grid.layout pool.entityStatus) (by simp [layouts])) Component.empty)
  have hshape := ComponentPool.layout_setComponentAtIndexes hchunkPos
  refine ⟨{ pool with others := others, chunkPos := chunkPos, entityStatus := entityStatus }, ?_,
    ⟨rfl, rfl, rfl, ?_, hshape, ?_⟩, hothers⟩
  · simp only [resetEntityAtIndexes, hothers, ComponentPool.resetComponentAtIndexes, hchunkPos,
      hstatus]
    rfl
  · simp only [layouts, ComponentPools.layouts_reset _ _ _ hothers, hshape,
      ComponentPool.layout_setComponentAtIndexes hstatus]
  · intro cPos hcPos
    exact ComponentPool.getComponent_setComponentAtIndexes hchunkPos hcPos

/-- Used positions are given back and reset. -/
theorem Laid.destroy (h : Laid pool used) {back left : List ChunkPos}
    (hused : used.Perm (back ++ left)) :
    ∃ pool', (pool.insertFree back).resetEntityAtIndexes back = some pool' ∧
      Resets (pool.insertFree back) pool' back ∧ Laid pool' left ∧
      ComponentPools.resetComponentAtIndexes pool.others back = some pool'.others := by
  have hback : ∀ index ∈ back, index ∈ Grid.cells pool.shape := by
    intro index hindex
    exact h.mem_cells_of_mem_used (hused.symm.subset (List.mem_append_left _ hindex))
  obtain ⟨pool', heq, hresets, hothers⟩ :=
    resetEntityAtIndexes_of_uniform (pool.insertFree back) h.uniform hback
  refine ⟨pool', heq, hresets, ?_, hothers⟩
  apply h.congr hresets.chunkSize hresets.layouts hresets.shape
  rw [hresets.freePos]
  exact h.places.giveBack hused

/-- Empty pools are alike. -/
theorem uniform_deleteEverything (pool : ArchetypePool R) :
    ∀ layout ∈ pool.deleteEverything.layouts, layout = pool.deleteEverything.shape := by
  intro layout hlayout
  simp only [layouts, ArchetypePool.deleteEverything, ComponentPools.layouts_delete,
    List.mem_append, List.mem_map, List.mem_cons, List.not_mem_nil, or_false] at hlayout
  rcases hlayout with ⟨_, _, rfl⟩ | rfl | rfl
  · rfl
  · rfl
  · rfl

/-- An emptied pool has no position. -/
theorem Laid.deleteEverything (h : Laid pool used) : Laid pool.deleteEverything [] where
  size_pos := h.size_pos
  uniform := uniform_deleteEverything pool
  places := List.Perm.refl []

/-! ## Sizes -/

/-- The sizes of the chunks add up to the number of positions, in 64 bits. -/
theorem elemCount_eq (layout : List Nat) :
    elemCount layout = UInt64.ofNat (Grid.cells layout).length := by
  induction layout using List.reverseRec with
  | nil => rfl
  | append_singleton layout size ih =>
    rw [elemCount, List.foldl_append, ← elemCount, ih, Grid.cells_append_row, List.length_append,
      List.length_map, List.length_range, UInt64.ofNat_add]
    rfl

/-- The used size is the number of used positions. -/
theorem Laid.getUsedSize (h : Laid pool used) : pool.getUsedSize = UInt64.ofNat used.length := by
  rw [ArchetypePool.getUsedSize, headD_layouts_of_uniform h.uniform, elemCount_eq,
    ← h.places.length, Nat.add_comm, UInt64.ofNat_add, UInt64.add_sub_cancel]

/-- A pool whose own data are consistent: its chunks are alike in all components, its free positions
are positions, each once, and the size it reports is the number of the others. -/
structure Sound (pool : ArchetypePool R) : Prop where
  uniform : ∀ layout ∈ pool.layouts, layout = pool.shape
  nodup_freePos : pool.freePos.Nodup
  freePos_mem : ∀ cPos ∈ pool.freePos, cPos ∈ Grid.cells pool.shape
  usedSize : pool.getUsedSize = UInt64.ofNat pool.live.length
  length_freePos : pool.freePos.length ≤ (Grid.cells pool.shape).length

/-- A pool laid out well answers what it should: the live positions are the used ones, and
`getUsedSize` is their number. -/
theorem Laid.sound (h : Laid pool used) : Sound pool where
  uniform := h.uniform
  nodup_freePos := h.nodup_freePos
  freePos_mem _ hcPos := h.places.mem_of_mem_free hcPos
  usedSize := by rw [h.getUsedSize, h.length_live]
  length_freePos := by
    rw [← h.places.length]
    exact Nat.le_add_right _ _

end ArchetypePool

end ProjectE.Ecs
