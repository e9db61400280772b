import ProjectE.Lib.Grid

/-!
# Component pools

A `ComponentPool` holds the values of one component, in chunks; a position is a chunk and an index
in it. A component of several fields keeps one `StandardChunkPool` for each, all of the same shape;
they are one grid of tuples here. The chunks are held by pointer, so a pool returned by value
(`getChunkPosPoolCore` and its like) is the same pool for everything that does not add or delete
chunks.

An archetype's pool sees the pools of its components as `IComponentPool`s: it adds chunks to all of
them, resets positions in all of them, and empties all of them. `ComponentPools` is that interface
for the components an archetype has besides its status and its pointer position, however many.
-/

namespace ProjectE.Ecs

open Verif

/-- `Chunks::chunkPos_t`: the index of a chunk, and the index of an element in it. -/
abbrev ChunkPos := Nat × Nat

/-- `C::entity_status_t`: a number, of which the code names a few. -/
abbrev EntityStatus := Int8

/-- The status of a slot that nobody owns. -/
def ENT_NONE : EntityStatus := 0
/-- The status an entity has if none is asked for. -/
def ENT_ALIVE : EntityStatus := 3

/-- `C::entity_pool_id_t`: it has eight bits, so the 257th pool gets the id of the first. -/
abbrev EntityPoolId := UInt8

/-- The values a component's field is given when its chunk is made (`T {0}`) and when it is reset
(`T {}`). -/
class Component (T : Type) where
  zero : T
  empty : T

instance : Component EntityStatus := ⟨0, 0⟩
instance : Component EntityPoolId := ⟨0, 0⟩
instance : Component ChunkPos := ⟨(0, 0), (0, 0)⟩

/-- The chunks of one component, as rows of a grid. -/
abbrev ComponentPool (T : Type) := Grid T

namespace ComponentPool

variable {T : Type}

/-- What `getComponentRef` refers to. -/
def getComponent (pool : ComponentPool T) (cPos : ChunkPos) : Option T := Grid.read pool cPos

/-- `setComponentAtIndex`. `none`: there is no such position. -/
def setComponentAtIndex (pool : ComponentPool T) (index : ChunkPos) (component : T) :
    Option (ComponentPool T) := Grid.write pool index component

/-- `setComponentAtIndexes`: one value for all positions. -/
def setComponentAtIndexes (pool : ComponentPool T) (indexes : List ChunkPos) (component : T) :
    Option (ComponentPool T) := Grid.writeEach pool (indexes.map fun index => (index, component))

/-- `none`: `components[i]` is read past the end. -/
def setComponentsAtIndexes (pool : ComponentPool T) (indexes : List ChunkPos)
    (components : List T) : Option (ComponentPool T) :=
  if indexes.length ≤ components.length then Grid.writeEach pool (indexes.zip components) else none

/-- `getComponentsAtIndexes`: the values in the order of the positions. -/
def getComponentsAtIndexes (pool : ComponentPool T) (indexes : List ChunkPos) : Option (List T) :=
  indexes.mapM pool.getComponent

/-- `deleteEverything`: the pool has no chunk any more. -/
def deleteEverything (_ : ComponentPool T) : ComponentPool T := []

variable [Component T]

/-- `addChunk`: every element of the new chunk is `T {0}`. -/
def addChunk (pool : ComponentPool T) (elemCount : Nat) : ComponentPool T :=
  pool ++ [List.replicate elemCount Component.zero]

/-- `resetComponentAtIndexes`: every position gets `T {}`, which need not be what a new
chunk holds. -/
def resetComponentAtIndexes (pool : ComponentPool T) (indexes : List ChunkPos) :
    Option (ComponentPool T) := pool.setComponentAtIndexes indexes Component.empty

variable {pool pool' : ComponentPool T} {indexes : List ChunkPos}

omit [Component T] in
/-- Positions that are there can be written. -/
theorem isSome_setComponentAtIndexes (pool : ComponentPool T)
    (h : ∀ index ∈ indexes, index ∈ Grid.cells (Grid.layout pool)) (component : T) :
    (pool.setComponentAtIndexes indexes component).isSome := by
  apply Grid.isSome_writeEach
  intro e he
  obtain ⟨index, hindex, rfl⟩ := List.mem_map.mp he
  exact h index hindex

omit [Component T] in
/-- One position is written as `setComponentAtIndex` writes it. -/
theorem setComponentAtIndexes_singleton (pool : ComponentPool T) (index : ChunkPos)
    (component : T) :
    pool.setComponentAtIndexes [index] component = pool.setComponentAtIndex index component := by
  simp [setComponentAtIndexes, setComponentAtIndex, Grid.writeEach]

omit [Component T] in
/-- Writing moves no chunk. -/
theorem layout_setComponentAtIndexes {component : T}
    (h : pool.setComponentAtIndexes indexes component = some pool') :
    Grid.layout pool' = Grid.layout pool := Grid.layout_writeEach h

omit [Component T] in
/-- The positions not written keep what they hold. -/
theorem getComponent_setComponentAtIndexes {component : T} {cPos : ChunkPos}
    (h : pool.setComponentAtIndexes indexes component = some pool') (hcPos : cPos ∉ indexes) :
    pool'.getComponent cPos = pool.getComponent cPos := by
  apply Grid.read_writeEach_of_notMem h
  rw [List.map_map]
  simpa [Function.comp_def] using hcPos

omit [Component T] in
/-- The positions written hold the value. -/
theorem getComponent_setComponentAtIndexes_of_mem {component : T} {cPos : ChunkPos}
    (h : pool.setComponentAtIndexes indexes component = some pool') (hnodup : indexes.Nodup)
    (hcPos : cPos ∈ indexes) : pool'.getComponent cPos = some component := by
  refine Grid.read_writeEach h ?_ (List.mem_map_of_mem hcPos)
  rw [List.map_map]
  simpa [Function.comp_def] using hnodup

/-- The new chunk is the last one. -/
theorem layout_addChunk (pool : ComponentPool T) (elemCount : Nat) :
    Grid.layout (pool.addChunk elemCount) = Grid.layout pool ++ [elemCount] := by
  rw [addChunk, Grid.layout_append_row, List.length_replicate]

/-- A new chunk leaves what the others hold. -/
theorem getComponent_addChunk {cPos : ChunkPos} {component : T}
    (h : pool.getComponent cPos = some component) (elemCount : Nat) :
    (pool.addChunk elemCount).getComponent cPos = some component := Grid.read_append_row h _

end ComponentPool

/-- The pools of an archetype's other components, as `IComponentPool`s; `layouts` are
their shapes. -/
class ComponentPools (R : Type) where
  layouts : R → List (List Nat)
  addChunk : R → Nat → R
  resetComponentAtIndexes : R → List ChunkPos → Option R
  deleteEverything : R → R
  layouts_addChunk : ∀ pools elemCount,
    layouts (addChunk pools elemCount) = (layouts pools).map (· ++ [elemCount])
  layouts_reset : ∀ pools indexes pools', resetComponentAtIndexes pools indexes = some pools' →
    layouts pools' = layouts pools
  isSome_reset : ∀ pools indexes,
    (∀ layout ∈ layouts pools, ∀ index ∈ indexes, index ∈ Grid.cells layout) →
      (resetComponentAtIndexes pools indexes).isSome
  layouts_delete : ∀ pools, layouts (deleteEverything pools) = (layouts pools).map fun _ => []

/-- One component. -/
instance {T : Type} [Component T] : ComponentPools (ComponentPool T) where
  layouts pool := [Grid.layout pool]
  addChunk := ComponentPool.addChunk
  resetComponentAtIndexes := ComponentPool.resetComponentAtIndexes
  deleteEverything := ComponentPool.deleteEverything
  layouts_addChunk pool elemCount := by
    rw [ComponentPool.layout_addChunk, List.map_cons, List.map_nil]
  layouts_reset pool indexes pool' h := by
    rw [ComponentPool.layout_setComponentAtIndexes h]
  isSome_reset pool indexes h :=
    ComponentPool.isSome_setComponentAtIndexes _ (h _ List.mem_cons_self) _
  layouts_delete pool := rfl

/-- No other component. -/
instance : ComponentPools Unit where
  layouts _ := []
  addChunk pools _ := pools
  resetComponentAtIndexes pools _ := some pools
  deleteEverything pools := pools
  layouts_addChunk _ _ := rfl
  layouts_reset _ _ _ _ := rfl
  isSome_reset _ _ _ := rfl
  layouts_delete _ := rfl

/-- One component, and others. -/
instance {R S : Type} [ComponentPools R] [ComponentPools S] : ComponentPools (R × S) where
  layouts pools := ComponentPools.layouts pools.1 ++ ComponentPools.layouts pools.2
  addChunk pools elemCount :=
    (ComponentPools.addChunk pools.1 elemCount, ComponentPools.addChunk pools.2 elemCount)
  resetComponentAtIndexes pools indexes := do
    let fst ← ComponentPools.resetComponentAtIndexes pools.1 indexes
    let snd ← ComponentPools.resetComponentAtIndexes pools.2 indexes
    return (fst, snd)
  deleteEverything pools :=
    (ComponentPools.deleteEverything pools.1, ComponentPools.deleteEverything pools.2)
  layouts_addChunk pools elemCount := by
    simp only [ComponentPools.layouts_addChunk, List.map_append]
  layouts_reset pools indexes pools' h := by
    obtain ⟨fst, hfst, h⟩ := Option.bind_eq_some_iff.mp h
    obtain ⟨snd, hsnd, h⟩ := Option.bind_eq_some_iff.mp h
    cases h
    rw [ComponentPools.layouts_reset _ _ _ hfst, ComponentPools.layouts_reset _ _ _ hsnd]
  isSome_reset pools indexes h := by
    obtain ⟨fst, hfst⟩ := Option.isSome_iff_exists.mp (ComponentPools.isSome_reset pools.1 indexes
      fun layout hl => h layout (List.mem_append_left _ hl))
    obtain ⟨snd, hsnd⟩ := Option.isSome_iff_exists.mp (ComponentPools.isSome_reset pools.2 indexes
      fun layout hl => h layout (List.mem_append_right _ hl))
    simp [hfst, hsnd]
  layouts_delete pools := by
    simp only [ComponentPools.layouts_delete, List.map_append]

/-- The archetypes of a program: which one, and the pools of its components. -/
instance {Archetype : Type} {Pools : Archetype → Type} [∀ a, ComponentPools (Pools a)] :
    ComponentPools (Σ a, Pools a) where
  layouts pools := ComponentPools.layouts pools.2
  addChunk pools elemCount := ⟨pools.1, ComponentPools.addChunk pools.2 elemCount⟩
  resetComponentAtIndexes pools indexes :=
    (ComponentPools.resetComponentAtIndexes pools.2 indexes).map fun snd => ⟨pools.1, snd⟩
  deleteEverything pools := ⟨pools.1, ComponentPools.deleteEverything pools.2⟩
  layouts_addChunk _ _ := ComponentPools.layouts_addChunk _ _
  layouts_reset pools indexes pools' h := by
    obtain ⟨snd, hsnd, rfl⟩ := Option.map_eq_some_iff.mp h
    exact ComponentPools.layouts_reset _ _ _ hsnd
  isSome_reset pools indexes h := by
    rw [Option.isSome_map]
    exact ComponentPools.isSome_reset _ _ h
  layouts_delete _ := ComponentPools.layouts_delete _

end ProjectE.Ecs
