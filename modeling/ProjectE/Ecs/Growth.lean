import ProjectE.Ecs.Owned
import ProjectE.Lib.Loop
import Mathlib.Order.Bounds.Basic

/-!
# Growth

A pool from which positions are asked for adds chunks until enough of them are free. That loop ends
if a chunk has positions, or if there were enough before (`terminates_iff`), and it adds no chunk
too many (`growTo_adds`).

The constructor of a pool admits every chunk size. From a pool whose chunks are empty nothing can be
created: `createEntities` never comes back, and `createEntity` takes the front of an empty list.
`creation_iff` says that this and a position that is free twice, because it was given back twice,
are all that keeps creation from handing out as many different positions as it was asked for; where
only live entities are destroyed, and every pool has positions in its chunks, nothing does
(`createsExactly_of_owned`).
-/

namespace ProjectE.Ecs

open Verif

namespace ArchetypePool

variable {R V : Type} [ComponentPools R] [slots : ComponentSlots R V]
  {pool pool' grown : ArchetypePool R} {count fuel : Nat} {given : List ChunkPos}

/-! ## The loop -/

/-- One turn of `while (freePos.size() < count) addChunk()`. -/
def growTurn (count : Nat) (pool : ArchetypePool R) : Turn (ArchetypePool R) (ArchetypePool R) :=
  if pool.freePos.length < count then .next pool.addChunk else .done pool

/-- The fuel counts the turns of a plain loop. -/
theorem growTo_eq_loop (count : Nat) : ∀ (fuel : Nat) (pool : ArchetypePool R),
    growTo count fuel pool = loop (growTurn count) (fuel + 1) pool
  | fuel, pool => by
    unfold growTo
    by_cases hless : pool.freePos.length < count
    · have hturn : growTurn count pool = .next pool.addChunk := if_pos hless
      rw [if_pos hless, loop_next hturn]
      cases fuel with
      | zero => rfl
      | succ fuel => exact growTo_eq_loop count fuel pool.addChunk
    · have hturn : growTurn count pool = .done pool := if_neg hless
      rw [if_neg hless, loop_done hturn]

/-- A run that used up no fuel is a run that ends. -/
theorem terminates_of_growTo (h : pool.growTo count fuel = some grown) :
    Terminates (growTurn count) pool :=
  ⟨grown, fuel + 1, (growTo_eq_loop count fuel pool).symm.trans h⟩

/-- **The growth loop ends** if a chunk has positions, or there are enough of them. -/
theorem terminates_iff :
    Terminates (growTurn count) pool ↔ 0 < pool.chunkSize ∨ count ≤ pool.freePos.length := by
  constructor
  · intro hends
    by_contra hnot
    obtain ⟨hsize, hless⟩ := not_or.mp hnot
    refine not_terminates_of_steps (fun grown hsteps => ?_) hends
    -- An empty chunk brings the loop nowhere.
    have hstuck : grown.chunkSize = 0 ∧ grown.freePos.length < count := by
      refine hsteps.rule (I := fun grown => grown.chunkSize = 0 ∧ grown.freePos.length < count) ?_
        ⟨Nat.eq_zero_of_not_pos hsize, Nat.lt_of_not_le hless⟩
      rintro before after ⟨hzero, hshort⟩ hturn
      cases (if_pos hshort : growTurn count before = _).symm.trans hturn
      refine ⟨hzero, ?_⟩
      rw [length_freePos_addChunk, hzero]
      exact hshort
    exact ⟨grown.addChunk, if_pos hstuck.2⟩
  · rintro (hsize | hle)
    · obtain ⟨grown, hgrow⟩ := Option.isSome_iff_exists.mp
        (isSome_growTo pool hsize (Nat.le_add_left count _))
      exact terminates_of_growTo hgrow
    · exact ⟨pool, .of_done (if_neg (Nat.not_lt.mpr hle))⟩

/-! ## The chunks added -/

/-- One chunk more. -/
theorem getChunkCount_addChunk (pool : ArchetypePool R) :
    pool.addChunk.getChunkCount = pool.getChunkCount + 1 := by
  have hne : pool.layouts ≠ [] := by simp [layouts]
  obtain ⟨layout, rest, hlayouts⟩ := List.exists_cons_of_ne_nil hne
  simp only [getChunkCount, layouts_addChunk, hlayouts, List.map_cons, List.headD_cons,
    List.length_append, List.length_singleton]

/-- The chunks are counted in the layouts. -/
theorem getChunkCount_congr (h : pool'.layouts = pool.layouts) :
    pool'.getChunkCount = pool.getChunkCount := by
  rw [getChunkCount, getChunkCount, h]

/-- So many chunks are added, and these are their positions: they go behind the free positions there
were, each once, and lie in the chunks that are new. -/
structure Adds (pool grown : ArchetypePool R) (chunks : Nat) (added : List ChunkPos) : Prop where
  getChunkCount : grown.getChunkCount = pool.getChunkCount + chunks
  freePos : grown.freePos = pool.freePos ++ added
  nodup : added.Nodup
  mem : ∀ cPos ∈ added, pool.getChunkCount ≤ cPos.1 ∧ cPos.1 < grown.getChunkCount ∧
    cPos.2 < pool.chunkSize

/-- Nothing was added. -/
theorem Adds.refl (pool : ArchetypePool R) : Adds pool pool 0 [] :=
  ⟨rfl, (List.append_nil _).symm, List.nodup_nil, fun _ h => absurd h List.not_mem_nil⟩

/-- A chunk before the others. -/
theorem Adds.addChunk {chunks : Nat} {added : List ChunkPos}
    (h : Adds pool.addChunk grown chunks added) :
    Adds pool grown (chunks + 1)
      ((List.range pool.chunkSize).map (fun i => (pool.getChunkCount, i)) ++ added) := by
  have hcount : grown.getChunkCount = pool.getChunkCount + (chunks + 1) := by
    rw [h.getChunkCount, getChunkCount_addChunk]
    omega
  refine ⟨hcount, ?_, ?_, fun cPos hcPos => ?_⟩
  · rw [h.freePos, ← List.append_assoc]
    rfl
  · refine List.Nodup.append (List.nodup_range.map fun a b heq => (Prod.mk.inj heq).2) h.nodup ?_
    intro cPos hfirst hadded
    obtain ⟨i, -, rfl⟩ := List.mem_map.mp hfirst
    have hnew := (h.mem _ hadded).1
    rw [getChunkCount_addChunk] at hnew
    exact absurd hnew (Nat.not_succ_le_self _)
  · rcases List.mem_append.mp hcPos with hfirst | hadded
    · obtain ⟨i, hi, rfl⟩ := List.mem_map.mp hfirst
      exact ⟨Nat.le_refl _, by show pool.getChunkCount < _; omega, List.mem_range.mp hi⟩
    · obtain ⟨hlow, hhigh, hindex⟩ := h.mem cPos hadded
      rw [getChunkCount_addChunk] at hlow
      exact ⟨by omega, hhigh, hindex⟩

/-- The loop adds chunks, and as few as can be. -/
theorem growTo_adds : ∀ {fuel : Nat} {pool grown : ArchetypePool R},
    pool.growTo count fuel = some grown → ∃ chunks added, Adds pool grown chunks added ∧
      IsLeast {k | count ≤ pool.freePos.length + k * pool.chunkSize} chunks
  | fuel, pool, grown, h => by
    unfold growTo at h
    split at h
    next hless =>
      cases fuel with
      | zero => cases h
      | succ fuel =>
        obtain ⟨chunks, added, hadds, henough, hleast⟩ := growTo_adds h
        refine ⟨chunks + 1, _, hadds.addChunk, ?_, fun k hk => ?_⟩
        · have hlength := length_freePos_addChunk pool
          have hsize : pool.addChunk.chunkSize = pool.chunkSize := rfl
          show count ≤ pool.freePos.length + (chunks + 1) * pool.chunkSize
          have henough : count ≤ pool.addChunk.freePos.length + chunks * pool.chunkSize := henough
          rw [Nat.succ_mul]
          omega
        · cases k with
          | zero =>
            have hk : count ≤ pool.freePos.length + 0 * pool.chunkSize := hk
            omega
          | succ k =>
            have hk : count ≤ pool.freePos.length + (k + 1) * pool.chunkSize := hk
            have hrest : count ≤ pool.addChunk.freePos.length + k * pool.chunkSize := by
              rw [Nat.succ_mul] at hk
              rw [length_freePos_addChunk]
              omega
            exact Nat.succ_le_succ (hleast hrest)
    next henough =>
      cases h
      refine ⟨0, [], Adds.refl pool, ?_, fun k _ => Nat.zero_le k⟩
      show count ≤ pool.freePos.length + 0 * pool.chunkSize
      omega

/-! ## What is handed out -/

/-- All components have one shape, its chunks are of the pool's size, and the free positions are
positions of it: `Shaped`, for any chunk size. -/
structure Grounded (pool : ArchetypePool R) : Prop where
  uniform : ∀ layout ∈ pool.layouts, layout = pool.shape
  chunks : ∀ size ∈ pool.shape, size = pool.chunkSize
  freePos_mem : ∀ cPos ∈ pool.freePos, cPos ∈ Grid.cells pool.shape

/-- `count` positions are handed out: all different, each of them free before or in a chunk that was
added, and of the chunks added none is one too many. -/
structure Supplies (pool pool' : ArchetypePool R) (count : Nat) (given : List ChunkPos) : Prop where
  length : given.length = count
  nodup : given.Nodup
  origin : ∀ cPos ∈ given, cPos ∈ pool.freePos ∨
    (pool.getChunkCount ≤ cPos.1 ∧ cPos.1 < pool'.getChunkCount ∧ cPos.2 < pool.chunkSize)
  least : ∃ chunks, pool'.getChunkCount = pool.getChunkCount + chunks ∧
    IsLeast {k | count ≤ pool.freePos.length + k * pool.chunkSize} chunks

/-- Chunks with elements are all that a well-shaped pool asks for on top. -/
theorem Grounded.shaped (h : Grounded pool) (hsize : 0 < pool.chunkSize) : Shaped pool :=
  ⟨hsize, h.uniform, h.freePos_mem⟩

/-- A free position is in a chunk that the pool has. -/
theorem Grounded.fst_lt (h : Grounded pool) {cPos : ChunkPos} (hcPos : cPos ∈ pool.freePos) :
    cPos.1 < pool.getChunkCount := by
  obtain ⟨size, hsize, -⟩ := Grid.mem_cells.mp (h.freePos_mem cPos hcPos)
  rw [getChunkCount_of_uniform h.uniform]
  exact (List.getElem?_eq_some_iff.mp hsize).1

/-- The front of the free list of a pool that has grown is as it should be if no position is there
twice. -/
theorem Grounded.supplies_iff (h : Grounded pool) (hgrow : pool.growTo count fuel = some grown)
    (hcount : pool'.getChunkCount = grown.getChunkCount) :
    Supplies pool pool' count (grown.freePos.take count) ↔ (pool.freePos.take count).Nodup := by
  obtain ⟨chunks, added, hadds, hleast⟩ := growTo_adds hgrow
  have htake : grown.freePos.take count =
      pool.freePos.take count ++ added.take (count - pool.freePos.length) := by
    rw [hadds.freePos, List.take_append]
  constructor
  · intro hsupplies
    have hnodup := hsupplies.nodup
    rw [htake] at hnodup
    exact hnodup.of_append_left
  · intro hnodup
    refine ⟨List.length_take_of_le (le_length_of_growTo hgrow), ?_, fun cPos hcPos => ?_, chunks,
      hcount.trans hadds.getChunkCount, hleast⟩
    · rw [htake]
      refine hnodup.append (hadds.nodup.sublist (List.take_sublist _ _)) ?_
      intro cPos hold hnew
      have hlow := (hadds.mem cPos (List.mem_of_mem_take hnew)).1
      have hlt := h.fst_lt (List.mem_of_mem_take hold)
      omega
    · rw [htake] at hcPos
      rcases List.mem_append.mp hcPos with hold | hnew
      · exact .inl (List.mem_of_mem_take hold)
      · rw [hcount]
        exact .inr (hadds.mem cPos (List.mem_of_mem_take hnew))

/-- Nothing was asked for. -/
theorem Supplies.zero (pool : ArchetypePool R) : Supplies pool pool 0 [] :=
  ⟨rfl, List.nodup_nil, fun _ h => absurd h List.not_mem_nil, 0, rfl, Nat.zero_le _,
    fun _ _ => Nat.zero_le _⟩

/-! ## Pools of any chunk size -/

/-- What counts are the layouts and the free positions. -/
theorem Grounded.congr (h : Grounded pool) (hsize : pool'.chunkSize = pool.chunkSize)
    (hlayouts : pool'.layouts = pool.layouts) (hshape : pool'.shape = pool.shape)
    (hfree : ∀ cPos ∈ pool'.freePos, cPos ∈ Grid.cells pool.shape) : Grounded pool' where
  uniform := by
    rw [hlayouts, hshape]
    exact h.uniform
  chunks := by
    rw [hshape, hsize]
    exact h.chunks
  freePos_mem := by
    rw [hshape]
    exact hfree

/-- A pool without chunks has no free position. -/
theorem grounded_new (entityName : String) (chunkSize : Nat) {others : R}
    (hothers : ∀ layout ∈ ComponentPools.layouts others, layout = []) :
    Grounded (new entityName chunkSize others) := by
  refine ⟨fun layout hlayout => ?_, fun _ h => absurd h List.not_mem_nil,
    fun _ h => absurd h List.not_mem_nil⟩
  rcases List.mem_append.mp hlayout with hlayout | hlayout
  · exact hothers layout hlayout
  · rcases List.mem_pair.mp hlayout with rfl | rfl
    · rfl
    · rfl

/-- A pool of empty chunks has no position. -/
theorem Grounded.freePos_eq_nil (h : Grounded pool) (hsize : pool.chunkSize = 0) :
    pool.freePos = [] := by
  refine List.eq_nil_iff_forall_not_mem.mpr fun cPos hcPos => ?_
  obtain ⟨size, hrow, hlt⟩ := Grid.mem_cells.mp (h.freePos_mem cPos hcPos)
  rw [h.chunks size (List.mem_of_getElem? hrow), hsize] at hlt
  exact Nat.not_lt_zero _ hlt

/-- What a pool of empty chunks has enough positions for. -/
theorem Grounded.count_eq_zero (h : Grounded pool) (hsize : ¬0 < pool.chunkSize)
    (henough : 0 < pool.chunkSize ∨ count ≤ pool.freePos.length) : count = 0 := by
  have hle := henough.resolve_left hsize
  rw [h.freePos_eq_nil (Nat.eq_zero_of_not_pos hsize), List.length_nil] at hle
  exact Nat.le_zero.mp hle

/-- The positions of a new chunk are free, and they are the pool's. -/
theorem Grounded.addChunk (h : Grounded pool) : Grounded pool.addChunk where
  uniform := uniform_addChunk h.uniform
  chunks size hsize := by
    rw [shape_addChunk] at hsize
    rcases List.mem_append.mp hsize with hold | hnew
    · exact h.chunks size hold
    · exact List.mem_singleton.mp hnew
  freePos_mem cPos hcPos := by
    rw [shape_addChunk, Grid.cells_append_row]
    rcases List.mem_append.mp hcPos with hold | hnew
    · exact List.mem_append_left _ (h.freePos_mem cPos hold)
    · rw [getChunkCount_of_uniform h.uniform] at hnew
      exact List.mem_append_right _ hnew

/-- Writing changes neither chunks nor free positions. -/
theorem Grounded.setEntities (h : Grounded pool) {indexes values : List ChunkPos}
    {status : EntityStatus} (hset : pool.setEntities indexes status values = some pool') :
    Grounded pool' := by
  obtain ⟨-, hsize, -, hfree⟩ := rest_setEntities hset
  refine h.congr hsize (layouts_setEntities hset) (shape_setEntities hset) ?_
  rw [hfree]
  exact h.freePos_mem

/-- What is left of the free positions are still the pool's. -/
theorem Grounded.dropFree (h : Grounded pool) (count : Nat) : Grounded (pool.dropFree count) :=
  h.congr rfl rfl rfl fun cPos hcPos => h.freePos_mem cPos (List.mem_of_mem_drop hcPos)

include slots in
/-- Positions that could be reset are the pool's. -/
theorem Grounded.giveBack (h : Grounded pool) {back : List ChunkPos}
    (hreset : (pool.insertFree back).resetEntityAtIndexes back = some pool') : Grounded pool' := by
  have hslots := resetsSlots_of_reset hreset
  refine h.congr hslots.keeps.chunkSize hslots.layouts hslots.shape ?_
  rw [hslots.freePos]
  intro cPos hcPos
  rcases List.mem_append.mp hcPos with hcPos | hcPos
  · exact h.freePos_mem cPos hcPos
  · exact hslots.mem cPos hcPos

/-- An emptied pool has no free position. -/
theorem grounded_deleteEverything (pool : ArchetypePool R) : Grounded pool.deleteEverything where
  uniform := uniform_deleteEverything pool
  chunks _ h := absurd h List.not_mem_nil
  freePos_mem _ h := absurd h List.not_mem_nil

/-- A system that runs changes neither chunks nor free positions. -/
theorem Same.grounded (h : Same pool pool') (hpool : Grounded pool) : Grounded pool' :=
  hpool.congr h.chunkSize h.layouts h.shape fun cPos hcPos => by
    rw [h.freePos] at hcPos
    exact hpool.freePos_mem cPos hcPos

end ArchetypePool

section Laws

variable {R V : Type} [ComponentPools R] [slots : ComponentSlots R V]

include slots in
/-- Everything that is done to a single pool keeps it grounded. -/
theorem poolLaw_grounded : PoolLaw (ArchetypePool.Grounded (R := R)) where
  addChunk _ h := h.addChunk
  setEntities _ _ _ _ _ h hset := h.setEntities hset
  dropFree _ count h := h.dropFree count
  giveBack _ _ _ h hreset := h.giveBack hreset
  deleteEverything pool _ := ArchetypePool.grounded_deleteEverything pool

end Laws

namespace EntityManager

variable {R V : Type} [ComponentPools R] [slots : ComponentSlots R V]
  {m m' : EntityManager R} {entityName : String} {status : EntityStatus} {count index : Nat}
  {pool grown set : ArchetypePool R} {ptrGrown ptrSet : EntityPtrPool}
  {ids : ComponentPool EntityPoolId}

/-! ## Creation -/

/-- The positions of the entities are handed out by their pool, and the handles they hold by the
pool of pointers. -/
structure HandsOut (m m' : EntityManager R) (pool : ArchetypePool R) (index count : Nat)
    (entities : List EntityRef) : Prop where
  positions : ∃ pool', m'.entityPools[index]? = some pool' ∧
    pool.Supplies pool' count (entities.map (·.cPos))
  handles : ∃ handles, entities.mapM m'.getChunkPosElem = some handles ∧
    m.entityPtrPool.Supplies m'.entityPtrPool count handles

/-- `createEntities` comes back, and hands out what it was asked for. Both loops that grow a pool
have to end for that, the one of the archetype and the one of the pointers. -/
structure CreatesExactly (m : EntityManager R) (entityName : String) (status : EntityStatus)
    (count : Nat) (pool : ArchetypePool R) (index : Nat) : Prop where
  terminates : Terminates (ArchetypePool.growTurn count) pool
  ptrTerminates : Terminates (ArchetypePool.growTurn count) m.entityPtrPool
  creates : ∃ m' entities, m.createEntities entityName count status = some (m', entities) ∧
    HandsOut m m' pool index count entities

/-- `createEntity` comes back, and hands out one position and one handle. -/
def CreatesExactlyOne (m : EntityManager R) (entityName : String) (status : EntityStatus)
    (pool : ArchetypePool R) (index : Nat) : Prop :=
  ∃ m' entity, m.createEntity entityName status = some (m', entity) ∧
    HandsOut m m' pool index 1 [entity]

/-- The entities created hold the handles that were taken. -/
theorem Creates.handles (h : Creates m count status index pool grown set ptrGrown ptrSet ids)
    (hindex : index < m.entityPools.length) (hnodup : (grown.freePos.take count).Nodup) :
    ((grown.freePos.take count).map fun cPos => (⟨index, cPos⟩ : EntityRef)).mapM
      (afterCreation m count index set ptrSet ids).getChunkPosElem =
        some (ptrGrown.freePos.take count) := by
  have hwrites := ArchetypePool.writes_of_setEntities hnodup h.write
  have hlength : (grown.freePos.take count).length = (ptrGrown.freePos.take count).length := by
    rw [List.length_take_of_le (ArchetypePool.le_length_of_growTo h.grow),
      List.length_take_of_le (ArchetypePool.le_length_of_growTo h.ptrGrow)]
  refine Grid.mapM_of_forall₂ (List.forall₂_map_left_iff.mpr ?_)
  refine List.forall₂_iff_zip.mpr ⟨hlength, fun {cPos handle} hmem => ?_⟩
  have hpool : (m.entityPools.set index (set.dropFree count))[index]? = some (set.dropFree count) :=
    List.getElem?_set_self hindex
  show (m.entityPools.set index (set.dropFree count))[index]?.bind _ = _
  rw [hpool]
  exact hwrites.written (cPos, handle) hmem

/-- A creation adds the chunks that growing adds, in the entities' pool and in that of
the handles. -/
theorem Creates.getChunkCount
    (h : Creates m count status index pool grown set ptrGrown ptrSet ids) :
    (set.dropFree count).getChunkCount = grown.getChunkCount ∧
      (afterCreation m count index set ptrSet ids).entityPtrPool.getChunkCount =
        ptrGrown.getChunkCount := by
  have hcount : set.getChunkCount = grown.getChunkCount :=
    ArchetypePool.getChunkCount_congr (ArchetypePool.layouts_setEntities h.write)
  have hids := layouts_setOthers (ComponentPool.layout_setComponentAtIndexes h.idWrite)
  exact ⟨hcount, ArchetypePool.getChunkCount_congr
    (hids.trans (ArchetypePool.layouts_setEntities h.ptrWrite))⟩

/-- What a creation hands out are the front positions of both free lists after growing, and they are
different exactly if these are. -/
theorem Creates.handsOut_iff (h : Creates m count status index pool grown set ptrGrown ptrSet ids)
    (hindex : index < m.entityPools.length) (hpool : pool.Grounded)
    (hptr : m.entityPtrPool.Grounded) :
    HandsOut m (afterCreation m count index set ptrSet ids) pool index count
        ((grown.freePos.take count).map fun cPos => ⟨index, cPos⟩) ↔
      (pool.freePos.take count).Nodup ∧ (m.entityPtrPool.freePos.take count).Nodup := by
  obtain ⟨hcount, hptrCount⟩ := h.getChunkCount
  have hget : (afterCreation m count index set ptrSet ids).entityPools[index]? =
      some (set.dropFree count) := List.getElem?_set_self hindex
  have hmap : ((grown.freePos.take count).map fun cPos => (⟨index, cPos⟩ : EntityRef)).map
      (·.cPos) = grown.freePos.take count := by
    rw [List.map_map]
    exact List.map_id _
  have hsupplies := hpool.supplies_iff h.grow hcount
  have hptrSupplies := hptr.supplies_iff h.ptrGrow hptrCount
  constructor
  · rintro ⟨⟨pool', hpool', hpositions⟩, handles, hread, hhandles⟩
    cases hget.symm.trans hpool'
    rw [hmap] at hpositions
    rw [h.handles hindex hpositions.nodup] at hread
    cases hread
    exact ⟨hsupplies.mp hpositions, hptrSupplies.mp hhandles⟩
  · rintro ⟨hnodup, hptrNodup⟩
    have hpositions := hsupplies.mpr hnodup
    refine ⟨⟨_, hget, ?_⟩, _, h.handles hindex hpositions.nodup, hptrSupplies.mpr hptrNodup⟩
    rw [hmap]
    exact hpositions

/-! ## Managers -/

/-- All pools are grounded, and handles can be made: the chunk size of the pool of the pointers is
not zero, while that of an archetype may be. -/
structure Grounded (m : EntityManager R) : Prop where
  pools : ∀ pool ∈ m.entityPools, pool.Grounded
  ptrPool : m.entityPtrPool.Grounded
  ptrShaped : m.entityPtrPool.Shaped

/-- The pool that is found under a name is one of the manager's. -/
theorem Grounded.found (h : m.Grounded) (hfound : m.getEntityPool entityName = some (pool, index)) :
    index < m.entityPools.length ∧ pool.Grounded := by
  have hget := (getEntityPool_some hfound).1
  exact ⟨(List.getElem?_eq_some_iff.mp hget).1, h.pools pool (List.mem_of_getElem? hget)⟩

/-- No entity is asked for, and none is created. -/
theorem createsExactly_zero (hfound : m.getEntityPool entityName = some (pool, index))
    (status : EntityStatus) : CreatesExactly m entityName status 0 pool index := by
  have hends : ∀ {R : Type} [ComponentPools R] (pool : ArchetypePool R),
      Terminates (ArchetypePool.growTurn 0) pool :=
    fun pool => ArchetypePool.terminates_iff.mpr (.inr (Nat.zero_le _))
  exact ⟨hends pool, hends m.entityPtrPool, m, [], createEntities_zero hfound status,
    ⟨pool, (getEntityPool_some hfound).1, .zero pool⟩, [], rfl, .zero m.entityPtrPool⟩

/-- With chunks that have elements a creation comes to an end; it creates what was asked exactly if
no position stands twice in the part of a free list it takes. -/
theorem Grounded.createsExactly_iff_of_pos (h : m.Grounded)
    (hfound : m.getEntityPool entityName = some (pool, index)) (hsize : 0 < pool.chunkSize)
    (status : EntityStatus) (count : Nat) :
    CreatesExactly m entityName status count pool index ↔
      (pool.freePos.take count).Nodup ∧ (m.entityPtrPool.freePos.take count).Nodup := by
  obtain ⟨hindex, hpool⟩ := h.found hfound
  obtain ⟨grown, set, ptrGrown, ptrSet, ids, hc⟩ :=
    creates_of_shaped m (hpool.shaped hsize) h.ptrShaped index count status
  have hhands := hc.handsOut_iff hindex hpool h.ptrPool
  constructor
  · rintro ⟨-, -, m', entities, hcreate, hout⟩
    cases (hc.createEntities hfound).symm.trans hcreate
    exact hhands.mp hout
  · intro hnodup
    exact ⟨ArchetypePool.terminates_of_growTo hc.grow,
      ArchetypePool.terminates_of_growTo hc.ptrGrow, _, _, hc.createEntities hfound,
      hhands.mpr hnodup⟩

/-- **Creation hands out what it is asked for** if there are chunks to add, or positions enough, and
no position is free twice among those that are taken. -/
theorem Grounded.createsExactly_iff (h : m.Grounded)
    (hfound : m.getEntityPool entityName = some (pool, index)) (status : EntityStatus)
    (count : Nat) :
    CreatesExactly m entityName status count pool index ↔
      (0 < pool.chunkSize ∨ count ≤ pool.freePos.length) ∧
        (pool.freePos.take count).Nodup ∧ (m.entityPtrPool.freePos.take count).Nodup := by
  by_cases hsize : 0 < pool.chunkSize
  · rw [h.createsExactly_iff_of_pos hfound hsize]
    exact (and_iff_right (.inl hsize)).symm
  · have hpool := (h.found hfound).2
    constructor
    · intro hexact
      cases hpool.count_eq_zero hsize (ArchetypePool.terminates_iff.mp hexact.terminates)
      exact ⟨.inr (Nat.zero_le _), List.nodup_nil, List.nodup_nil⟩
    · rintro ⟨henough, -⟩
      cases hpool.count_eq_zero hsize henough
      exact createsExactly_zero hfound status

/-- From a pool of empty chunks no entity is taken. -/
theorem Grounded.createEntity_eq_none (h : m.Grounded)
    (hfound : m.getEntityPool entityName = some (pool, index)) (hzero : pool.chunkSize = 0)
    (status : EntityStatus) : m.createEntity entityName status = none := by
  have hfront : pool.front.freePos = [] := by
    have hfree := (h.found hfound).2.freePos_eq_nil hzero
    simp [ArchetypePool.front, ArchetypePool.addChunk, hfree, hzero]
  rw [createEntity_eq, hfound]
  simp only [Option.bind_eq_bind, Option.bind_some, hfront, List.head?_nil, Option.bind_none]

/-- One element stands once. -/
theorem nodup_take_one {α : Type} : ∀ l : List α, (l.take 1).Nodup
  | [] => List.nodup_nil
  | a :: _ => List.nodup_singleton a

/-- One entity is created if chunks have elements, or if a position is free already. -/
theorem Grounded.createsExactlyOne_iff (h : m.Grounded)
    (hfound : m.getEntityPool entityName = some (pool, index)) (status : EntityStatus) :
    CreatesExactlyOne m entityName status pool index ↔
      0 < pool.chunkSize ∨ 1 ≤ pool.freePos.length := by
  have hpool := (h.found hfound).2
  by_cases hsize : 0 < pool.chunkSize
  · refine iff_of_true ?_ (.inl hsize)
    obtain ⟨m', entity, hone, hbatch⟩ :=
      createEntity_eq_batch hfound (hpool.shaped hsize) h.ptrShaped status
    have hexact := (h.createsExactly_iff_of_pos hfound hsize status 1).mpr
      ⟨nodup_take_one _, nodup_take_one _⟩
    obtain ⟨m'', entities, hcreate, hout⟩ := hexact.creates
    cases hbatch.symm.trans hcreate
    exact ⟨m', entity, hone, hout⟩
  · have hzero := Nat.eq_zero_of_not_pos hsize
    refine iff_of_false ?_ ?_
    · rintro ⟨m', entity, hone, -⟩
      cases (h.createEntity_eq_none hfound hzero status).symm.trans hone
    · rw [hpool.freePos_eq_nil hzero]
      rintro (hpos | hpos)
      · exact hsize hpos
      · exact Nat.not_lt_zero 0 hpos

/-! ### Runs -/

/-- A single creation is a batch of one. -/
theorem Grounded.createEntities_of_createEntity (h : m.Grounded) {entity : EntityRef}
    (hcreate : m.createEntity entityName status = some (m', entity)) :
    m.createEntities entityName 1 status = some (m', [entity]) := by
  obtain ⟨⟨pool, index⟩, hfound, -⟩ := Option.bind_eq_some_iff.mp hcreate
  by_cases hsize : 0 < pool.chunkSize
  · obtain ⟨m'', entity', hone, hbatch⟩ :=
      createEntity_eq_batch hfound ((h.found hfound).2.shaped hsize) h.ptrShaped status
    cases hone.symm.trans hcreate
    exact hbatch
  · have hnone := h.createEntity_eq_none hfound (Nat.eq_zero_of_not_pos hsize) status
    cases hnone.symm.trans hcreate

/-- Where entities are created, their pool has positions, or none was asked for. -/
theorem Grounded.createEntities_cases (h : m.Grounded) {entities : List EntityRef}
    (hcreate : m.createEntities entityName count status = some (m', entities)) :
    m' = m ∨ ∃ pool index grown set ptrGrown ptrSet ids, pool.Grounded ∧
      Creates m count status index pool grown set ptrGrown ptrSet ids ∧
      m' = afterCreation m count index set ptrSet ids := by
  obtain ⟨⟨pool, index⟩, hfound, hrest⟩ := Option.bind_eq_some_iff.mp hcreate
  have hpool := (h.found hfound).2
  by_cases hsize : 0 < pool.chunkSize
  · obtain ⟨grown, set, ptrGrown, ptrSet, ids, hc⟩ :=
      creates_of_shaped m (hpool.shaped hsize) h.ptrShaped index count status
    cases (hc.createEntities hfound).symm.trans hcreate
    exact .inr ⟨pool, index, grown, set, ptrGrown, ptrSet, ids, hpool, hc, rfl⟩
  · obtain ⟨grown, hgrow, -⟩ := Option.bind_eq_some_iff.mp hrest
    cases hpool.count_eq_zero hsize
      (ArchetypePool.terminates_iff.mp (ArchetypePool.terminates_of_growTo hgrow))
    cases (createEntities_zero hfound status).symm.trans hcreate
    exact .inl rfl

/-- A creation keeps all pools grounded. -/
theorem Grounded.createEntities (h : m.Grounded) {entities : List EntityRef}
    (hcreate : m.createEntities entityName count status = some (m', entities)) : m'.Grounded := by
  rcases h.createEntities_cases hcreate with
    rfl | ⟨pool, index, grown, set, ptrGrown, ptrSet, ids, hpool, hc, rfl⟩
  · exact h
  · have hgrown : grown.Grounded :=
      ArchetypePool.growTo_rec (fun _ hQ => ArchetypePool.Grounded.addChunk hQ) hc.grow hpool
    have hptrGrown : ptrGrown.Grounded :=
      ArchetypePool.growTo_rec (fun _ hQ => ArchetypePool.Grounded.addChunk hQ) hc.ptrGrow h.ptrPool
    have hids := layouts_setOthers (ComponentPool.layout_setComponentAtIndexes hc.idWrite)
    have hptrSet := hptrGrown.setEntities hc.ptrWrite
    have hptrIds : ArchetypePool.Grounded { ptrSet with others := ids } :=
      hptrSet.congr rfl hids rfl hptrSet.freePos_mem
    exact ⟨PoolLaw.forall_set h.pools ((hgrown.setEntities hc.write).dropFree count),
      hptrIds.dropFree count, hc.ptrShaped_afterCreation⟩

include slots in
/-- And so does a destruction by archetype, -/
theorem Grounded.destroyEntitiesOf (h : m.Grounded) {cPosArr : List ChunkPos}
    (hdestroy : m.destroyEntitiesOf cPosArr index = some m') : m'.Grounded := by
  have hpools := poolLaw_grounded.destroyEntitiesOf h.pools hdestroy
  obtain ⟨_, _, _, ptrPool', -, -, -, hreset, rfl⟩ := destroyEntitiesOf_cases hdestroy
  exact ⟨hpools, h.ptrPool.giveBack hreset, h.ptrShaped.giveBack hreset⟩

include slots in
/-- and one by handles. -/
theorem Grounded.destroyEntitiesRange (h : m.Grounded) {cPosRange : List ChunkPos}
    (hdestroy : m.destroyEntitiesRange cPosRange = some m') : m'.Grounded := by
  have hpools := poolLaw_grounded.destroyEntitiesRange h.pools hdestroy
  obtain ⟨_, _, _, ptrPool', -, -, -, hreset, rfl⟩ := destroyEntitiesRange_cases hdestroy
  exact ⟨hpools, h.ptrPool.giveBack hreset, h.ptrShaped.giveBack hreset⟩

theorem Same.grounded (h : m.Same m') (hm : m.Grounded) : m'.Grounded where
  pools pool' hpool' := by
    obtain ⟨index, hindex⟩ := List.mem_iff_getElem?.mp hpool'
    obtain ⟨pool, hpool, hsame⟩ := h.exists_pool' hindex
    exact hsame.grounded (hm.pools pool (List.mem_of_getElem? hpool))
  ptrPool := h.ptrPool ▸ hm.ptrPool
  ptrShaped := h.ptrPool ▸ hm.ptrShaped

end EntityManager

namespace World

variable {R S V : Type} [ComponentPools R] [slots : ComponentSlots R V] [DecidableEq S]
  {statusOf : S → Option EntityStatus} {w w' : World R S} {act : Act R S V}

/-- A pool has no chunk yet when it is registered. -/
def WithoutChunks (_ : World R S) : Act R S V → Prop
  | .registerEntityPool _ _ others _ => ∀ layout ∈ ComponentPools.layouts others, layout = []
  | _ => True

instance (w : World R S) : ∀ act : Act R S V, Decidable (WithoutChunks w act)
  | .registerEntityPool _ _ others _ =>
    inferInstanceAs (Decidable (∀ layout ∈ ComponentPools.layouts others, layout = []))
  | .register _ | .createEntity _ _ | .createEntities _ _ _ | .destroyEntity _
  | .destroyEntities _ _ | .destroyEntitiesRange _ | .deleteEverything | .addTime _ _ _ =>
    .isTrue trivial

omit [DecidableEq S] in
/-- A new manager has no pools but that of the handles, which is empty. -/
theorem grounded_new (systems : Systems S Nat) (fixedUpdateTime : ℚ) :
    (World.new systems fixedUpdateTime : World R S).manager.Grounded where
  pools _ hpool := absurd hpool List.not_mem_nil
  ptrPool := ArchetypePool.grounded_new "EntityPtr" ENTITY_PTR_POOL_SIZE
    fun _ h => List.mem_singleton.mp h
  ptrShaped := (shaped_new systems fixedUpdateTime (R := R)).ptrPool

/-- No step of the world leaves a pool with a free position that is not its own. -/
theorem grounded_change (hw : w.manager.Grounded) (hnew : WithoutChunks w act)
    {m : EntityManager R} {registry : AEntityManager S Nat} {created : List Created}
    (hchange : Change statusOf w act m registry created) : m.Grounded := by
  cases hchange with
  | registerEntityPool entityName chunkSize others componentNames =>
    exact ⟨List.forall_mem_append.mpr ⟨hw.pools, List.forall_mem_singleton.mpr
      (ArchetypePool.grounded_new entityName chunkSize hnew)⟩, hw.ptrPool, hw.ptrShaped⟩
  | register => exact hw
  | createEntity hcreate => exact hw.createEntities hcreate
  | createEntities hcreate => exact hw.createEntities hcreate
  | destroyEntity _ hdestroy => exact hw.destroyEntitiesOf hdestroy
  | destroyEntities _ hdestroy => exact hw.destroyEntitiesOf hdestroy
  | destroyNothing => exact hw
  | destroyEntitiesRange hdestroy => exact hw.destroyEntitiesRange hdestroy
  | deleteEverything =>
    refine ⟨fun pool hpool => ?_, ArchetypePool.grounded_deleteEverything _,
      hw.ptrShaped.deleteEverything⟩
    obtain ⟨before, -, rfl⟩ := List.mem_map.mp hpool
    exact ArchetypePool.grounded_deleteEverything before
  | addTime htime =>
    obtain ⟨⟨runs, hruns⟩, -, -⟩ := addTime_cases htime
    exact (EntityManager.same_of_runSystems hruns).grounded hw

/-- And so in every run that registers pools without chunks. -/
theorem grounded_of_reach (h : (machine R S statusOf).ReachUnder WithoutChunks w) :
    w.manager.Grounded := by
  refine h.invariant (I := fun w => w.manager.Grounded) (fun w hw => ?_)
    fun w act w' hw hnew hstep => grounded_change hw hnew
      (change_of_step_of hw.createEntities_of_createEntity hstep)
  obtain ⟨systems, fixedUpdateTime, -, -, rfl⟩ := hw
  exact grounded_new systems fixedUpdateTime

end World

/-- **Creation hands out what it is asked for**, in every run, from every pool and for every count:
different positions and handles, free before or in chunks that were added, and no chunk too many. It
does not if the chunks of the pool are empty and more is asked for than is free, or if a position is
free twice among those that are taken. -/
theorem creation_iff {R S V : Type} [ComponentPools R] [ComponentSlots R V] [DecidableEq S]
    {statusOf : S → Option EntityStatus} {w : World R S}
    (h : (World.machine R S statusOf).ReachUnder World.WithoutChunks w) {entityName : String}
    {pool : ArchetypePool R} {index : Nat}
    (hfound : w.manager.getEntityPool entityName = some (pool, index)) (status : EntityStatus) :
    (w.manager.CreatesExactlyOne entityName status pool index ↔
      0 < pool.chunkSize ∨ 1 ≤ pool.freePos.length) ∧
    ∀ count, w.manager.CreatesExactly entityName status count pool index ↔
      (0 < pool.chunkSize ∨ count ≤ pool.freePos.length) ∧
        (pool.freePos.take count).Nodup ∧ (w.manager.entityPtrPool.freePos.take count).Nodup :=
  have hgrounded := World.grounded_of_reach h
  ⟨hgrounded.createsExactlyOne_iff hfound status, hgrounded.createsExactly_iff hfound status⟩

/-- Where what is destroyed is live and goes back to its own pool, no position is free twice. -/
theorem createsExactly_of_owned {R S V : Type} [ComponentPools R] [ComponentSlots R V]
    [DecidableEq S] {statusOf : S → Option EntityStatus} {w : World R S}
    (h : (World.machine R S statusOf).ReachUnder World.OwnDestroys w) {entityName : String}
    {pool : ArchetypePool R} {index : Nat}
    (hfound : w.manager.getEntityPool entityName = some (pool, index)) (status : EntityStatus)
    (count : Nat) : w.manager.CreatesExactly entityName status count pool index := by
  have howned : Owned w.manager w.created := World.owned_of_reach (fun _ _ hact => hact) h
  have hgrounded : w.manager.Grounded := by
    refine World.grounded_of_reach (h.mono fun w act hact => ?_)
    cases act with
    | registerEntityPool entityName chunkSize others componentNames => exact hact.1.2
    | _ => trivial
  have hlaid := howned.pools index pool (EntityManager.getEntityPool_some hfound).1
  exact (hgrounded.createsExactly_iff hfound status count).mpr ⟨.inl hlaid.size_pos,
    hlaid.nodup_freePos.sublist (List.take_sublist _ _),
    howned.ptrPool.nodup_freePos.sublist (List.take_sublist _ _)⟩

/-- A manager without systems, after a pool of this chunk size was registered in it. -/
theorem exists_walls (chunkSize : Nat) : ∃ w : World Unit Empty,
    (World.machine Unit Empty nofun).ReachUnder World.WithoutChunks w ∧
      w.manager.getEntityPool "Wall" = some (.new "Wall" chunkSize (), 0) ∧
      w.manager.entityPtrPool.freePos = [] := by
  have hinit : (World.machine Unit Empty nofun).init (World.new nofun 0) :=
    ⟨nofun, 0, nofun, nofun, rfl⟩
  have hwithout : World.WithoutChunks (World.new nofun 0 : World Unit Empty)
      (.registerEntityPool "Wall" chunkSize () [] : Act Unit Empty Unit) := nofun
  exact ⟨_, Machine.ReachUnder.step (.init hinit) hwithout rfl, rfl, rfl⟩

/-- Three walls, in chunks of two. -/
theorem creation_iff_three : ∃ (w : World Unit Empty) (pool : ArchetypePool Unit),
    w.manager.getEntityPool "Wall" = some (pool, 0) ∧ pool.chunkSize = 2 ∧
      w.manager.CreatesExactlyOne "Wall" ENT_ALIVE pool 0 ∧
      w.manager.CreatesExactly "Wall" ENT_ALIVE 3 pool 0 := by
  obtain ⟨w, hreach, hfound, hfree⟩ := exists_walls 2
  obtain ⟨hone, hmany⟩ := creation_iff hreach hfound ENT_ALIVE
  refine ⟨w, _, hfound, rfl, hone.mpr (.inl two_pos), (hmany 3).mpr ⟨.inl two_pos, ?_, ?_⟩⟩
  · exact List.nodup_nil
  · rw [hfree]
    exact List.nodup_nil

/-- A wall, in chunks of none. -/
theorem not_creation : ¬ ∀ (w : World Unit Empty) (entityName : String)
    (pool : ArchetypePool Unit) (index : Nat),
    (World.machine Unit Empty nofun).ReachUnder World.WithoutChunks w →
    w.manager.getEntityPool entityName = some (pool, index) →
    ∀ status count, w.manager.CreatesExactly entityName status count pool index := by
  intro h
  obtain ⟨w, hreach, hfound, -⟩ := exists_walls 0
  have hends := (h w "Wall" _ 0 hreach hfound ENT_ALIVE 1).terminates
  rcases ArchetypePool.terminates_iff.mp hends with hsize | hle
  · exact absurd hsize (Nat.lt_irrefl 0)
  · exact absurd hle (Nat.not_succ_le_zero 0)

end ProjectE.Ecs
