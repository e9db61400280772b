import ProjectE.Ecs.Slots
import ProjectE.Ecs.Destruction

/-!
# One and many

Entities are created by three functions and destroyed by three, each with its own loops. Creating
`n + 1` entities at once is creating `n` and then one (`createEntities_succ`), for every free list
and every number of chunks that have to be added, so creating many at once is creating them one
after the other. Of the functions that destroy, the one that looks every pool up does what
destroying one after the other does; the one that is told the archetype agrees with them as long as
the pool's index is one that a handle remembers.
-/

namespace ProjectE.Ecs

open Verif

variable {R V : Type} [ComponentPools R] [slots : ComponentSlots R V]

namespace ArchetypePool

variable {pool pool' grown set : ArchetypePool R} {count : Nat} {indexes values : List ChunkPos}
  {status : EntityStatus}

/-! ## Growing -/

/-- A pool with enough free positions does not grow. -/
theorem growTo_of_le {fuel : Nat} (h : count ≤ pool.freePos.length) :
    growTo count fuel pool = some pool := by
  unfold growTo
  rw [if_neg (Nat.not_lt.mpr h)]

/-- Growing to one position more is growing, and a chunk more if nothing is left over. -/
theorem growTo_succ : ∀ {fuel : Nat} (pool : ArchetypePool R), 0 < pool.chunkSize →
    growTo count fuel pool = some grown → growTo (count + 1) (fuel + 1) pool =
      some (if grown.freePos.length = count then grown.addChunk else grown)
  | fuel, pool, hsize, h => by
    unfold growTo at h
    split at h
    next hlt =>
      cases fuel with
      | zero => cases h
      | succ fuel =>
        have hlt' : pool.freePos.length < count + 1 := by omega
        unfold growTo
        rw [if_pos hlt']
        exact growTo_succ pool.addChunk hsize h
    next hge =>
      cases h
      split
      next heq =>
        have hlen := length_freePos_addChunk grown
        have hlt : grown.freePos.length < count + 1 := by omega
        unfold growTo
        rw [if_pos hlt]
        exact growTo_of_le (by omega)
      next hne => exact growTo_of_le (by omega)

/-! ## One position more -/

/-- The pool from which one entity is taken. -/
def front (pool : ArchetypePool R) : ArchetypePool R :=
  if pool.freePos.isEmpty then pool.addChunk else pool

/-- Writing does not mind a chunk more. -/
theorem setEntities_addChunk (h : pool.setEntities indexes status values = some pool') :
    pool.addChunk.setEntities indexes status values = some pool'.addChunk := by
  have hlayouts := layouts_setEntities h
  obtain ⟨entityStatus, hstatus, h⟩ := Option.bind_eq_some_iff.mp h
  obtain ⟨chunkPos, hchunkPos, h⟩ := Option.bind_eq_some_iff.mp h
  cases h
  have hstatus' : pool.addChunk.entityStatus.setComponentAtIndexes indexes status =
      some (ComponentPool.addChunk entityStatus pool.chunkSize) :=
    Grid.writeEach_append_row hstatus _
  have hchunkPos' : pool.addChunk.chunkPos.setComponentsAtIndexes indexes values =
      some (ComponentPool.addChunk chunkPos pool.chunkSize) := by
    unfold ComponentPool.setComponentsAtIndexes at hchunkPos ⊢
    split at hchunkPos
    next hlength =>
      rw [if_pos hlength]
      exact Grid.writeEach_append_row hchunkPos _
    next => cases hchunkPos
  simp only [setEntities, hstatus', hchunkPos']
  simp only [ArchetypePool.addChunk, getChunkCount, hlayouts]
  rfl

omit [ComponentPools R] in
/-- Writing one entity more. -/
theorem setEntities_concat (pool : ArchetypePool R) (status : EntityStatus)
    (hlength : indexes.length = values.length) (index value : ChunkPos) :
    pool.setEntities (indexes ++ [index]) status (values ++ [value]) =
      (pool.setEntities indexes status values).bind fun pool =>
        pool.setEntity index status value := by
  have hstatus : pool.entityStatus.setComponentAtIndexes (indexes ++ [index]) status =
      (pool.entityStatus.setComponentAtIndexes indexes status).bind fun entityStatus =>
        entityStatus.setComponentAtIndex index status := by
    rw [ComponentPool.setComponentAtIndexes_append]
    simp only [ComponentPool.setComponentAtIndexes_singleton]
  have hchunkPos : pool.chunkPos.setComponentsAtIndexes (indexes ++ [index]) (values ++ [value]) =
      (pool.chunkPos.setComponentsAtIndexes indexes values).bind fun chunkPos =>
        chunkPos.setComponentAtIndex index value := by
    have hlength' : (indexes ++ [index]).length ≤ (values ++ [value]).length := by
      simp only [List.length_append, List.length_singleton]
      omega
    rw [ComponentPool.setComponentsAtIndexes, if_pos hlength',
      ComponentPool.setComponentsAtIndexes, if_pos (Nat.le_of_eq hlength),
      List.zip_append hlength, Grid.writeEach_append]
    simp only [List.zip_cons_cons, List.zip_nil_right, Grid.writeEach_singleton]
    rfl
  simp only [setEntities, setEntity, hstatus, hchunkPos]
  cases pool.entityStatus.setComponentAtIndexes indexes status with
  | none => rfl
  | some entityStatus =>
    cases pool.chunkPos.setComponentsAtIndexes indexes values with
    | none =>
      show (entityStatus.setComponentAtIndex index status).bind (fun _ => none) = none
      exact Option.bind_fun_none _
    | some chunkPos => rfl

/-! ## What shaped pools do -/

omit [ComponentPools R] in
/-- Writing moves no chunk. -/
theorem shape_setEntities (h : pool.setEntities indexes status values = some pool') :
    pool'.shape = pool.shape := by
  obtain ⟨entityStatus, -, h⟩ := Option.bind_eq_some_iff.mp h
  obtain ⟨chunkPos, hchunkPos, h⟩ := Option.bind_eq_some_iff.mp h
  cases h
  exact layout_setComponentsAtIndexes hchunkPos

omit [ComponentPools R] in
/-- Writing entities leaves the rest of the pool alone. -/
theorem rest_setEntities (h : pool.setEntities indexes status values = some pool') :
    pool'.entityName = pool.entityName ∧ pool'.chunkSize = pool.chunkSize ∧
      pool'.others = pool.others ∧ pool'.freePos = pool.freePos := by
  obtain ⟨entityStatus, -, h⟩ := Option.bind_eq_some_iff.mp h
  obtain ⟨chunkPos, -, h⟩ := Option.bind_eq_some_iff.mp h
  cases h
  exact ⟨rfl, rfl, rfl, rfl⟩

/-- Writing keeps a pool shaped. -/
theorem Shaped.setEntities (h : Shaped pool)
    (hset : pool.setEntities indexes status values = some pool') : Shaped pool' := by
  obtain ⟨-, hsize, -, hfree⟩ := rest_setEntities hset
  refine h.congr hsize (layouts_setEntities hset) (shape_setEntities hset) ?_
  rw [hfree]
  exact h.freePos_mem

/-- Taking positions from the front of the free list keeps it shaped. -/
theorem Shaped.dropFree (h : Shaped pool) (count : Nat) : Shaped (pool.dropFree count) :=
  h.congr rfl rfl rfl fun cPos hcPos => h.freePos_mem cPos (List.mem_of_mem_drop hcPos)

include slots in
/-- So does giving back positions that were reset: a reset answers only inside the pool. -/
theorem Shaped.giveBack (h : Shaped pool) {back : List ChunkPos}
    (hreset : (pool.insertFree back).resetEntityAtIndexes back = some pool') : Shaped pool' := by
  have hslots := resetsSlots_of_reset hreset
  refine h.congr hslots.keeps.chunkSize hslots.layouts hslots.shape ?_
  rw [hslots.freePos]
  intro cPos hcPos
  rcases List.mem_append.mp hcPos with hcPos | hcPos
  · exact h.freePos_mem cPos hcPos
  · exact hslots.mem cPos hcPos

/-- An emptied pool is shaped: it has no chunk and no free position. -/
theorem Shaped.deleteEverything (h : Shaped pool) : Shaped pool.deleteEverything where
  size_pos := h.size_pos
  uniform := uniform_deleteEverything pool
  freePos_mem _ hcPos := absurd hcPos List.not_mem_nil

/-- Adding a chunk to a pool with no free position keeps it shaped. -/
theorem Shaped.front (h : Shaped pool) : Shaped pool.front := by
  unfold ArchetypePool.front
  split
  · exact h.addChunk
  · exact h

/-- A shaped pool grows to any number of free positions: its chunk size is not zero, so the loop
ends. -/
theorem Shaped.growTo (h : Shaped pool) (count : Nat) : ∃ grown,
    ArchetypePool.growTo count count pool = some grown ∧ Shaped grown ∧
      count ≤ grown.freePos.length := by
  obtain ⟨grown, hgrow⟩ := Option.isSome_iff_exists.mp
    (isSome_growTo pool h.size_pos (Nat.le_add_left count _))
  exact ⟨grown, hgrow, growTo_rec (Q := Shaped) (fun _ hQ => hQ.addChunk) hgrow h,
    le_length_of_growTo hgrow⟩

/-- Taking one position more: what is written at the end of a longer range is written in the pool
from which the shorter range was dropped. -/
theorem Shaped.give_succ (h : Shaped pool)
    (hgrow : ArchetypePool.growTo count count pool = some grown)
    (hset : grown.setEntities (grown.freePos.take count) status values = some set)
    (hvalues : values.length = count) : ∃ grown' next rest,
      ArchetypePool.growTo (count + 1) (count + 1) pool = some grown' ∧
      grown'.others = (if grown.freePos.length = count then grown.addChunk else grown).others ∧
      grown'.freePos.take (count + 1) = grown.freePos.take count ++ [next] ∧
      (set.dropFree count).front.freePos = next :: rest ∧
      ∀ value, ∃ set' one,
        grown'.setEntities (grown.freePos.take count ++ [next]) status (values ++ [value]) =
          some set' ∧
        (set.dropFree count).front.setEntity next status value = some one ∧
        one.dropFree 1 = set'.dropFree (count + 1) := by
  have hgrown : Shaped grown := growTo_rec (Q := Shaped) (fun _ hQ => hQ.addChunk) hgrow h
  have hle := le_length_of_growTo hgrow
  have hlen := length_freePos_addChunk grown
  have hsize := hgrown.size_pos
  obtain ⟨-, -, -, hfree⟩ := rest_setEntities hset
  -- either way, the shorter range is written in the pool that has grown further
  obtain ⟨grown', set₁, hgrow', hothers', hgrown', htake, hset₁, hfront, hlt⟩ :
      ∃ grown' set₁, ArchetypePool.growTo (count + 1) (count + 1) pool = some grown' ∧
        grown'.others = (if grown.freePos.length = count then grown.addChunk else grown).others ∧
        Shaped grown' ∧ grown'.freePos.take count = grown.freePos.take count ∧
        grown'.setEntities (grown.freePos.take count) status values = some set₁ ∧
        (set.dropFree count).front = set₁.dropFree count ∧ count < grown'.freePos.length := by
    have hsucc := growTo_succ pool h.size_pos hgrow
    by_cases heq : grown.freePos.length = count
    · rw [if_pos heq] at hsucc
      refine ⟨_, _, hsucc, by rw [if_pos heq], hgrown.addChunk, ?_, setEntities_addChunk hset, ?_,
        by omega⟩
      · exact List.take_append_of_le_length hle
      · have hnil : set.freePos.drop count = [] := by
          rw [hfree, List.drop_eq_nil_iff]
          omega
        have hempty : (set.dropFree count).freePos.isEmpty = true := by
          simp only [ArchetypePool.dropFree, hnil, List.isEmpty_nil]
        rw [ArchetypePool.front, if_pos hempty]
        simp only [ArchetypePool.dropFree, ArchetypePool.addChunk, getChunkCount, layouts, hnil,
          List.nil_append]
        rw [List.drop_append_of_le_length (by rw [hfree]; omega), hnil, List.nil_append]
    · rw [if_neg heq] at hsucc
      refine ⟨_, _, hsucc, by rw [if_neg heq], hgrown, rfl, hset, ?_, by omega⟩
      have hnonempty : ¬ (set.dropFree count).freePos.isEmpty = true := by
        simp only [ArchetypePool.dropFree, hfree, List.isEmpty_iff, List.drop_eq_nil_iff]
        omega
      rw [ArchetypePool.front, if_neg hnonempty]
  have hset₁Shaped := hgrown'.setEntities hset₁
  obtain ⟨-, -, -, hfree₁⟩ := rest_setEntities hset₁
  have hnext : (grown'.freePos.take (count + 1)) =
      grown.freePos.take count ++ [grown'.freePos[count]] := by
    rw [List.take_succ_eq_append_getElem hlt, htake]
  refine ⟨grown', grown'.freePos[count], grown'.freePos.drop (count + 1), hgrow', hothers', hnext,
    ?_, fun value => ?_⟩
  · rw [hfront]
    show set₁.freePos.drop count = _
    rw [hfree₁, List.drop_eq_getElem_cons hlt]
  · have hcell : ∀ index ∈ [grown'.freePos[count]], index ∈ Grid.cells set₁.shape := by
      intro index hindex
      cases List.mem_singleton.mp hindex
      apply hset₁Shaped.freePos_mem
      rw [hfree₁]
      exact List.getElem_mem hlt
    have hlengthOne : [grown'.freePos[count]].length = [value].length := rfl
    obtain ⟨set', hset'⟩ := Option.isSome_iff_exists.mp
      (isSome_setEntities_of_uniform _ hset₁Shaped.uniform hcell status hlengthOne)
    rw [setEntities_singleton] at hset'
    refine ⟨set', set'.dropFree count, ?_, ?_, ?_⟩
    · have hlength : (grown.freePos.take count).length = values.length := by
        rw [List.length_take_of_le hle, hvalues]
      rw [setEntities_concat _ _ hlength, hset₁]
      exact hset'
    · rw [hfront]
      obtain ⟨entityStatus, hstatus, hset'⟩ := Option.bind_eq_some_iff.mp hset'
      obtain ⟨chunkPos, hchunkPos, hset'⟩ := Option.bind_eq_some_iff.mp hset'
      cases hset'
      simp only [setEntity, ArchetypePool.dropFree, hstatus, hchunkPos]
      rfl
    · simp only [ArchetypePool.dropFree, List.drop_drop]

end ArchetypePool

/-- The one other component of the pool of pointers. -/
theorem ArchetypePool.Shaped.layout_others {pool : EntityPtrPool} (h : pool.Shaped) :
    Grid.layout pool.others = pool.shape :=
  h.uniform (Grid.layout pool.others) (List.mem_append_left _ List.mem_cons_self)

namespace EntityManager

variable {m : EntityManager R} {entityName : String} {count index : Nat} {status : EntityStatus}
  {pool pool' grown set : ArchetypePool R} {ptrGrown ptrSet : EntityPtrPool}
  {ids : ComponentPool EntityPoolId}

/-- All pools are shaped. -/
structure Shaped (m : EntityManager R) : Prop where
  pools : ∀ pool ∈ m.entityPools, pool.Shaped
  ptrPool : m.entityPtrPool.Shaped

omit [ComponentPools R] in
/-- A pool that changes and keeps its name is still found by it. -/
theorem getEntityPool_set (h : m.getEntityPool entityName = some (pool, index))
    (hname : pool'.entityName = pool.entityName) (ptrPool : EntityPtrPool) :
    EntityManager.getEntityPool ⟨m.entityPools.set index pool', ptrPool⟩ entityName =
      some (pool', index) := by
  obtain ⟨hp, i, hi, hget, hbefore⟩ := List.find?_eq_some_iff_getElem.mp h
  rw [List.getElem_zipIdx, Nat.zero_add] at hget
  obtain ⟨hpool, rfl⟩ := Prod.mk.inj hget
  have hlt : i < m.entityPools.length := by rwa [List.length_zipIdx] at hi
  refine List.find?_eq_some_iff_getElem.mpr ⟨?_, i, ?_, ?_, fun j hj => ?_⟩
  · simpa only [hname] using hp
  · simpa only [List.length_zipIdx, List.length_set] using hlt
  · simp only [List.getElem_zipIdx, List.getElem_set_self, Nat.zero_add]
  · have hb := hbefore j hj
    simp only [List.getElem_zipIdx, Nat.zero_add] at hb ⊢
    rw [List.getElem_set_ne (Nat.ne_of_gt hj)]
    exact hb

/-! ## The pool of pointers -/

/-- Ids of pools that are changed in place are laid out as they were. -/
theorem layouts_setOthers (hids : Grid.layout ids = Grid.layout ptrSet.others) :
    ArchetypePool.layouts { ptrSet with others := ids } = ptrSet.layouts := by
  simp only [ArchetypePool.layouts, ComponentPools.layouts, hids]

/-- Changing the ids in place keeps the pool of pointers shaped. -/
theorem shaped_setOthers (h : ptrSet.Shaped) (hids : Grid.layout ids = Grid.layout ptrSet.others) :
    ArchetypePool.Shaped { ptrSet with others := ids } :=
  h.congr rfl (layouts_setOthers hids) rfl h.freePos_mem

omit [ComponentPools R] in
/-- Writing a position and writing the ids do not meet. -/
theorem setEntity_setOthers (p : EntityPtrPool) (index value : ChunkPos) :
    ArchetypePool.setEntity { p with others := ids } index status value =
      (p.setEntity index status value).map fun p => { p with others := ids } := by
  simp only [ArchetypePool.setEntity]
  cases p.entityStatus.setComponentAtIndex index status with
  | none => rfl
  | some entityStatus =>
    cases p.chunkPos.setComponentAtIndex index value with
    | none => rfl
    | some chunkPos => rfl

/-- Adding a chunk adds it to the ids as well. -/
theorem front_setOthers (p : EntityPtrPool) (h : Grid.layout ids = Grid.layout p.others) :
    ArchetypePool.front { p with others := ids } =
      { p.front with
        others := if p.freePos.isEmpty then ids.addChunk p.chunkSize else ids } := by
  unfold ArchetypePool.front
  cases hempty : p.freePos.isEmpty with
  | true =>
    simp only [if_true, ArchetypePool.addChunk, ArchetypePool.getChunkCount, ArchetypePool.layouts,
      ComponentPools.layouts, h]
    rfl
  | false => simp only [Bool.false_eq_true, if_false]

/-- Taking one handle more, the pool's id being written at each. -/
theorem givePtr_succ {ptrPool : EntityPtrPool} {poolId : EntityPoolId} {values : List ChunkPos}
    (h : ptrPool.Shaped) (hgrow : ptrPool.growTo count count = some ptrGrown)
    (hwrite : ptrGrown.setEntities (ptrGrown.freePos.take count) status values = some ptrSet)
    (hids : ptrSet.others.setComponentAtIndexes (ptrGrown.freePos.take count) poolId = some ids)
    (hvalues : values.length = count) : ∃ ptrGrown' next rest,
      ptrPool.growTo (count + 1) (count + 1) = some ptrGrown' ∧
      ptrGrown'.freePos.take (count + 1) = ptrGrown.freePos.take count ++ [next] ∧
      ∃ front, ({ ptrSet with others := ids }.dropFree count).front = front ∧
        front.freePos = next :: rest ∧ front.getRawEntity next = some next ∧
        ∀ value, ∃ ptrSet' one ids',
          ptrGrown'.setEntities (ptrGrown.freePos.take count ++ [next]) status
            (values ++ [value]) = some ptrSet' ∧
          ptrSet'.others.setComponentAtIndexes (ptrGrown.freePos.take count ++ [next]) poolId =
            some ids' ∧
          front.setEntity next status value = some one ∧
          one.others.setComponentAtIndex next poolId = some ids' ∧
          { one with others := ids' }.dropFree 1 =
            { ptrSet' with others := ids' }.dropFree (count + 1) := by
  obtain ⟨ptrGrown', next, rest, hgrow', hothers', htake, hfront, hone⟩ :=
    h.give_succ hgrow hwrite hvalues
  have hgrown := ArchetypePool.growTo_rec (Q := ArchetypePool.Shaped) (fun _ hQ => hQ.addChunk)
    hgrow h
  have hlayout := ComponentPool.layout_setComponentAtIndexes hids
  obtain ⟨-, hsize, hothers, hfree⟩ := ArchetypePool.rest_setEntities hwrite
  -- the ids, with a chunk more where the pool gets one
  have hfront' := front_setOthers (ptrSet.dropFree count) hlayout
  generalize hids₁ : (if (ptrSet.dropFree count).freePos.isEmpty then
    ids.addChunk (ptrSet.dropFree count).chunkSize else ids) = ids₁ at hfront'
  have hids₁Write : ptrGrown'.others.setComponentAtIndexes (ptrGrown.freePos.take count) poolId =
      some ids₁ := by
    rw [hothers] at hids
    rw [hothers', ← hids₁]
    simp only [ArchetypePool.dropFree, hfree, hsize, List.isEmpty_iff, List.drop_eq_nil_iff]
    by_cases heq : ptrGrown.freePos.length = count
    · rw [if_pos heq, if_pos (Nat.le_of_eq heq)]
      exact Grid.writeEach_append_row hids _
    · have hle := ArchetypePool.le_length_of_growTo hgrow
      rw [if_neg heq, if_neg (by omega)]
      exact hids
  have hshaped : ArchetypePool.Shaped { (ptrSet.dropFree count).front with others := ids₁ } := by
    rw [← hfront']
    exact (shaped_setOthers ((hgrown.setEntities hwrite).dropFree count) hlayout).front
  have hnext : next ∈ Grid.cells (ptrSet.dropFree count).front.shape := by
    apply hshaped.freePos_mem
    show next ∈ (ptrSet.dropFree count).front.freePos
    rw [hfront]
    exact List.mem_cons_self
  obtain ⟨ids', hids'⟩ := Option.isSome_iff_exists.mp
    (Grid.isSome_write (g := ids₁) (hshaped.layout_others ▸ hnext) poolId)
  refine ⟨ptrGrown', next, rest, hgrow', htake, _, hfront', hfront,
    ArchetypePool.getRawEntity_of_uniform hshaped.uniform hnext, fun value => ?_⟩
  obtain ⟨ptrSet', one, hset', hsetEntity, hdrop⟩ := hone value
  refine ⟨ptrSet', { one with others := ids₁ }, ids', hset', ?_, ?_, hids', ?_⟩
  · rw [(ArchetypePool.rest_setEntities hset').2.2.1, ComponentPool.setComponentAtIndexes_append,
      hids₁Write, Option.bind_some, ComponentPool.setComponentAtIndexes_singleton]
    exact hids'
  · rw [setEntity_setOthers, hsetEntity, Option.map_some]
  · exact congrArg (fun p : EntityPtrPool => { p with others := ids' }) hdrop

/-! ## Creating -/

/-- The stages of creating many entities, in the order in which the code goes through them: both
pools have grown, positions and handles were written crosswise, and the id of the pool next to the
positions. None of the pools has dropped its free positions yet. -/
structure Creates (m : EntityManager R) (count : Nat) (status : EntityStatus) (index : Nat)
    (pool grown set : ArchetypePool R) (ptrGrown ptrSet : EntityPtrPool)
    (ids : ComponentPool EntityPoolId) : Prop where
  grow : pool.growTo count count = some grown
  ptrGrow : m.entityPtrPool.growTo count count = some ptrGrown
  write : grown.setEntities (grown.freePos.take count) status (ptrGrown.freePos.take count) =
    some set
  ptrWrite : ptrGrown.setEntities (ptrGrown.freePos.take count) ENT_ALIVE
    (grown.freePos.take count) = some ptrSet
  idWrite : ptrSet.others.setComponentAtIndexes (ptrGrown.freePos.take count)
    (UInt8.ofNat index) = some ids
  shaped : grown.Shaped
  ptrShaped : ptrGrown.Shaped

/-- What is left once positions were written and are taken from the free lists. -/
def afterCreation (m : EntityManager R) (count index : Nat) (set : ArchetypePool R)
    (ptrSet : EntityPtrPool) (ids : ComponentPool EntityPoolId) : EntityManager R where
  entityPools := m.entityPools.set index (set.dropFree count)
  entityPtrPool := { ptrSet with others := ids }.dropFree count

/-- Entities of a shaped pool can be created, whatever the other pools are. -/
theorem creates_of_shaped (m : EntityManager R) (hshaped : pool.Shaped)
    (hptr : m.entityPtrPool.Shaped) (index count : Nat) (status : EntityStatus) :
    ∃ grown set ptrGrown ptrSet ids,
      Creates m count status index pool grown set ptrGrown ptrSet ids := by
  obtain ⟨grown, hgrow, hgrown, hle⟩ := hshaped.growTo count
  obtain ⟨ptrGrown, hptrGrow, hptrGrown, hptrLe⟩ := hptr.growTo count
  have hlength : (grown.freePos.take count).length = (ptrGrown.freePos.take count).length := by
    rw [List.length_take_of_le hle, List.length_take_of_le hptrLe]
  have hcells : ∀ cPos ∈ grown.freePos.take count, cPos ∈ Grid.cells grown.shape :=
    fun cPos hcPos => hgrown.freePos_mem cPos (List.mem_of_mem_take hcPos)
  obtain ⟨set, hset⟩ := Option.isSome_iff_exists.mp
    (ArchetypePool.isSome_setEntities_of_uniform grown hgrown.uniform hcells status hlength)
  have hptrCells : ∀ cPos ∈ ptrGrown.freePos.take count, cPos ∈ Grid.cells ptrGrown.shape :=
    fun cPos hcPos => hptrGrown.freePos_mem cPos (List.mem_of_mem_take hcPos)
  obtain ⟨ptrSet, hptrSet⟩ := Option.isSome_iff_exists.mp
    (ArchetypePool.isSome_setEntities_of_uniform ptrGrown hptrGrown.uniform hptrCells ENT_ALIVE
      hlength.symm)
  have hothers : ptrSet.others = ptrGrown.others := (ArchetypePool.rest_setEntities hptrSet).2.2.1
  have hidCells : ∀ cPos ∈ ptrGrown.freePos.take count,
      cPos ∈ Grid.cells (Grid.layout ptrSet.others) := by
    intro cPos hcPos
    rw [hothers, hptrGrown.layout_others]
    exact hptrCells cPos hcPos
  obtain ⟨ids, hids⟩ := Option.isSome_iff_exists.mp
    (ComponentPool.isSome_setComponentAtIndexes ptrSet.others hidCells (UInt8.ofNat index))
  exact ⟨grown, set, ptrGrown, ptrSet, ids, hgrow, hptrGrow, hset, hptrSet, hids, hgrown, hptrGrown⟩

/-- A pool that is found by name is shaped. -/
theorem Shaped.found (h : m.Shaped) (hpool : m.getEntityPool entityName = some (pool, index)) :
    pool.Shaped :=
  h.pools pool (List.mem_of_getElem? (getEntityPool_some hpool).1)

/-- In a shaped manager every step of a creation answers, whatever the count. -/
theorem Shaped.creates (h : Shaped m)
    (hpool : m.getEntityPool entityName = some (pool, index)) (count : Nat)
    (status : EntityStatus) :
    ∃ grown set ptrGrown ptrSet ids,
      Creates m count status index pool grown set ptrGrown ptrSet ids :=
  creates_of_shaped m (h.found hpool) h.ptrPool index count status

/-- The creation answers with what its steps have made. -/
theorem Creates.createEntities (h : Creates m count status index pool grown set ptrGrown ptrSet ids)
    (hpool : m.getEntityPool entityName = some (pool, index)) :
    m.createEntities entityName count status = some (afterCreation m count index set ptrSet ids,
      (grown.freePos.take count).map fun cPos => ⟨index, cPos⟩) := by
  have hset := h.shaped.setEntities h.write
  have hraw : (grown.freePos.take count).mapM set.getRawEntity =
      some ((grown.freePos.take count).map id) := by
    apply Grid.mapM_eq_some_map
    intro cPos hcPos
    apply ArchetypePool.getRawEntity_of_uniform hset.uniform
    rw [ArchetypePool.shape_setEntities h.write]
    exact h.shaped.freePos_mem cPos (List.mem_of_mem_take hcPos)
  simp only [EntityManager.createEntities, hpool, h.grow, h.ptrGrow, h.write, h.ptrWrite, h.idWrite,
    hraw, List.map_id, Option.bind_eq_bind, Option.bind_some]
  rfl

/-- A creation keeps the pool of pointers shaped. -/
theorem Creates.ptrShaped_afterCreation
    (h : Creates m count status index pool grown set ptrGrown ptrSet ids) :
    (afterCreation m count index set ptrSet ids).entityPtrPool.Shaped :=
  (shaped_setOthers (h.ptrShaped.setEntities h.ptrWrite)
    (ComponentPool.layout_setComponentAtIndexes h.idWrite)).dropFree count

/-- A creation keeps the whole manager shaped. -/
theorem Creates.shaped_afterCreation
    (h : Creates m count status index pool grown set ptrGrown ptrSet ids) (hm : m.Shaped) :
    (afterCreation m count index set ptrSet ids).Shaped where
  pools pool' hpool' := by
    rcases List.mem_or_eq_of_mem_set hpool' with hmem | rfl
    · exact hm.pools pool' hmem
    · exact (h.shaped.setEntities h.write).dropFree count
  ptrPool := h.ptrShaped_afterCreation

/-- `createEntity` without its two branches: the pool and the pointers each give up the first
position of what they have after a chunk was added, if one was needed. -/
theorem createEntity_eq (m : EntityManager R) (entityName : String) (status : EntityStatus) :
    m.createEntity entityName status = (do
      let (entityPool, poolId) ← m.getEntityPool entityName
      let nextFreePos ← entityPool.front.freePos.head?
      let nextFreePtrPos ← m.entityPtrPool.front.freePos.head?
      let entity ← entityPool.front.getRawEntity nextFreePos
      let set ← entityPool.front.setEntity entity status nextFreePtrPos
      let entityPtr ← m.entityPtrPool.front.getRawEntity nextFreePtrPos
      let ptrSet ← m.entityPtrPool.front.setEntity entityPtr ENT_ALIVE nextFreePos
      let ids ← ptrSet.others.setComponentAtIndex entityPtr (UInt8.ofNat poolId)
      return (afterCreation m 1 poolId set ptrSet ids, ⟨poolId, entity⟩)) := rfl

/-- **One more is one**: creating one entity more is creating the others, and then it. -/
theorem createEntities_succ (hpool : m.getEntityPool entityName = some (pool, index))
    (hshaped : pool.Shaped) (hptrShaped : m.entityPtrPool.Shaped) (count : Nat)
    (status : EntityStatus) : ∃ m₁ entities m₂ entity,
      m.createEntities entityName count status = some (m₁, entities) ∧
      m₁.createEntity entityName status = some (m₂, entity) ∧
      m.createEntities entityName (count + 1) status = some (m₂, entities ++ [entity]) := by
  obtain ⟨grown, set, ptrGrown, ptrSet, ids, hc⟩ :=
    creates_of_shaped m hshaped hptrShaped index count status
  have hle := ArchetypePool.le_length_of_growTo hc.grow
  have hptrLe := ArchetypePool.le_length_of_growTo hc.ptrGrow
  obtain ⟨grown', next, rest, hgrow', -, htake, hfront, hone⟩ :=
    hshaped.give_succ hc.grow hc.write (List.length_take_of_le hptrLe)
  obtain ⟨ptrGrown', nextPtr, restPtr, hptrGrow', hptrTake, front, hptr, hptrFront, hptrRaw,
      hptrOne⟩ :=
    givePtr_succ hptrShaped hc.ptrGrow hc.ptrWrite hc.idWrite (List.length_take_of_le hle)
  obtain ⟨set', one, hset', hsetEntity, hdrop⟩ := hone nextPtr
  obtain ⟨ptrSet', ptrOne, ids', hptrSet', hids', hptrSetEntity, hid, hptrDrop⟩ := hptrOne next
  have hc' : Creates m (count + 1) status index pool grown' set' ptrGrown' ptrSet' ids' := by
    refine ⟨hgrow', hptrGrow', ?_, ?_, ?_, ?_, ?_⟩
    · rw [htake, hptrTake]
      exact hset'
    · rw [htake, hptrTake]
      exact hptrSet'
    · rw [hptrTake]
      exact hids'
    · exact ArchetypePool.growTo_rec (Q := ArchetypePool.Shaped) (fun _ hQ => hQ.addChunk) hgrow'
        hshaped
    · exact ArchetypePool.growTo_rec (Q := ArchetypePool.Shaped) (fun _ hQ => hQ.addChunk)
        hptrGrow' hptrShaped
  refine ⟨_, _, afterCreation m (count + 1) index set' ptrSet' ids', ⟨index, next⟩,
    hc.createEntities hpool, ?_, ?_⟩
  · have hname : (set.dropFree count).entityName = pool.entityName := by
      show set.entityName = _
      rw [(ArchetypePool.rest_setEntities hc.write).1]
      exact ArchetypePool.growTo_rec (Q := fun p => p.entityName = pool.entityName)
        (fun _ hQ => hQ) hc.grow rfl
    have hfound : (afterCreation m count index set ptrSet ids).getEntityPool entityName =
        some (set.dropFree count, index) := getEntityPool_set hpool hname _
    have hptr' : (afterCreation m count index set ptrSet ids).entityPtrPool.front = front := hptr
    have hset := ((hc.shaped.setEntities hc.write).dropFree count).front
    have hraw : (set.dropFree count).front.getRawEntity next = some next := by
      apply ArchetypePool.getRawEntity_of_uniform hset.uniform
      apply hset.freePos_mem
      rw [hfront]
      exact List.mem_cons_self
    rw [createEntity_eq]
    simp only [hfound, hptr', hfront, hptrFront, hraw, hptrRaw, hsetEntity, hptrSetEntity, hid,
      List.head?_cons, Option.bind_eq_bind, Option.bind_some]
    simp only [afterCreation, List.set_set, hdrop, hptrDrop]
    rfl
  · rw [hc'.createEntities hpool, htake, List.map_append, List.map_singleton]

/-- `n` successive calls of `createEntity`. -/
def createTimes (m : EntityManager R) (entityName : String) (status : EntityStatus) :
    Nat → Option (EntityManager R × List EntityRef)
  | 0 => some (m, [])
  | n + 1 => do
    let (m, entities) ← m.createTimes entityName status n
    let (m, entity) ← m.createEntity entityName status
    return (m, entities ++ [entity])

/-- `createEntities<N>(status)`, its text that of the other with the number given first. -/
def createEntitiesN (m : EntityManager R) (entityName : String) (N : Nat) (status : EntityStatus) :
    Option (EntityManager R × List EntityRef) := m.createEntities entityName N status

/-- Creating none changes nothing: no pool grows for it. -/
theorem createEntities_zero (hpool : m.getEntityPool entityName = some (pool, index))
    (status : EntityStatus) : m.createEntities entityName 0 status = some (m, []) := by
  obtain ⟨hlt, hget⟩ := List.getElem?_eq_some_iff.mp (getEntityPool_some hpool).1
  have hset : m.entityPools.set index pool = m.entityPools := by
    rw [← hget, List.set_getElem_self]
  simp only [EntityManager.createEntities, hpool, Option.bind_eq_bind, Option.bind_some,
    ArchetypePool.growTo_of_le (Nat.zero_le _), List.take_zero]
  show some ((⟨m.entityPools.set index pool, _⟩ : EntityManager R), _) = _
  rw [hset]
  rfl

/-- **Creating many is creating them one after the other.** -/
theorem createEntities_eq_createTimes (h : m.Shaped)
    (hpool : m.getEntityPool entityName = some (pool, index)) (count : Nat)
    (status : EntityStatus) :
    m.createEntities entityName count status = m.createTimes entityName status count := by
  induction count with
  | zero => exact createEntities_zero hpool status
  | succ count ih =>
    obtain ⟨m₁, entities, m₂, entity, hmany, hone, hmore⟩ :=
      createEntities_succ hpool (h.found hpool) h.ptrPool count status
    rw [hmore, createTimes, ← ih, hmany]
    simp only [Option.bind_eq_bind, Option.bind_some, hone]
    rfl

/-- Creating one entity of a shaped pool is creating a batch of one. -/
theorem createEntity_eq_batch (hpool : m.getEntityPool entityName = some (pool, index))
    (hshaped : pool.Shaped) (hptrShaped : m.entityPtrPool.Shaped) (status : EntityStatus) :
    ∃ m' entity, m.createEntity entityName status = some (m', entity) ∧
      m.createEntities entityName 1 status = some (m', [entity]) := by
  obtain ⟨m₁, entities, m₂, entity, hmany, hone, hmore⟩ :=
    createEntities_succ hpool hshaped hptrShaped 0 status
  rw [createEntities_zero hpool] at hmany
  cases hmany
  exact ⟨m₂, entity, hone, hmore⟩

/-- Creating one entity is creating a list of one. -/
theorem createEntities_of_createEntity {m' : EntityManager R} {entity : EntityRef} (h : m.Shaped)
    (hcreate : m.createEntity entityName status = some (m', entity)) :
    m.createEntities entityName 1 status = some (m', [entity]) := by
  obtain ⟨⟨pool, index⟩, hpool, -⟩ := Option.bind_eq_some_iff.mp hcreate
  obtain ⟨m₂, entity₂, hone, hbatch⟩ :=
    createEntity_eq_batch hpool (h.found hpool) h.ptrPool status
  cases hone.symm.trans hcreate
  exact hbatch

/-- What creating many does, where it answers. -/
theorem Shaped.createEntities_cases {m' : EntityManager R} {entities : List EntityRef}
    (h : m.Shaped) (hcreate : m.createEntities entityName count status = some (m', entities)) :
    ∃ pool index grown set ptrGrown ptrSet ids,
      m.getEntityPool entityName = some (pool, index) ∧
      Creates m count status index pool grown set ptrGrown ptrSet ids ∧
      m' = afterCreation m count index set ptrSet ids ∧
      entities = (grown.freePos.take count).map fun cPos => ⟨index, cPos⟩ := by
  obtain ⟨⟨pool, index⟩, hpool, -⟩ := Option.bind_eq_some_iff.mp hcreate
  obtain ⟨grown, set, ptrGrown, ptrSet, ids, hc⟩ := h.creates hpool count status
  cases (hc.createEntities hpool).symm.trans hcreate
  exact ⟨pool, index, grown, set, ptrGrown, ptrSet, ids, hpool, hc, rfl, rfl⟩

/-! ## Destroying -/

variable {handles deleted : List ChunkPos} {sent : List EntityRef} {entity : EntityRef}

/-- Successive calls of `destroyEntity`. -/
def destroyTimes (m : EntityManager R) (cPosArr : List ChunkPos) : Option (EntityManager R) :=
  cPosArr.foldlM (fun m cPos => m.destroyEntity cPos) m

/-- A handle destroyed: what it points to goes back to its pool, and the pointer is reset. -/
theorem destroyEntity_eq {cPos : ChunkPos} (h : m.pointee cPos = some entity) :
    m.destroyEntity cPos = (giveBackOne m.entityPools entity).bind fun entityPools =>
      ((m.entityPtrPool.insertFree [cPos]).resetEntityAtIndexes [cPos]).map fun ptrPool =>
        ⟨entityPools, ptrPool⟩ := by
  obtain ⟨poolId, hid, h⟩ := Option.bind_eq_some_iff.mp h
  obtain ⟨position, hposition, h⟩ := Option.bind_eq_some_iff.mp h
  cases h
  have hdeleted : (m.entityPtrPool.insertFree [cPos]).chunkPos.getComponentsAtIndexes [cPos] =
      some [position] := by
    have hread : (m.entityPtrPool.insertFree [cPos]).chunkPos.getComponent cPos = some position :=
      hposition
    simp only [ComponentPool.getComponentsAtIndexes, List.mapM_cons, List.mapM_nil, hread]
    rfl
  simp only [destroyEntity, hid, Option.bind_eq_bind, Option.bind_some, destroyEntitiesOf, hdeleted,
    giveBackOne]
  cases m.entityPools[poolId.toNat]? with
  | none => rfl
  | some pool =>
    simp only [Option.bind_some, ArchetypePool.reset_insertFree pool]
    cases pool.resetEntityAtIndexes [position] with
    | none =>
      cases (m.entityPtrPool.insertFree [cPos]).resetEntityAtIndexes [cPos] with
      | none => rfl
      | some ptrPool => rfl
    | some pool' =>
      cases (m.entityPtrPool.insertFree [cPos]).resetEntityAtIndexes [cPos] with
      | none => rfl
      | some ptrPool => rfl

omit [ComponentPools R] in
/-- What is read at the handles is what they point to. -/
theorem getComponents_of_pointees (h : handles.mapM m.pointee = some sent) :
    ∃ poolIds deleted, m.entityPtrPool.others.getComponentsAtIndexes handles = some poolIds ∧
      m.entityPtrPool.chunkPos.getComponentsAtIndexes handles = some deleted ∧
      (poolIds.zip deleted).map (fun e => (⟨e.1.toNat, e.2⟩ : EntityRef)) = sent := by
  induction handles generalizing sent with
  | nil =>
    cases h
    exact ⟨[], [], rfl, rfl, rfl⟩
  | cons handle handles ih =>
    rw [List.mapM_cons] at h
    obtain ⟨entity, hentity, h⟩ := Option.bind_eq_some_iff.mp h
    obtain ⟨rest, hrest, h⟩ := Option.bind_eq_some_iff.mp h
    cases h
    obtain ⟨poolIds, deleted, hids, hdeleted, rfl⟩ := ih hrest
    obtain ⟨poolId, hid, hentity⟩ := Option.bind_eq_some_iff.mp hentity
    obtain ⟨position, hposition, hentity⟩ := Option.bind_eq_some_iff.mp hentity
    cases hentity
    unfold ComponentPool.getComponentsAtIndexes at hids hdeleted
    refine ⟨poolId :: poolIds, position :: deleted, ?_, ?_, rfl⟩
    · simp only [ComponentPool.getComponentsAtIndexes, List.mapM_cons, hid, hids]
      rfl
    · simp only [ComponentPool.getComponentsAtIndexes, List.mapM_cons, hposition, hdeleted]
      rfl

/-- The overload that looks every pool up, where all handles point somewhere: the loop over what
they point to, and then the pointers. -/
theorem destroyEntitiesRange_eq (h : handles.mapM m.pointee = some sent) :
    m.destroyEntitiesRange handles = (sent.foldlM giveBackOne m.entityPools).bind fun entityPools =>
      ((m.entityPtrPool.insertFree handles).resetEntityAtIndexes handles).map fun ptrPool =>
        ⟨entityPools, ptrPool⟩ := by
  obtain ⟨poolIds, deleted, hids, hdeleted, rfl⟩ := getComponents_of_pointees h
  have hids' : (m.entityPtrPool.insertFree handles).others.getComponentsAtIndexes handles =
      some poolIds := hids
  have hdeleted' : (m.entityPtrPool.insertFree handles).chunkPos.getComponentsAtIndexes handles =
      some deleted := hdeleted
  simp only [destroyEntitiesRange, hids', hdeleted', Option.bind_eq_bind, Option.bind_some]
  congr 1
  funext entityPools
  cases (m.entityPtrPool.insertFree handles).resetEntityAtIndexes handles with
  | none => rfl
  | some ptrPool => rfl

omit [ComponentPools R] in
/-- Destroying a handle leaves what the others point to. -/
theorem pointee_of_reset {ptrPool ptrPool' : EntityPtrPool} {cPos handle : ChunkPos}
    {entityPools entityPools' : List (ArchetypePool R)} (hne : handle ≠ cPos)
    (h : (ptrPool.insertFree [cPos]).resetEntityAtIndexes [cPos] = some ptrPool') :
    (⟨entityPools', ptrPool'⟩ : EntityManager R).pointee handle =
      (⟨entityPools, ptrPool⟩ : EntityManager R).pointee handle := by
  obtain ⟨others, hothers, h⟩ := Option.bind_eq_some_iff.mp h
  obtain ⟨chunkPos, hchunkPos, h⟩ := Option.bind_eq_some_iff.mp h
  obtain ⟨entityStatus, -, h⟩ := Option.bind_eq_some_iff.mp h
  cases h
  have hnot : handle ∉ [cPos] := fun hmem => hne (List.mem_singleton.mp hmem)
  have hid : ComponentPool.getComponent others handle = ptrPool.others.getComponent handle :=
    ComponentPool.getComponent_setComponentAtIndexes hothers hnot
  have hposition : ComponentPool.getComponent chunkPos handle =
      ptrPool.chunkPos.getComponent handle :=
    ComponentPool.getComponent_setComponentAtIndexes hchunkPos hnot
  simp only [pointee, hid, hposition]

omit [ComponentPools R] in
/-- Handles that point somewhere can be reset. -/
theorem isSome_reset_of_pointee (h : m.entityPtrPool.Shaped) {cPos : ChunkPos}
    (hentity : m.pointee cPos = some entity) :
    ((m.entityPtrPool.insertFree [cPos]).resetEntityAtIndexes [cPos]).isSome := by
  obtain ⟨poolId, -, hentity⟩ := Option.bind_eq_some_iff.mp hentity
  obtain ⟨position, hposition, -⟩ := Option.bind_eq_some_iff.mp hentity
  have hcell := (ComponentPool.isSome_getComponent_iff _ _).mp
    (Option.isSome_iff_exists.mpr ⟨position, hposition⟩)
  have hcells : ∀ index ∈ [cPos], index ∈ Grid.cells m.entityPtrPool.shape := by
    intro index hindex
    cases List.mem_singleton.mp hindex
    exact hcell
  obtain ⟨ptrPool', hreset, -⟩ := ArchetypePool.resetEntityAtIndexes_of_uniform
    (m.entityPtrPool.insertFree [cPos]) h.uniform hcells
  rw [hreset]
  rfl

/-- **Handle after handle**: what the handles point to goes back to the pools in their order, and
the pointers are reset as in one range. -/
theorem destroyTimes_eq (h : m.entityPtrPool.Shaped) (hnodup : handles.Nodup)
    (hsent : handles.mapM m.pointee = some sent) :
    m.destroyTimes handles = (sent.foldlM giveBackOne m.entityPools).bind fun entityPools =>
      ((m.entityPtrPool.insertFree handles).resetEntityAtIndexes handles).map fun ptrPool =>
        ⟨entityPools, ptrPool⟩ := by
  induction handles generalizing m sent with
  | nil =>
    cases hsent
    have hnil : (m.entityPtrPool.insertFree []).resetEntityAtIndexes [] = some m.entityPtrPool := by
      show some (m.entityPtrPool.insertFree []) = _
      rw [ArchetypePool.insertFree, List.append_nil]
    simp only [destroyTimes, List.foldlM_nil, hnil]
    rfl
  | cons handle handles ih =>
    obtain ⟨hnot, hnodup⟩ := List.nodup_cons.mp hnodup
    rw [List.mapM_cons] at hsent
    obtain ⟨entity, hentity, hsent⟩ := Option.bind_eq_some_iff.mp hsent
    obtain ⟨rest, hrest, hsent⟩ := Option.bind_eq_some_iff.mp hsent
    cases hsent
    obtain ⟨ptrPool', hreset⟩ := Option.isSome_iff_exists.mp (isSome_reset_of_pointee h hentity)
    -- one range of pointers is reset, then the rest of it
    have hrange : (m.entityPtrPool.insertFree (handle :: handles)).resetEntityAtIndexes
        (handle :: handles) = (ptrPool'.insertFree handles).resetEntityAtIndexes handles := by
      have hinsert : m.entityPtrPool.insertFree (handle :: handles) =
          (m.entityPtrPool.insertFree [handle]).insertFree handles := by
        simp only [ArchetypePool.insertFree, List.append_assoc, List.singleton_append]
      have hreset' : ((m.entityPtrPool.insertFree [handle]).insertFree handles).resetEntityAtIndexes
          [handle] = some (ptrPool'.insertFree handles) := by
        rw [ArchetypePool.reset_insertFree, hreset, Option.map_some]
      have happend := ArchetypePool.reset_append
        ((m.entityPtrPool.insertFree [handle]).insertFree handles) [handle] handles
      rw [hreset', Option.bind_some] at happend
      rw [hinsert]
      exact happend
    rw [destroyTimes, List.foldlM_cons, destroyEntity_eq hentity, List.foldlM_cons, hreset, hrange]
    cases hgive : giveBackOne m.entityPools entity with
    | none => rfl
    | some entityPools =>
      have hrest' : handles.mapM (⟨entityPools, ptrPool'⟩ : EntityManager R).pointee =
          some rest := by
        rw [← hrest]
        apply Grid.mapM_congr
        intro other hother
        exact pointee_of_reset (ne_of_mem_of_not_mem hother hnot) hreset
      exact ih (m := ⟨entityPools, ptrPool'⟩) (h.giveBack hreset) hnodup hrest'

include slots in
/-- Positions of one pool go back to it one after the other, or in one range. -/
theorem foldlM_giveBackOne_same : ∀ {deleted : List ChunkPos} {entityPools : List (ArchetypePool R)}
    {pool : ArchetypePool R}, entityPools[index]? = some pool →
      (deleted.map fun cPos => (⟨index, cPos⟩ : EntityRef)).foldlM giveBackOne entityPools =
        ((pool.insertFree deleted).resetEntityAtIndexes deleted).map fun pool =>
          entityPools.set index pool
  | [], entityPools, pool, h => by
    have hinsert : pool.insertFree [] = pool := by
      rw [ArchetypePool.insertFree, List.append_nil]
    obtain ⟨hlt, hget⟩ := List.getElem?_eq_some_iff.mp h
    rw [hinsert, ArchetypePool.reset_nil, Option.map_some, ← hget, List.set_getElem_self]
    rfl
  | cPos :: deleted, entityPools, pool, h => by
    have hlt := (List.getElem?_eq_some_iff.mp h).1
    have hinsert : pool.insertFree (cPos :: deleted) =
        (pool.insertFree [cPos]).insertFree deleted := by
      simp only [ArchetypePool.insertFree, List.append_assoc, List.singleton_append]
    have hfirst : ((pool.insertFree [cPos]).insertFree deleted).resetEntityAtIndexes [cPos] =
        (pool.resetEntityAtIndexes [cPos]).map fun pool =>
          (pool.insertFree [cPos]).insertFree deleted := by
      rw [ArchetypePool.reset_insertFree, ArchetypePool.reset_insertFree, Option.map_map]
      rfl
    have happend := ArchetypePool.reset_append ((pool.insertFree [cPos]).insertFree deleted) [cPos]
      deleted
    rw [hfirst, List.singleton_append] at happend
    rw [List.map_cons, List.foldlM_cons, hinsert, happend]
    simp only [giveBackOne, h, Option.bind_eq_bind, Option.bind_some]
    cases hreset : pool.resetEntityAtIndexes [cPos] with
    | none => rfl
    | some pool' =>
      have hget : (entityPools.set index (pool'.insertFree [cPos]))[index]? =
          some (pool'.insertFree [cPos]) := List.getElem?_set_self hlt
      simp only [Option.bind_some, Option.map_some]
      refine (foldlM_giveBackOne_same hget).trans ?_
      simp only [List.set_set]

include slots in
/-- **Told the archetype**, destroying a range is destroying handle after handle, if the handles
remember that archetype's pool. -/
theorem destroyEntitiesOf_eq (h : m.entityPtrPool.Shaped) (hnodup : handles.Nodup)
    (hpool : m.entityPools[index]? = some pool)
    (hsent : handles.mapM m.pointee = some (deleted.map fun cPos => ⟨index, cPos⟩)) :
    m.destroyEntitiesOf handles index = m.destroyTimes handles := by
  obtain ⟨poolIds, positions, hids, hpositions, hzip⟩ := getComponents_of_pointees hsent
  have hlength : positions.length ≤ poolIds.length := by
    have hlengthIds := (Grid.forall₂_of_mapM hids).length_eq
    have hlengthPositions := (Grid.forall₂_of_mapM hpositions).length_eq
    omega
  have hsame : positions = deleted := by
    have hcPos := congrArg (List.map (·.cPos)) hzip
    rw [List.map_map, List.map_map] at hcPos
    exact (List.map_snd_zip hlength).symm.trans (hcPos.trans (List.map_id _))
  subst hsame
  rw [destroyTimes_eq h hnodup hsent, foldlM_giveBackOne_same hpool]
  have hread : (m.entityPtrPool.insertFree handles).chunkPos.getComponentsAtIndexes handles =
      some positions := hpositions
  simp only [destroyEntitiesOf, hpool, hread, Option.bind_eq_bind, Option.bind_some]
  cases (pool.insertFree positions).resetEntityAtIndexes positions with
  | none =>
    cases (m.entityPtrPool.insertFree handles).resetEntityAtIndexes handles with
    | none => rfl
    | some ptrPool => rfl
  | some pool' =>
    cases (m.entityPtrPool.insertFree handles).resetEntityAtIndexes handles with
    | none => rfl
    | some ptrPool => rfl

/-- It does to different handles what destroying them one after the other does. A handle that came
twice would be read after it was reset. -/
theorem destroyEntitiesRange_eq_destroyTimes (h : m.entityPtrPool.Shaped)
    (hnodup : handles.Nodup) (hsent : handles.mapM m.pointee = some sent) :
    m.destroyEntitiesRange handles = m.destroyTimes handles := by
  rw [destroyEntitiesRange_eq hsent, destroyTimes_eq h hnodup hsent]

/-- A pool whose index is no id gets positions back only from a caller who names the archetype. -/
theorem destroyTimes_ne {m' : EntityManager R} (h : m.entityPtrPool.Shaped)
    (hnodup : handles.Nodup) (hsent : handles.mapM m.pointee = some sent) (hne : handles ≠ [])
    (hindex : 256 ≤ index) (hdestroy : m.destroyEntitiesOf handles index = some m') :
    m.destroyTimes handles ≠ some m' := by
  intro htimes
  rw [← destroyEntitiesRange_eq_destroyTimes h hnodup hsent] at htimes
  obtain ⟨pool, deleted, hpool, -, hback⟩ := givesBack_destroyEntitiesOf hdestroy
  obtain ⟨poolIds, positions, -, -, hback'⟩ := givesBack_destroyEntitiesRange htimes
  have hlt : index < m'.entityPools.length := by
    rw [hback.length]
    exact (List.getElem?_eq_some_iff.mp hpool).1
  have hget := List.getElem?_eq_getElem hlt
  obtain ⟨pool₁, hpool₁, hfree⟩ := hback.pools index _ hget
  obtain ⟨pool₂, hpool₂, hfree'⟩ := hback'.pools index _ hget
  cases hpool₁.symm.trans hpool₂
  -- no id is the pool's index
  have hnone : ((poolIds.zip positions).map fun e => (⟨e.1.toNat, e.2⟩ : EntityRef)).filter
      (·.pool = index) = [] := by
    apply List.filter_eq_nil_iff.mpr
    intro entity hentity heq
    obtain ⟨e, -, rfl⟩ := List.mem_map.mp hentity
    have hid : e.1.toNat = index := of_decide_eq_true heq
    have hbound := e.1.toNat_lt
    omega
  rw [hnone, List.map_nil, List.append_nil] at hfree'
  have hdeleted : deleted = [] := by
    have hsame := List.append_right_eq_self.mp (hfree.symm.trans hfree')
    have hall : (deleted.map fun cPos => (⟨index, cPos⟩ : EntityRef)).filter (·.pool = index) =
        deleted.map fun cPos => ⟨index, cPos⟩ := by
      apply List.filter_eq_self.mpr
      intro entity hentity
      obtain ⟨cPos, -, rfl⟩ := List.mem_map.mp hentity
      exact decide_eq_true rfl
    rw [hall, List.map_eq_nil_iff, List.map_eq_nil_iff] at hsame
    exact hsame
  have hlength := (Grid.forall₂_of_mapM hback.stored).length_eq
  rw [hdeleted, List.map_nil, List.map_nil, List.length_nil, List.length_eq_zero_iff] at hlength
  exact hne hlength

end EntityManager

end ProjectE.Ecs
