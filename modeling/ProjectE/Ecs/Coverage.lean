import ProjectE.Ecs.Iteration
import ProjectE.Ecs.Status

/-!
# What is gone over

What the loops of `Query` visit, said of the slots themselves: a slot is a pool, a chunk of it and
an index in the chunk, whatever the components are. A query that holds some entity pools goes over
the chunks of these (`chunksOf`) and over the slots of each (`placesOf`), and hands over what every
component has at the slot (`refsAt`).

`map` and `cross` cover the data exactly (`map_cross_exact`): one call for each slot, or for each
pair of slots, whatever the sizes of the chunks are, in threads as well.
-/

namespace ProjectE.Ecs

open Verif

/-- A slot of an entity pool. -/
structure Place (P : Type) where
  entityPool : P
  cPos : ChunkPos
deriving DecidableEq, Repr

/-! ## Chunks and slots -/

namespace Heap

variable {P : Type} (heap : Heap P)

/-- The size of a chunk of an entity pool. -/
def chunkSize (chunk : P × Nat) : Nat := (heap.shape chunk.1).getD chunk.2 0

/-- The chunks of an entity pool. -/
def chunksOf (ptr : P) : List (P × Nat) :=
  (List.range (heap.shape ptr).length).map fun i => (ptr, i)

/-- The slots of a chunk. -/
def placesOf (chunk : P × Nat) : List (Place P) :=
  (List.range (heap.chunkSize chunk)).map fun index => ⟨chunk.1, (chunk.2, index)⟩

/-- The slots of some entity pools. -/
def places (ptrs : List P) : List (Place P) := (ptrs.flatMap heap.chunksOf).flatMap heap.placesOf

/-- The fields of a component. -/
def fields (pool : IComponentPool P) : List Nat := List.range (heap.chunks pool).pools.length

/-- The vectors of some components for a chunk. -/
def vectorsAt (names : List String) (chunk : P × Nat) : Vectors P :=
  names.map fun name => (heap.fields ⟨chunk.1, name⟩).map fun field =>
    ⟨⟨⟨chunk.1, name⟩, field, chunk.2⟩, heap.chunkSize chunk⟩

/-- The elements of some components at a slot. -/
def refsAt (names : List String) (place : Place P) : Elems P :=
  names.map fun name => (heap.fields ⟨place.entityPool, name⟩).map fun field =>
    ⟨⟨⟨place.entityPool, name⟩, field, place.cPos.1⟩, place.cPos.2⟩

variable {heap}

theorem mem_chunksOf {ptr : P} {chunk : P × Nat} :
    chunk ∈ heap.chunksOf ptr ↔ chunk.1 = ptr ∧ chunk.2 < (heap.shape ptr).length := by
  obtain ⟨ptr', i⟩ := chunk
  simp only [chunksOf, List.mem_map, List.mem_range, Prod.mk.injEq]
  constructor
  · rintro ⟨i', hlt, rfl, rfl⟩
    exact ⟨rfl, hlt⟩
  · rintro ⟨rfl, hlt⟩
    exact ⟨i, hlt, rfl, rfl⟩

theorem getElem?_shape {ptr : P} {chunk : P × Nat} (h : chunk ∈ heap.chunksOf ptr) :
    (heap.shape chunk.1)[chunk.2]? = some (heap.chunkSize chunk) := by
  obtain ⟨rfl, hlt⟩ := mem_chunksOf.mp h
  rw [chunkSize, List.getD_eq_getElem?_getD, List.getElem?_eq_getElem hlt, Option.getD_some]

/-- A size in the layout of a pool is that of a chunk. -/
theorem exists_chunk {ptrs : List P} {ptr : P} {size : Nat} (hptr : ptr ∈ ptrs)
    (hsize : size ∈ heap.shape ptr) :
    ∃ chunk ∈ ptrs.flatMap heap.chunksOf, heap.chunkSize chunk = size := by
  obtain ⟨i, hi⟩ := List.mem_iff_getElem?.mp hsize
  have hchunk : (ptr, i) ∈ heap.chunksOf ptr :=
    mem_chunksOf.mpr ⟨rfl, (List.getElem?_eq_some_iff.mp hi).1⟩
  exact ⟨(ptr, i), List.mem_flatMap.mpr ⟨ptr, hptr, hchunk⟩,
    Option.some.inj ((getElem?_shape hchunk).symm.trans hi)⟩

theorem mem_placesOf {chunk : P × Nat} {place : Place P} : place ∈ heap.placesOf chunk ↔
    place.entityPool = chunk.1 ∧ place.cPos.1 = chunk.2 ∧
      place.cPos.2 < heap.chunkSize chunk := by
  obtain ⟨ptr, i, index⟩ := place
  simp only [placesOf, List.mem_map, List.mem_range, Place.mk.injEq, Prod.mk.injEq]
  constructor
  · rintro ⟨index', hlt, rfl, rfl, rfl⟩
    exact ⟨rfl, rfl, hlt⟩
  · rintro ⟨rfl, rfl, hlt⟩
    exact ⟨index, hlt, rfl, rfl, rfl⟩

/-- The slots of a pool are those of its layout. -/
theorem flatMap_placesOf (heap : Heap P) (ptr : P) :
    (heap.chunksOf ptr).flatMap heap.placesOf =
      (Grid.cells (heap.shape ptr)).map (Place.mk ptr) := by
  have hrows : (heap.shape ptr).zipIdx =
      (List.range (heap.shape ptr).length).map fun i => (heap.chunkSize (ptr, i), i) := by
    refine List.ext_getElem (by simp) fun i h h' => ?_
    have hlt : i < (heap.shape ptr).length := by rwa [List.length_zipIdx] at h
    rw [List.getElem_zipIdx, List.getElem_map, List.getElem_range, Nat.zero_add, chunkSize,
      List.getD_eq_getElem?_getD, List.getElem?_eq_getElem hlt, Option.getD_some]
  rw [Grid.cells, hrows, List.flatMap_map, List.map_flatMap, chunksOf, List.flatMap_map]
  refine List.flatMap_congr fun i _ => ?_
  rw [placesOf, List.map_map]
  rfl

theorem mem_places {ptrs : List P} {place : Place P} : place ∈ heap.places ptrs ↔
    place.entityPool ∈ ptrs ∧ place.cPos ∈ Grid.cells (heap.shape place.entityPool) := by
  obtain ⟨ptr, cPos⟩ := place
  simp only [places, List.flatMap_assoc, flatMap_placesOf, List.mem_flatMap, List.mem_map,
    Place.mk.injEq]
  constructor
  · rintro ⟨ptr', hptr, cPos', hcPos, rfl, rfl⟩
    exact ⟨hptr, hcPos⟩
  · rintro ⟨hptr, hcPos⟩
    exact ⟨ptr, hptr, cPos, hcPos, rfl, rfl⟩

theorem places_append (heap : Heap P) (ptrs ptrs' : List P) :
    heap.places (ptrs ++ ptrs') = heap.places ptrs ++ heap.places ptrs' := by
  rw [places, List.flatMap_append, List.flatMap_append]
  rfl

theorem nodup_chunks {ptrs : List P} (h : ptrs.Nodup) : (ptrs.flatMap heap.chunksOf).Nodup := by
  rw [List.nodup_flatMap]
  constructor
  · intro ptr _
    exact List.nodup_range.map fun i i' heq => congrArg Prod.snd heq
  · refine h.imp fun {ptr ptr'} hne chunk hmem hmem' => ?_
    exact hne ((mem_chunksOf.mp hmem).1.symm.trans (mem_chunksOf.mp hmem').1)

theorem nodup_places {ptrs : List P} (h : ptrs.Nodup) : (heap.places ptrs).Nodup := by
  rw [places, List.nodup_flatMap]
  constructor
  · intro chunk _
    exact List.nodup_range.map fun i i' heq => congrArg (fun place => place.cPos.2) heq
  · refine (nodup_chunks h).imp fun {chunk chunk'} hne place hmem hmem' => ?_
    obtain ⟨hpool, hrow, -⟩ := mem_placesOf.mp hmem
    obtain ⟨hpool', hrow', -⟩ := mem_placesOf.mp hmem'
    exact hne (Prod.ext (hpool.symm.trans hpool') (hrow.symm.trans hrow'))

/-! ## Vectors and references -/

theorem chunkCount_eq (c : IComponentPool P) :
    (heap.chunks c).chunkCount = (heap.shape c.entityPool).length :=
  congrArg List.length (heap.uniform c _ List.mem_cons_self)

/-- A component has a vector in each field for a chunk of its pool, all of the size of the chunk. -/
theorem getRawStdVectors_eq {ptr : P} {chunk : P × Nat} (h : chunk ∈ heap.chunksOf ptr)
    (name : String) : heap.getRawStdVectors chunk.2 ⟨chunk.1, name⟩ =
      some ((heap.fields ⟨chunk.1, name⟩).map fun field =>
        ⟨⟨⟨chunk.1, name⟩, field, chunk.2⟩, heap.chunkSize chunk⟩) := by
  have hall : ∀ field ∈ (heap.chunks ⟨chunk.1, name⟩).pools.zipIdx,
      (field.1[chunk.2]?.map fun size =>
        (⟨⟨⟨chunk.1, name⟩, field.2, chunk.2⟩, size⟩ : VectorRef P)) =
      some ⟨⟨⟨chunk.1, name⟩, field.2, chunk.2⟩, heap.chunkSize chunk⟩ := by
    intro field hfield
    have hshape := heap.uniform ⟨chunk.1, name⟩ field.1 (List.fst_mem_of_mem_zipIdx hfield)
    rw [hshape, getElem?_shape h, Option.map_some]
  rw [getRawStdVectors, Grid.mapM_eq_some_map hall, fields, List.range_eq_range',
    ← List.zipIdx_map_snd, List.map_map]
  rfl

theorem mapM_getRawStdVectors {ptr : P} {chunk : P × Nat} (h : chunk ∈ heap.chunksOf ptr)
    (names : List String) : (names.map (IComponentPool.mk ptr)).mapM
      (heap.getRawStdVectors chunk.2) = some (heap.vectorsAt names chunk) := by
  rw [← (mem_chunksOf.mp h).1, List.mapM_map]
  exact Grid.mapM_eq_some_map fun name _ => getRawStdVectors_eq h name

/-- A component has a first field. -/
theorem fields_eq_cons (heap : Heap P) (pool : IComponentPool P) :
    heap.fields pool = 0 :: (List.range (heap.chunks pool).others.length).map Nat.succ :=
  List.range_succ_eq_map

/-- The first vector is that of the first field of the first component. -/
theorem firstVector_vectorsAt (name : String) (names : List String) (chunk : P × Nat) :
    Query.firstVector (heap.vectorsAt (name :: names) chunk) =
      some ⟨⟨⟨chunk.1, name⟩, 0, chunk.2⟩, heap.chunkSize chunk⟩ := by
  rw [Query.firstVector, vectorsAt, List.map_cons, List.head?_cons, Option.bind_some,
    fields_eq_cons, List.map_cons, List.head?_cons]

/-- What `_getReferencesAtIndex` hands over, where it is in bounds. -/
theorem getReferencesAtIndex_eq {chunk : P × Nat} {i : Nat} (h : i < heap.chunkSize chunk)
    (names : List String) : Query.getReferencesAtIndex i (heap.vectorsAt names chunk) =
      some (heap.refsAt names ⟨chunk.1, (chunk.2, i)⟩) := by
  rw [Query.getReferencesAtIndex, vectorsAt, List.mapM_map]
  refine Grid.mapM_eq_some_map fun name _ => ?_
  rw [Function.comp_apply, Query.getInnerReferencesAtIndex, List.mapM_map]
  exact Grid.mapM_eq_some_map fun field _ => if_pos h

/-- It is in bounds only there. -/
theorem lt_of_getReferencesAtIndex {chunk : P × Nat} {i : Nat} {name : String}
    {names : List String}
    (h : (Query.getReferencesAtIndex i (heap.vectorsAt (name :: names) chunk)).isSome) :
    i < heap.chunkSize chunk := by
  rw [Query.getReferencesAtIndex, isSome_mapM_iff] at h
  have hfirst := h _ List.mem_cons_self
  rw [Query.getInnerReferencesAtIndex, isSome_mapM_iff] at hfirst
  have hzero : 0 ∈ heap.fields ⟨chunk.1, name⟩ := List.mem_range.mpr (Nat.succ_pos _)
  have hsome := hfirst _ (List.mem_map_of_mem hzero)
  by_contra hge
  rw [if_neg hge] at hsome
  cases hsome

end Heap

/-- The slot of the first of the elements handed over. -/
def Elems.place {P : Type} (refTuple : Elems P) : Option (Place P) :=
  (refTuple.head?.bind (·.head?)).map fun ref =>
    ⟨ref.addr.pool.entityPool, (ref.addr.chunk, ref.index)⟩

/-- Different slots have different elements. -/
theorem Heap.place_refsAt {P : Type} (heap : Heap P) (name : String) (names : List String)
    (place : Place P) : (heap.refsAt (name :: names) place).place = some place := by
  rw [Elems.place, refsAt, List.map_cons, List.head?_cons, Option.bind_some, fields_eq_cons,
    List.map_cons, List.head?_cons]
  rfl

theorem Heap.refsAt_injective {P : Type} (heap : Heap P) (name : String) (names : List String) :
    Function.Injective (heap.refsAt (name :: names)) := by
  intro place place' h
  have hplaces := congrArg Elems.place h
  rw [heap.place_refsAt, heap.place_refsAt] at hplaces
  exact Option.some.inj hplaces

/-! ## What the loops go over -/

namespace Query

variable {P E : Type} {heap : Heap P} {query otherQuery : Query P} {name name' : String}
  {names names' : List String} {ptrs ptrs' : List P}

/-- The component pools of an entity pool that a query of these components holds. -/
def poolsOf (names : List String) (ptr : P) : List (IComponentPool P) :=
  names.map (IComponentPool.mk ptr)

/-- The query is one of these components and holds their pools of these entity pools. -/
structure Holds (query : Query P) (names : List String) (ptrs : List P) : Prop where
  componentNames : query.componentNames = names
  arrays : query.componentPoolsArrays = ptrs.map fun ptr => (poolsOf names ptr).map some

/-- The pools with these components, of those offered. -/
def taken (names : List String) (offered : List (IArchetypePool P)) : List P :=
  (offered.filter ((Query.new names : Query P).Matches ·)).map (·.ptr)

theorem initializeQuery_eq (offered : List (IArchetypePool P)) (query : Query P) :
    initializeQuery offered query = query.withPools offered := by
  induction offered generalizing query with
  | nil => exact query.withPools_nil.symm
  | cons pool offered ih =>
    rw [initializeQuery, List.foldl_cons]
    refine (ih _).trans ?_
    rw [← withPools_singleton, ← withPools_append, List.singleton_append]

theorem Holds.new (names : List String) : (Query.new names : Query P).Holds names [] :=
  ⟨rfl, rfl⟩

/-- The pools offered to a query are added to those it holds. -/
theorem Holds.initializeQuery (h : query.Holds names ptrs) (offered : List (IArchetypePool P)) :
    (initializeQuery offered query).Holds names (ptrs ++ taken names offered) := by
  obtain ⟨rfl, harrays⟩ := h
  rw [initializeQuery_eq]
  refine ⟨rfl, ?_⟩
  rw [withPools, harrays, List.map_append, taken, List.map_map]
  refine congrArg _ (List.map_congr_left fun pool _ => ?_)
  rw [componentPoolsArray, Function.comp_apply, poolsOf, List.map_map]
  rfl

theorem holds_initializeQuery (names : List String) (offered : List (IArchetypePool P)) :
    (Ecs.initializeQuery offered (Query.new names)).Holds names (taken names offered) :=
  (Holds.new names).initializeQuery offered

theorem mapM_id_some {l : List E} : (l.map some).mapM id = some l := by
  rw [List.mapM_map]
  exact (Grid.mapM_eq_some_map fun _ _ => rfl).trans (congrArg some (List.map_id l))

theorem pMap_eq (h : query.Holds names ptrs) {f : List (IComponentPool P) → Option (List E)}
    {g : P → List E} (hf : ∀ ptr ∈ ptrs, f (poolsOf names ptr) = some (g ptr)) :
    query.pMap f = some (ptrs.map g) := by
  rw [pMap, h.arrays, List.mapM_map]
  refine Grid.mapM_eq_some_map fun ptr hptr => ?_
  rw [Function.comp_apply, mapM_id_some]
  exact hf ptr hptr

theorem cMap_eq (h : query.Holds (name :: names) ptrs) {f : Vectors P → Option (List E)}
    {g : P × Nat → List E} (startCB endCB : List (IComponentPool P) → List E)
    (hf : ∀ chunk ∈ ptrs.flatMap heap.chunksOf,
      f (heap.vectorsAt (name :: names) chunk) = some (g chunk)) :
    query.cMap heap f startCB endCB = some (ptrs.map fun ptr =>
      startCB (poolsOf (name :: names) ptr) ++
        ((heap.chunksOf ptr).flatMap g ++ endCB (poolsOf (name :: names) ptr))) := by
  refine pMap_eq h fun ptr hptr => ?_
  have hchunks : (forEach (List.range (heap.chunks ⟨ptr, name⟩).chunkCount) fun i => do
      let componentVectors ← (poolsOf (name :: names) ptr).mapM (heap.getRawStdVectors i)
      f componentVectors) = some ((heap.chunksOf ptr).flatMap g) := by
    rw [Heap.chunkCount_eq, Heap.chunksOf, List.flatMap_map]
    refine forEach_eq_some fun i hi => ?_
    have hmem : (ptr, i) ∈ heap.chunksOf ptr :=
      Heap.mem_chunksOf.mpr ⟨rfl, List.mem_range.mp hi⟩
    have hvectors := Heap.mapM_getRawStdVectors hmem (name :: names)
    rw [poolsOf, hvectors]
    exact hf (ptr, i) (List.mem_flatMap.mpr ⟨ptr, hptr, hmem⟩)
  have hfirst : (poolsOf (name :: names) ptr).head? = some ⟨ptr, name⟩ := rfl
  exact Option.bind_eq_some_iff.mpr ⟨_, hfirst, Option.bind_eq_some_iff.mpr ⟨_, hchunks, rfl⟩⟩

/-- What `map` calls for a pool. -/
def poolEvents (heap : Heap P) (names : List String) (callbacks : MapCallbacks) (ptr : P) :
    List (MapEvent P) :=
  (if callbacks.pMapStartCB then [.pMapStart (poolsOf names ptr)] else []) ++
    ((heap.chunksOf ptr).flatMap (fun chunk =>
      (if callbacks.startCB then [.start (heap.vectorsAt names chunk)] else []) ++
        ((heap.placesOf chunk).map (fun place => .call (heap.refsAt names place)) ++
          if callbacks.endCB then [.end (heap.vectorsAt names chunk)] else [])) ++
      if callbacks.pMapEndCB then [.pMapEnd (poolsOf names ptr)] else [])

theorem map_eq (h : query.Holds (name :: names) ptrs) (callbacks : MapCallbacks) :
    query.map heap callbacks =
      some (ptrs.map (poolEvents heap (name :: names) callbacks)) := by
  refine cMap_eq h _ _ fun chunk _ => ?_
  have hcalls : (forEach (List.range (heap.chunkSize chunk)) fun i => do
      let refTuple ← getReferencesAtIndex i (heap.vectorsAt (name :: names) chunk)
      return [MapEvent.call refTuple]) = some ((heap.placesOf chunk).map fun place =>
        .call (heap.refsAt (name :: names) place)) := by
    rw [Heap.placesOf, List.map_map, ← List.flatMap_singleton' (List.map _ _), List.flatMap_map]
    refine forEach_eq_some fun i hi => ?_
    rw [Heap.getReferencesAtIndex_eq (List.mem_range.mp hi)]
    rfl
  exact Option.bind_eq_some_iff.mpr ⟨_, Heap.firstVector_vectorsAt name names chunk,
    Option.bind_eq_some_iff.mpr ⟨_, hcalls, rfl⟩⟩

/-! ## Pairs -/

section Pairs

variable [DecidableEq P]

/-- The pairs of slots handed over: all of them, or those of `_selfCrossOperate`. -/
def visits (selfCross : Bool) (place place' : Place P) : Bool :=
  !selfCross || decide (place'.cPos.2 ≤ place.cPos.2 ∧ place ≠ place')

/-- What is called for a pair of slots. -/
def pairCall (heap : Heap P) (names names' : List String) (selfCross : Bool)
    (place place' : Place P) : List (Elems P × Elems P) :=
  if visits selfCross place place' then [(heap.refsAt names place, heap.refsAt names' place')]
  else []

/-- The calls for the pairs of the slots of some pools. -/
def pairCalls (heap : Heap P) (names names' : List String) (selfCross : Bool)
    (places places' : List (Place P)) : List (Elems P × Elems P) :=
  places.flatMap fun place => places'.flatMap (pairCall heap names names' selfCross place)

theorem crossOperate_eq (chunk chunk' : P × Nat) :
    crossOperate (heap.vectorsAt (name :: names) chunk) (heap.vectorsAt (name' :: names') chunk') =
      some (pairCalls heap (name :: names) (name' :: names') false (heap.placesOf chunk)
        (heap.placesOf chunk')) := by
  rw [crossOperate, Heap.firstVector_vectorsAt, Heap.firstVector_vectorsAt]
  simp only [Option.bind_eq_bind, Option.bind_some]
  rw [pairCalls, Heap.placesOf, Heap.placesOf, List.flatMap_map]
  refine forEach_eq_some fun i hi => ?_
  rw [List.flatMap_map]
  refine forEach_eq_some fun j hj => ?_
  rw [Heap.getReferencesAtIndex_eq (List.mem_range.mp hi),
    Heap.getReferencesAtIndex_eq (List.mem_range.mp hj)]
  rfl

theorem selfCrossOperate_eq {chunk chunk' : P × Nat}
    (hle : heap.chunkSize chunk ≤ heap.chunkSize chunk') :
    selfCrossOperate (heap.vectorsAt (name :: names) chunk)
        (heap.vectorsAt (name :: names) chunk') =
      some (pairCalls heap (name :: names) (name :: names) true (heap.placesOf chunk)
        (heap.placesOf chunk')) := by
  rw [selfCrossOperate, Heap.firstVector_vectorsAt, Heap.firstVector_vectorsAt]
  simp only [Option.bind_eq_bind, Option.bind_some]
  rw [pairCalls, Heap.placesOf, Heap.placesOf, List.flatMap_map]
  refine forEach_eq_some fun i hi => ?_
  have hi := List.mem_range.mp hi
  have hsame : (⟨⟨chunk.1, name⟩, 0, chunk.2⟩ : VectorAddr P) = ⟨⟨chunk'.1, name⟩, 0, chunk'.2⟩ ↔
      chunk = chunk' := by
    simp only [VectorAddr.mk.injEq, IComponentPool.mk.injEq, true_and, and_true, Prod.ext_iff]
  -- the numbers the inner loop does not come to are those left out
  have hinner : ((List.range (heap.chunkSize chunk')).flatMap fun j =>
      pairCall heap (name :: names) (name :: names) true ⟨chunk.1, (chunk.2, i)⟩
        ⟨chunk'.1, (chunk'.2, j)⟩) =
      (List.range (i + 1)).flatMap fun j => if chunk = chunk' ∧ i = j then [] else
        [(heap.refsAt (name :: names) ⟨chunk.1, (chunk.2, i)⟩,
          heap.refsAt (name :: names) ⟨chunk'.1, (chunk'.2, j)⟩)] := by
    rw [flatMap_range_le (Nat.lt_of_lt_of_le hi hle)]
    refine List.flatMap_congr fun j _ => ?_
    have heq : (⟨chunk.1, (chunk.2, i)⟩ : Place P) = ⟨chunk'.1, (chunk'.2, j)⟩ ↔
        chunk = chunk' ∧ i = j := by
      simp only [Place.mk.injEq, Prod.ext_iff, and_assoc]
    simp only [pairCall, visits, Bool.not_true, Bool.false_or, decide_eq_true_eq, ne_eq, heq]
    by_cases hj : j ≤ i
    · by_cases hself : chunk = chunk' ∧ i = j
      · rw [if_neg fun h => h.2 hself, if_pos hj, if_pos hself]
      · rw [if_pos ⟨hj, hself⟩, if_pos hj, if_neg hself]
    · rw [if_neg fun h => hj h.1, if_neg hj]
  rw [List.flatMap_map, hinner]
  refine forEach_eq_some fun j hj => ?_
  have hj := Nat.lt_succ_iff.mp (List.mem_range.mp hj)
  simp only [hsame]
  split
  · rfl
  · rw [Heap.getReferencesAtIndex_eq hi,
      Heap.getReferencesAtIndex_eq (Nat.lt_of_le_of_lt hj (Nat.lt_of_lt_of_le hi hle))]
    rfl

/-- The calls for the slots of two entity pools, chunk by chunk. -/
def poolPairCalls (heap : Heap P) (names names' : List String) (selfCross : Bool) (ptr ptr' : P) :
    List (Elems P × Elems P) :=
  (heap.chunksOf ptr).flatMap fun chunk => (heap.chunksOf ptr').flatMap fun chunk' =>
    pairCalls heap names names' selfCross (heap.placesOf chunk) (heap.placesOf chunk')

/-- `_selfCrossOperate` is given the vectors of one query, and the second are not the shorter
ones. -/
def Fits (heap : Heap P) (names names' : List String) (chunks chunks' : List (P × Nat)) : Prop :=
  names = names' ∧ ∀ chunk ∈ chunks, ∀ chunk' ∈ chunks',
    heap.chunkSize chunk ≤ heap.chunkSize chunk'

/-- The loops over the chunks of two entity pools. -/
theorem crossPools_forEach (selfCross : Bool) (ptr ptr' : P) :
    crossPools heap selfCross ((poolsOf (name :: names) ptr).map some)
        ((poolsOf (name' :: names') ptr').map some) =
      forEach (heap.chunksOf ptr) fun chunk => forEach (heap.chunksOf ptr') fun chunk' =>
        if selfCross then
          selfCrossOperate (heap.vectorsAt (name :: names) chunk)
            (heap.vectorsAt (name' :: names') chunk')
        else
          crossOperate (heap.vectorsAt (name :: names) chunk)
            (heap.vectorsAt (name' :: names') chunk') := by
  have hfirst : (poolsOf (name :: names) ptr).head? = some ⟨ptr, name⟩ := rfl
  have hfirst' : (poolsOf (name' :: names') ptr').head? = some ⟨ptr', name'⟩ := rfl
  rw [crossPools, mapM_id_some, mapM_id_some]
  simp only [hfirst, hfirst', Option.bind_eq_bind, Option.bind_some]
  rw [Heap.chunkCount_eq, Heap.chunkCount_eq, Heap.chunksOf, Heap.chunksOf, forEach_map]
  refine forEach_congr fun k hk => ?_
  rw [Function.comp_apply, forEach_map]
  refine forEach_congr fun l hl => ?_
  have hchunk : (ptr, k) ∈ heap.chunksOf ptr := Heap.mem_chunksOf.mpr ⟨rfl, List.mem_range.mp hk⟩
  have hchunk' : (ptr', l) ∈ heap.chunksOf ptr' :=
    Heap.mem_chunksOf.mpr ⟨rfl, List.mem_range.mp hl⟩
  have hvectors := Heap.mapM_getRawStdVectors hchunk (name :: names)
  have hvectors' := Heap.mapM_getRawStdVectors hchunk' (name' :: names')
  rw [poolsOf, poolsOf, hvectors, hvectors']
  rfl

theorem crossPools_eq {selfCross : Bool} {ptr ptr' : P}
    (hfits : selfCross = true →
      Fits heap (name :: names) (name' :: names') (heap.chunksOf ptr) (heap.chunksOf ptr')) :
    crossPools heap selfCross ((poolsOf (name :: names) ptr).map some)
        ((poolsOf (name' :: names') ptr').map some) =
      some (poolPairCalls heap (name :: names) (name' :: names') selfCross ptr ptr') := by
  rw [crossPools_forEach]
  refine forEach_eq_some fun chunk hchunk => forEach_eq_some fun chunk' hchunk' => ?_
  cases selfCross with
  | false => exact crossOperate_eq chunk chunk'
  | true =>
    obtain ⟨hnames, hsizes⟩ := hfits rfl
    cases hnames
    exact selfCrossOperate_eq (hsizes _ hchunk _ hchunk')

theorem cross_eq {selfCross : Bool} (h : query.Holds (name :: names) ptrs)
    (h' : otherQuery.Holds (name' :: names') ptrs')
    (hfits : selfCross = true → Fits heap (name :: names) (name' :: names')
      (ptrs.flatMap heap.chunksOf) (ptrs'.flatMap heap.chunksOf)) :
    query.cross heap otherQuery selfCross = some (ptrs.map fun ptr => ptrs'.flatMap
      (poolPairCalls heap (name :: names) (name' :: names') selfCross ptr)) := by
  rw [cross, h.arrays, h'.arrays, List.mapM_map]
  refine Grid.mapM_eq_some_map fun ptr hptr => ?_
  rw [Function.comp_apply, forEach, List.mapM_map]
  have hpools : ptrs'.mapM (crossPools heap selfCross ((poolsOf (name :: names) ptr).map some) ∘
      fun ptr' => (poolsOf (name' :: names') ptr').map some) =
      some (ptrs'.map (poolPairCalls heap (name :: names) (name' :: names') selfCross ptr)) := by
    refine Grid.mapM_eq_some_map fun ptr' hptr' => crossPools_eq fun hself => ?_
    obtain ⟨hnames, hsizes⟩ := hfits hself
    refine ⟨hnames, fun chunk hchunk chunk' hchunk' => ?_⟩
    exact hsizes chunk (List.mem_flatMap.mpr ⟨ptr, hptr, hchunk⟩) chunk'
      (List.mem_flatMap.mpr ⟨ptr', hptr', hchunk'⟩)
  rw [hpools, Option.map_some, List.flatMap_def]

theorem cross_eq_of_not_self (h : query.Holds (name :: names) ptrs)
    (h' : otherQuery.Holds (name' :: names') ptrs') :
    query.cross heap otherQuery false = some (ptrs.map fun ptr => ptrs'.flatMap
      (poolPairCalls heap (name :: names) (name' :: names') false ptr)) :=
  cross_eq h h' fun hself => absurd hself Bool.false_ne_true

/-- The calls are those for the pairs of slots, chunk by chunk. -/
theorem flatten_pairCalls_perm (heap : Heap P) (names names' : List String) (selfCross : Bool)
    (ptrs ptrs' : List P) :
    (ptrs.map fun ptr => ptrs'.flatMap
      (poolPairCalls heap names names' selfCross ptr)).flatten.Perm
      (pairCalls heap names names' selfCross (heap.places ptrs) (heap.places ptrs')) := by
  rw [← List.flatMap_def]
  have hchunks : (ptrs.flatMap fun ptr => ptrs'.flatMap
      (poolPairCalls heap names names' selfCross ptr)).Perm
      ((ptrs.flatMap heap.chunksOf).flatMap fun chunk =>
        (ptrs'.flatMap heap.chunksOf).flatMap fun chunk' =>
          pairCalls heap names names' selfCross (heap.placesOf chunk) (heap.placesOf chunk')) :=
    flatMap_chunks_perm ptrs ptrs' heap.chunksOf heap.chunksOf fun chunk chunk' =>
      pairCalls heap names names' selfCross (heap.placesOf chunk) (heap.placesOf chunk')
  exact hchunks.trans (flatMap_chunks_perm (ptrs.flatMap heap.chunksOf)
    (ptrs'.flatMap heap.chunksOf) heap.placesOf heap.placesOf
    (pairCall heap names names' selfCross))

end Pairs

end Query

/-! ## Everything once -/

/-- What `f` is called with. -/
def MapEvent.refTuple {P : Type} : MapEvent P → Option (Elems P)
  | .call refTuple => some refTuple
  | _ => none

/-- The entity pool of what a callback is called with. -/
def MapEvent.entityPool {P : Type} : MapEvent P → Option P
  | .pMapStart componentPools => componentPools.head?.map (·.entityPool)
  | .start componentVectors => (Query.firstVector componentVectors).map (·.addr.pool.entityPool)
  | .call refTuple => refTuple.place.map (·.entityPool)
  | .end componentVectors => (Query.firstVector componentVectors).map (·.addr.pool.entityPool)
  | .pMapEnd componentPools => componentPools.head?.map (·.entityPool)

section Covers

variable {P : Type} [DecidableEq P]

/-- `f` is called once for each slot, with what every component has there, and for each pool the
callbacks enclose its chunks and its slots. -/
structure MapCovers (heap : Heap P) (names : List String) (callbacks : MapCallbacks)
    (ptrs : List P) (trace : List (MapEvent P)) : Prop where
  calls : (trace.filterMap (·.refTuple)).Perm ((heap.places ptrs).map (heap.refsAt names))
  once : (trace.filterMap (·.refTuple)).Nodup
  pools : ∀ event ∈ trace, ∃ ptr ∈ ptrs, event.entityPool = some ptr
  enclosed : ∀ ptr ∈ ptrs, trace.filter (·.entityPool = some ptr) =
    Query.poolEvents heap names callbacks ptr

/-- `f` is called once for each slot of one and slot of the other. -/
structure CrossCovers (heap : Heap P) (names names' : List String) (ptrs ptrs' : List P)
    (trace : List (Elems P × Elems P)) : Prop where
  calls : trace.Perm ((heap.places ptrs ×ˢ heap.places ptrs').map fun places =>
    (heap.refsAt names places.1, heap.refsAt names' places.2))
  once : trace.Nodup

namespace Query

variable {heap : Heap P} {name name' : String} {names names' : List String} {ptrs ptrs' : List P}
  {callbacks : MapCallbacks}

omit [DecidableEq P] in
theorem filterMap_poolEvents (ptr : P) :
    (poolEvents heap names callbacks ptr).filterMap (·.refTuple) =
      (heap.places [ptr]).map (heap.refsAt names) := by
  have hcalls : ∀ chunk, ((heap.placesOf chunk).map fun place =>
      MapEvent.call (heap.refsAt names place)).filterMap (·.refTuple) =
      (heap.placesOf chunk).map (heap.refsAt names) := fun chunk => by
    rw [List.filterMap_map]
    exact congrFun (List.filterMap_eq_map (f := heap.refsAt names)) _
  have hnone : ∀ (b : Bool) (event : MapEvent P), event.refTuple = none →
      (if b then [event] else []).filterMap (·.refTuple) = [] := fun b event h => by
    cases b
    · rfl
    · exact List.filterMap_cons_none h
  simp only [poolEvents, List.filterMap_append, List.filterMap_flatMap, hcalls,
    hnone _ (.pMapStart _) rfl, hnone _ (.start _) rfl, hnone _ (.end _) rfl,
    hnone _ (.pMapEnd _) rfl, List.nil_append, List.append_nil, Heap.places, List.flatMap_cons,
    List.flatMap_nil, List.map_flatMap]

omit [DecidableEq P] in
/-- Whatever is called for a pool is called with what belongs to it. -/
theorem entityPool_of_mem_poolEvents {ptr : P} {event : MapEvent P}
    (h : event ∈ poolEvents heap (name :: names) callbacks ptr) :
    event.entityPool = some ptr := by
  have hif : ∀ (b : Bool) (e : MapEvent P), event ∈ (if b then [e] else []) → event = e :=
    fun b e h => by
      cases b
      · cases h
      · exact List.mem_singleton.mp h
  have hvector : ∀ chunk ∈ heap.chunksOf ptr,
      (firstVector (heap.vectorsAt (name :: names) chunk)).map (·.addr.pool.entityPool) =
        some ptr := fun chunk hchunk => by
    rw [Heap.firstVector_vectorsAt, ← (Heap.mem_chunksOf.mp hchunk).1]
    rfl
  simp only [poolEvents, List.mem_append, List.mem_flatMap, List.mem_map] at h
  rcases h with h | ⟨chunk, hchunk, h | ⟨place, hplace, rfl⟩ | h⟩ | h
  · cases hif _ _ h
    rfl
  · cases hif _ _ h
    exact hvector chunk hchunk
  · rw [MapEvent.entityPool, Heap.place_refsAt, Option.map_some, (Heap.mem_placesOf.mp hplace).1,
      (Heap.mem_chunksOf.mp hchunk).1]
  · cases hif _ _ h
    exact hvector chunk hchunk
  · cases hif _ _ h
    rfl

/-- The calls of `map`, one pool after the other or all at once. -/
theorem mapCovers (hdistinct : ptrs.Nodup) {isParallel : Bool} {trace : List (MapEvent P)}
    (h : Runs isParallel (ptrs.map (poolEvents heap (name :: names) callbacks)) trace) :
    MapCovers heap (name :: names) callbacks ptrs trace := by
  have hperm := h.perm
  rw [← List.flatMap_def] at hperm
  have hcalls : (trace.filterMap (·.refTuple)).Perm
      ((heap.places ptrs).map (heap.refsAt (name :: names))) := by
    refine (hperm.filterMap _).trans (.of_eq ?_)
    rw [List.filterMap_flatMap]
    simp only [filterMap_poolEvents, Heap.places, List.flatMap_cons, List.flatMap_nil,
      List.append_nil, List.map_flatMap, List.flatMap_assoc]
  refine ⟨hcalls, ?_, fun event hevent => ?_, fun ptr hptr => ?_⟩
  · rw [hcalls.nodup_iff]
    exact (Heap.nodup_places hdistinct).map (heap.refsAt_injective name names)
  · obtain ⟨ptr, hptr, hmem⟩ := List.mem_flatMap.mp (hperm.mem_iff.mp hevent)
    exact ⟨ptr, hptr, entityPool_of_mem_poolEvents hmem⟩
  · obtain ⟨i, hi⟩ := List.mem_iff_getElem?.mp hptr
    refine h.filter_eq (i := i) ?_ ?_ ?_
    · rw [List.getElem?_map, hi, Option.map_some]
    · intro event hevent
      exact decide_eq_true (entityPool_of_mem_poolEvents hevent)
    · intro j events hj hne event hevent
      obtain ⟨ptr', hptr', rfl⟩ := Option.map_eq_some_iff.mp ((List.getElem?_map ..).symm.trans hj)
      refine decide_eq_false fun heq => hne ?_
      cases (entityPool_of_mem_poolEvents hevent).symm.trans heq
      exact (List.getElem?_inj (List.getElem?_eq_some_iff.mp hptr').1 hdistinct).mp
        (hptr'.trans hi.symm)

theorem pairCalls_append_left (selfCross : Bool) (places₁ places₂ places' : List (Place P)) :
    pairCalls heap names names' selfCross (places₁ ++ places₂) places' =
      pairCalls heap names names' selfCross places₁ places' ++
        pairCalls heap names names' selfCross places₂ places' :=
  List.flatMap_append

theorem pairCalls_append_right_perm (selfCross : Bool) (places places₁ places₂ : List (Place P)) :
    (pairCalls heap names names' selfCross places (places₁ ++ places₂)).Perm
      (pairCalls heap names names' selfCross places places₁ ++
        pairCalls heap names names' selfCross places places₂) := by
  simp only [pairCalls, List.flatMap_append]
  exact (List.flatMap_append_perm places _ _).symm

theorem pairCalls_eq_nil_iff {selfCross : Bool} {places places' : List (Place P)} :
    pairCalls heap names names' selfCross places places' = [] ↔
      ∀ place ∈ places, ∀ place' ∈ places', visits selfCross place place' = false := by
  simp only [pairCalls, List.flatMap_eq_nil_iff]
  refine forall₂_congr fun place _ => forall₂_congr fun place' _ => ?_
  rw [pairCall]
  cases visits selfCross place place'
  · exact iff_of_true rfl rfl
  · exact iff_of_false (List.cons_ne_nil _ _) Bool.false_ne_true.symm

/-- All pairs of slots are handed over that are not left out. -/
theorem pairCalls_eq (selfCross : Bool) (places places' : List (Place P)) :
    pairCalls heap names names' selfCross places places' =
      ((places ×ˢ places').filter fun pair => visits selfCross pair.1 pair.2).map fun pair =>
        (heap.refsAt names pair.1, heap.refsAt names' pair.2) := by
  simp only [pairCalls, SProd.sprod, List.product, List.filter_flatMap, List.map_flatMap]
  refine List.flatMap_congr fun place _ => ?_
  rw [List.filter_map, List.map_map]
  exact flatMap_if places' _ _

theorem crossCovers (hdistinct : ptrs.Nodup) (hdistinct' : ptrs'.Nodup) {isParallel : Bool}
    {trace : List (Elems P × Elems P)}
    (h : Runs isParallel (ptrs.map fun ptr => ptrs'.flatMap
      (poolPairCalls heap (name :: names) (name' :: names') false ptr)) trace) :
    CrossCovers heap (name :: names) (name' :: names') ptrs ptrs' trace := by
  have hcalls := h.perm.trans
    (flatten_pairCalls_perm heap (name :: names) (name' :: names') false ptrs ptrs')
  have hall : ((heap.places ptrs ×ˢ heap.places ptrs').filter fun pair =>
      visits false pair.1 pair.2) = heap.places ptrs ×ˢ heap.places ptrs' :=
    List.filter_eq_self.mpr fun _ _ => rfl
  rw [pairCalls_eq, hall] at hcalls
  refine ⟨hcalls, ?_⟩
  rw [hcalls.nodup_iff]
  refine ((Heap.nodup_places hdistinct).product (Heap.nodup_places hdistinct')).map ?_
  exact (heap.refsAt_injective name names).prodMap (heap.refsAt_injective name' names')

/-- **`map` and `cross` cover the data exactly**, whatever chunks the pools have: `map` calls `f`
once for each slot of the pools taken, `cross` once for each slot and slot of the other query. In
threads the calls are the same, and those of a pool are in their order. -/
theorem map_cross_exact (heap : Heap P) (name name' : String) (names names' : List String)
    (offered offered' : List (IArchetypePool P)) (callbacks : MapCallbacks)
    (hdistinct : (taken (name :: names) offered).Nodup)
    (hdistinct' : (taken (name' :: names') offered').Nodup) :
    let query := initializeQuery offered (Query.new (name :: names))
    let otherQuery := initializeQuery offered' (Query.new (name' :: names'))
    (∃ work, query.map heap callbacks = some work ∧
      ∀ isParallel trace, Runs isParallel work trace →
        MapCovers heap (name :: names) callbacks (taken (name :: names) offered) trace) ∧
    ∃ work, query.cross heap otherQuery false = some work ∧
      ∀ isParallel trace, Runs isParallel work trace →
        CrossCovers heap (name :: names) (name' :: names') (taken (name :: names) offered)
          (taken (name' :: names') offered') trace := by
  have hquery := holds_initializeQuery (name :: names) offered
  have hother := holds_initializeQuery (name' :: names') offered'
  refine ⟨⟨_, map_eq hquery callbacks, fun isParallel trace hrun => ?_⟩,
    ⟨_, cross_eq_of_not_self hquery hother, fun isParallel trace hrun => ?_⟩⟩
  · exact mapCovers hdistinct hrun
  · exact crossCovers hdistinct hdistinct' hrun

/-- Two pools, one with chunks of 2 and 1 slots and one with a chunk of 3. -/
theorem map_cross_exact_two :
    let heap : Heap Nat := (((Heap.new fun _ => 1).addChunk 0 2).addChunk 1 3).addChunk 0 1
    (∃ trace, MapCovers heap ["B"] ⟨true, true, true, true⟩ [0, 1] trace ∧ trace.length = 16) ∧
      ∃ trace, CrossCovers heap ["B"] ["A"] [0, 1] [0] trace ∧ trace.length = 18 := by
  intro heap
  let pools : List (IArchetypePool Nat) := [⟨0, ["A", "B"], by decide⟩, ⟨1, ["B"], by decide⟩]
  have htaken : taken ["B"] pools = [0, 1] := by decide +kernel
  have htaken' : taken ["A"] pools = [0] := by decide +kernel
  obtain ⟨⟨work, hmap, hcovers⟩, ⟨work', hcross, hcovers'⟩⟩ :=
    map_cross_exact heap "B" "A" [] [] pools pools ⟨true, true, true, true⟩
      (htaken ▸ by decide) (htaken' ▸ by decide)
  have hrun := hcovers true _ (runs_flatten true work)
  have hrun' := hcovers' true _ (runs_flatten true work')
  rw [htaken] at hrun hrun'
  rw [htaken'] at hrun'
  refine ⟨⟨_, hrun, ?_⟩, ⟨_, hrun', ?_⟩⟩
  · have hwork : ((initializeQuery pools (Query.new ["B"])).map heap
        ⟨true, true, true, true⟩).map (·.flatten.length) = some 16 := by decide +kernel
    rw [hmap] at hwork
    exact Option.some.inj hwork
  · exact hrun'.calls.length_eq.trans (by decide +kernel)

end Query

end Covers

/-! ## The pools of a manager -/

section Managers

variable {R : Type} {entityPools : List (ArchetypePool R)}

/-- The vectors of the pools of a manager; `fields` is the number of fields a component has besides
its first. -/
def Heap.ofPools (fields : IComponentPool Nat → Nat) (entityPools : List (ArchetypePool R)) :
    Heap Nat where
  chunks c := ⟨shapeAt entityPools c.entityPool,
    List.replicate (fields c) (shapeAt entityPools c.entityPool)⟩
  shape := shapeAt entityPools
  uniform c sizes h := by
    rcases List.mem_cons.mp h with rfl | h
    · rfl
    · exact List.eq_of_mem_replicate h

/-- A chunk added to a pool is a chunk more in every vector of vectors of that pool. -/
theorem Heap.ofPools_addChunk [ComponentPools R] (fields : IComponentPool Nat → Nat) {index : Nat}
    {pool : ArchetypePool R} (hpool : entityPools[index]? = some pool) :
    Heap.ofPools fields (entityPools.set index pool.addChunk) =
      (Heap.ofPools fields entityPools).addChunk index pool.chunkSize := by
  have hlt := (List.getElem?_eq_some_iff.mp hpool).1
  have hshape : shapeAt (entityPools.set index pool.addChunk) =
      Function.update (shapeAt entityPools) index
        (shapeAt entityPools index ++ [pool.chunkSize]) := by
    funext other
    by_cases heq : other = index
    · subst heq
      rw [Function.update_self, shapeAt_of_getElem? hpool,
        shapeAt_of_getElem? (List.getElem?_set_self hlt), ArchetypePool.shape_addChunk]
    · rw [Function.update_of_ne heq, shapeAt, shapeAt, List.getElem?_set_ne (Ne.symm heq)]
  refine Heap.ext (funext fun c => ?_) hshape
  simp only [Heap.ofPools, Heap.addChunk, hshape]
  split
  next heq => simp only [heq, Function.update_self, ComponentChunks.addChunk, List.map_replicate]
  next hne => simp only [Function.update_of_ne hne]

/-- The slots `map` goes over are the elements a system of the query is given. -/
theorem elements_places (fields : IComponentPool Nat → Nat) {name : String} {names : List String}
    {offered : List (IArchetypePool Nat)}
    (hptrs : ∀ pool ∈ offered, pool.ptr < entityPools.length) :
    (ISystem.mono (initializeQuery offered (Query.new (name :: names)))).elements entityPools =
      some (((Heap.ofPools fields entityPools).places (Query.taken (name :: names) offered)).map
        fun place => ⟨place.entityPool, place.cPos⟩) := by
  rw [Query.initializeQuery_eq, elements_mono hptrs, Option.some.injEq, elementsOf, Heap.places,
    Query.taken, List.flatMap_assoc, List.flatMap_map, List.map_flatMap]
  refine List.flatMap_congr fun pool _ => ?_
  rw [Heap.flatMap_placesOf, List.map_map]
  rfl

end Managers

end ProjectE.Ecs
