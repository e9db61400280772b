import ProjectE.Lib.Trace
import ProjectE.Ecs.Registration

/-!
# Going over the elements

What the functions of `Query` that iterate call, with which vectors and which elements. A component
has one field at least, a field has a vector for each chunk, and the loops take the number of chunks
and of elements from the first field of the first component and index every other vector with them.
`none` is what the language leaves undefined: a null pool, a chunk or an element past the end of its
vector.

The vectors agree because the component pools of an entity pool grow together: `Heap` holds the
sizes of all vectors with the layout each entity pool has by the chunks added to it. The two
branches of `pMap` and `cross` make the same calls, one pool after the other or each pool in a
thread of its own (`Runs`); those of `cMap` are one text.
-/

namespace ProjectE.Ecs

open Verif

/-! ## Vectors -/

/-- `C::ComponentPool<Name, Ts...>`: for the first of `Ts` and for each of the others, the sizes of
the vectors of its chunks. -/
structure ComponentChunks where
  first : List Nat
  others : List (List Nat)
deriving DecidableEq, Repr

namespace ComponentChunks

/-- `_pools`: one vector of chunks for each field of the component. -/
def pools (c : ComponentChunks) : List (List Nat) := c.first :: c.others

/-- `chunkCount()`: that of the first field. -/
def chunkCount (c : ComponentChunks) : Nat := c.first.length

/-- `addChunk(elemCount)`: a chunk more in every field. -/
def addChunk (c : ComponentChunks) (elemCount : Nat) : ComponentChunks where
  first := c.first ++ [elemCount]
  others := c.others.map (· ++ [elemCount])

/-- `deleteEverything()`: every field loses all its chunks. -/
def deleteEverything (c : ComponentChunks) : ComponentChunks where
  first := []
  others := c.others.map fun _ => []

end ComponentChunks

/-- The component pools of all entity pools, and the sizes of the chunks each entity pool has. -/
@[ext]
structure Heap (P : Type) where
  chunks : IComponentPool P → ComponentChunks
  shape : P → List Nat
  uniform : ∀ c, ∀ sizes ∈ (chunks c).pools, sizes = shape c.entityPool

namespace Heap

variable {P : Type}

/-- Pools without a chunk; `fields` is the number of fields a component has besides its first. -/
def new (fields : IComponentPool P → Nat) : Heap P where
  chunks c := ⟨[], List.replicate (fields c) []⟩
  shape _ := []
  uniform c sizes h := by
    rcases List.mem_cons.mp h with rfl | h
    · rfl
    · exact List.eq_of_mem_replicate h

variable [DecidableEq P]

/-- `ArchetypePool::addChunk()` of a pool whose `_chunkSize` is `chunkSize`. -/
def addChunk (heap : Heap P) (pool : P) (chunkSize : Nat) : Heap P where
  chunks c := if c.entityPool = pool then (heap.chunks c).addChunk chunkSize else heap.chunks c
  shape := Function.update heap.shape pool (heap.shape pool ++ [chunkSize])
  uniform c sizes h := by
    have huniform := heap.uniform c
    split at h
    next heq =>
      subst heq
      rw [Function.update_self]
      rcases List.mem_cons.mp h with rfl | h
      · exact congrArg (· ++ [chunkSize]) (huniform _ List.mem_cons_self)
      · obtain ⟨before, hbefore, rfl⟩ := List.mem_map.mp h
        exact congrArg (· ++ [chunkSize]) (huniform _ (List.mem_cons_of_mem _ hbefore))
    next hne =>
      rw [Function.update_of_ne hne]
      exact huniform sizes h

/-- `ArchetypePool::deleteEverything()`: no field of the pool's components has a chunk left, and the
other pools are as they were. -/
def deleteEverything (heap : Heap P) (pool : P) : Heap P where
  chunks c := if c.entityPool = pool then (heap.chunks c).deleteEverything else heap.chunks c
  shape := Function.update heap.shape pool []
  uniform c sizes h := by
    split at h
    next heq =>
      subst heq
      rw [Function.update_self]
      rcases List.mem_cons.mp h with rfl | h
      · rfl
      · obtain ⟨before, -, rfl⟩ := List.mem_map.mp h
        rfl
    next hne =>
      rw [Function.update_of_ne hne]
      exact heap.uniform c sizes h

end Heap

/-- Where a vector is: the vector of a chunk of a field. Two vectors are the same object exactly if
their addresses are equal. -/
structure VectorAddr (P : Type) where
  pool : IComponentPool P
  field : Nat
  chunk : Nat
deriving DecidableEq, Repr

/-- A `std::vector &`, with its size. -/
structure VectorRef (P : Type) where
  addr : VectorAddr P
  size : Nat
deriving DecidableEq, Repr

/-- A reference to an element of a vector. -/
structure ElemRef (P : Type) where
  addr : VectorAddr P
  index : Nat
deriving DecidableEq, Repr

/-- `typename Ts::VTypes &...`: for each component its vectors. -/
abbrev Vectors (P : Type) := List (List (VectorRef P))

/-- `typename Ts::Types &...`: for each component its elements. -/
abbrev Elems (P : Type) := List (List (ElemRef P))

/-- `getRawStdVectors(index)` of a component pool. -/
def Heap.getRawStdVectors {P : Type} (heap : Heap P) (index : Nat) (pool : IComponentPool P) :
    Option (List (VectorRef P)) :=
  (heap.chunks pool).pools.zipIdx.mapM fun field =>
    field.1[index]?.map fun size => ⟨⟨pool, field.2, index⟩, size⟩

/-- `initializeQuery(query)` of a manager with these pools. -/
def initializeQuery {P : Type} (entityPools : List (IArchetypePool P)) (query : Query P) :
    Query P :=
  entityPools.foldl (fun query entityPool => (query.tryAddEntityPool entityPool).2) query

/-! ## The loops -/

/-- The callbacks `map` is given besides `f`: before and after each chunk, and before and after each
pool. One that is not given is not called. -/
structure MapCallbacks where
  startCB : Bool
  endCB : Bool
  pMapStartCB : Bool
  pMapEndCB : Bool
deriving DecidableEq, Repr

/-- `map(f)`: no other callback. -/
def MapCallbacks.none : MapCallbacks := ⟨false, false, false, false⟩

/-- What `map` calls. -/
inductive MapEvent (P : Type) where
  | pMapStart (componentPools : List (IComponentPool P))
  | start (componentVectors : Vectors P)
  | call (refTuple : Elems P)
  | end (componentVectors : Vectors P)
  | pMapEnd (componentPools : List (IComponentPool P))
deriving DecidableEq, Repr

namespace Query

variable {P E : Type}

/-- `std::get<0>(std::get<0>(componentVectors))`: the first field of the first component, whose size
is taken for that of all. -/
def firstVector (componentVectors : Vectors P) : Option (VectorRef P) :=
  componentVectors.head?.bind (·.head?)

/-- `_getInnerReferencesAtIndex`: a reference into each field of one component. `none`: one of the
vectors is indexed past its end. -/
def getInnerReferencesAtIndex (i : Nat) (vectorTuple : List (VectorRef P)) :
    Option (List (ElemRef P)) :=
  vectorTuple.mapM fun vector => if i < vector.size then some ⟨vector.addr, i⟩ else none

/-- `_getReferencesAtIndex`: the same index in every component that the query names. -/
def getReferencesAtIndex (i : Nat) (outerTuple : Vectors P) : Option (Elems P) :=
  outerTuple.mapM (getInnerReferencesAtIndex i)

/-- `pMap(f)`: what is done for each pool. -/
def pMap (query : Query P) (f : List (IComponentPool P) → Option (List E)) :
    Option (List (List E)) :=
  query.componentPoolsArrays.mapM fun componentPools => do
    let pools ← componentPools.mapM id
    f pools

/-- `cMap(f, startCB, endCB)`; a callback not given does nothing. -/
def cMap (heap : Heap P) (query : Query P) (f : Vectors P → Option (List E))
    (startCB endCB : List (IComponentPool P) → List E) : Option (List (List E)) :=
  query.pMap fun componentPools => do
    let first ← componentPools.head?
    let chunks ← forEach (List.range (heap.chunks first).chunkCount) fun i => do
      let componentVectors ← componentPools.mapM (heap.getRawStdVectors i)
      f componentVectors
    return startCB componentPools ++ (chunks ++ endCB componentPools)

/-- `map(f, ..., startCB, endCB, pMapStartCB, pMapEndCB)`: the callbacks go around the chunks and
around the pools, and `f` is called for every slot of a chunk, free ones included. -/
def map (heap : Heap P) (query : Query P) (callbacks : MapCallbacks) :
    Option (List (List (MapEvent P))) :=
  query.cMap heap
    (fun componentVectors => do
      let first ← firstVector componentVectors
      let calls ← forEach (List.range first.size) fun i => do
        let refTuple ← getReferencesAtIndex i componentVectors
        return [.call refTuple]
      return (if callbacks.startCB then [.start componentVectors] else []) ++
        (calls ++ if callbacks.endCB then [.end componentVectors] else []))
    (fun componentPools =>
      if callbacks.pMapStartCB then [.pMapStart componentPools] else [])
    (fun componentPools =>
      if callbacks.pMapEndCB then [.pMapEnd componentPools] else [])

/-- `_crossOperate`: every slot of one chunk with every slot of another. -/
def crossOperate (componentVectors1 componentVectors2 : Vectors P) :
    Option (List (Elems P × Elems P)) := do
  let first1 ← firstVector componentVectors1
  let first2 ← firstVector componentVectors2
  forEach (List.range first1.size) fun i =>
    forEach (List.range first2.size) fun j => do
      let refTuple1 ← getReferencesAtIndex i componentVectors1
      let refTuple2 ← getReferencesAtIndex j componentVectors2
      return [(refTuple1, refTuple2)]

/-- `_selfCrossOperate`: both loops go by the size of the first chunk, and the pair of a slot with
itself is left out only where the two chunks are one. -/
def selfCrossOperate [DecidableEq P] (componentVectors1 componentVectors2 : Vectors P) :
    Option (List (Elems P × Elems P)) := do
  let first1 ← firstVector componentVectors1
  let first2 ← firstVector componentVectors2
  let sameVecs := first1.addr = first2.addr
  forEach (List.range first1.size) fun i =>
    forEach (List.range (i + 1)) fun j =>
      if sameVecs ∧ i = j then some []
      else do
        let refTuple1 ← getReferencesAtIndex i componentVectors1
        let refTuple2 ← getReferencesAtIndex j componentVectors2
        return [(refTuple1, refTuple2)]

/-- `_cross`, and the two loops over the chunks around it. -/
def crossPools [DecidableEq P] (heap : Heap P) (selfCross : Bool)
    (componentPools1 componentPools2 : List (Option (IComponentPool P))) :
    Option (List (Elems P × Elems P)) := do
  let pools1 ← componentPools1.mapM id
  let pools2 ← componentPools2.mapM id
  let first1 ← pools1.head?
  let first2 ← pools2.head?
  forEach (List.range (heap.chunks first1).chunkCount) fun k =>
    forEach (List.range (heap.chunks first2).chunkCount) fun l => do
      let componentVectors1 ← pools1.mapM (heap.getRawStdVectors k)
      let componentVectors2 ← pools2.mapM (heap.getRawStdVectors l)
      if selfCross then selfCrossOperate componentVectors1 componentVectors2
      else crossOperate componentVectors1 componentVectors2

/-- `cross(otherQuery, f, selfCross)`: the calls of `f` for each pool of this query. -/
def cross [DecidableEq P] (heap : Heap P) (query otherQuery : Query P) (selfCross : Bool) :
    Option (List (List (Elems P × Elems P))) :=
  query.componentPoolsArrays.mapM fun componentPools1 =>
    forEach otherQuery.componentPoolsArrays (crossPools heap selfCross componentPools1)

/-- `selfCross(f)`: the query is crossed with itself, with the loops of `_selfCrossOperate`. -/
def selfCross [DecidableEq P] (heap : Heap P) (query : Query P) :
    Option (List (List (Elems P × Elems P))) :=
  query.cross heap query true

end Query

/-- What is done for each pool is done pool after pool, or in a thread for each pool. -/
def Runs {E : Type} (isParallel : Bool) (work : List (List E)) (trace : List E) : Prop :=
  if isParallel then Interleaving work trace else trace = work.flatten

theorem Runs.perm {E : Type} {isParallel : Bool} {work : List (List E)} {trace : List E}
    (h : Runs isParallel work trace) : trace.Perm work.flatten := by
  unfold Runs at h
  split at h
  · exact h.perm
  · exact .of_eq h

/-- What only one pool's thread does is done in its order. -/
theorem Runs.filter_eq {E : Type} {isParallel : Bool} {work : List (List E)} {trace : List E}
    (h : Runs isParallel work trace) {p : E → Bool} {i : Nat} {l : List E} (hi : work[i]? = some l)
    (hown : ∀ a ∈ l, p a = true)
    (hothers : ∀ (j : Nat) (l' : List E), work[j]? = some l' → j ≠ i → ∀ a ∈ l', p a = false) :
    trace.filter p = l := by
  unfold Runs at h
  split at h
  · exact h.filter_eq hi hown hothers
  · rw [h]
    exact (Interleaving.flatten work).filter_eq hi hown hothers

/-- There is always a way to run. -/
theorem runs_flatten {E : Type} (isParallel : Bool) (work : List (List E)) :
    Runs isParallel work work.flatten := by
  unfold Runs
  split
  · exact .flatten work
  · rfl

end ProjectE.Ecs
