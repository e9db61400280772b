import Mathlib.Data.List.Basic
import Mathlib.Logic.Function.Basic

/-!
# Queries

A `Query` of some components collects, for every entity pool offered to it that has them all, the
pools of these components in the order the query names them. `tryAddEntityPool` counts the component
pools it meets by name, so what it answers rests on an archetype having no component twice; an
archetype's pool inherits from one class for each of its components, and the language forbids a
class to be inherited twice, so this is part of what an archetype's pool is.

Entity pools are told apart by their address, of type `P`.
-/

namespace ProjectE.Ecs

/-- A `C::IComponentPool *`: the pool of one component of an entity pool. -/
structure IComponentPool (P : Type) where
  entityPool : P
  componentName : String
deriving DecidableEq, Repr

/-- An `E::IArchetypePool *` with the names of its components, in the order of its pools. Names are
pairwise different, as the types are that make the pool. -/
structure IArchetypePool (P : Type) where
  ptr : P
  componentNames : List String
  nodup : componentNames.Nodup
deriving DecidableEq, Repr

/-- `getVecComponentPools()`: the component pools of an archetype, in the order of its components.
-/
def IArchetypePool.getVecComponentPools {P : Type} (entityPool : IArchetypePool P) :
    List (IComponentPool P) :=
  entityPool.componentNames.map fun componentName => ⟨entityPool.ptr, componentName⟩

/-- A `Query<Ts...>`; `none` in an array is a null pointer. -/
structure Query (P : Type) where
  componentNames : List String
  componentPoolsArrays : List (List (Option (IComponentPool P)))
deriving DecidableEq, Repr

namespace Query

variable {P : Type}

/-- `Query() = default`: it knows the names of its components and has no pool. -/
def new (componentNames : List String) : Query P := ⟨componentNames, []⟩

/-- The body of the two loops; `none`: `tryAddEntityPool` returns false at once. -/
def collect (size : Nat) (componentName : String)
    (acc : List (Option (IComponentPool P)) × Nat) (componentPool : IComponentPool P) :
    Option (List (Option (IComponentPool P)) × Nat) :=
  if componentPool.componentName = componentName then
    if acc.2 = size then none else some (acc.1.set acc.2 (some componentPool), acc.2 + 1)
  else some acc

/-- `tryAddEntityPool`: for every name of the query the pools of that name are put into the next
places of an array. The pool is taken exactly where the array is filled; one name too many ends the
search. -/
def tryAddEntityPool (query : Query P) (entityPool : IArchetypePool P) : Bool × Query P :=
  let size := query.componentNames.length
  let collected := query.componentNames.foldlM (fun acc componentName =>
    entityPool.getVecComponentPools.foldlM (collect size componentName) acc)
    (List.replicate size none, 0)
  match collected with
  | none => (false, query)
  | some (newComponentPoolsArray, i) =>
    if i = size then
      (true, { query with
        componentPoolsArrays := query.componentPoolsArrays ++ [newComponentPoolsArray] })
    else (false, query)

/-- The pool has all the components of the query. -/
def Matches (query : Query P) (entityPool : IArchetypePool P) : Prop :=
  ∀ componentName ∈ query.componentNames, componentName ∈ entityPool.componentNames

instance (query : Query P) (entityPool : IArchetypePool P) :
    Decidable (query.Matches entityPool) := inferInstanceAs (Decidable (∀ _ ∈ _, _))

/-- The array for a pool: the pools of the query's components, in the query's order. -/
def componentPoolsArray (query : Query P) (entityPool : IArchetypePool P) :
    List (Option (IComponentPool P)) :=
  query.componentNames.map fun componentName => some ⟨entityPool.ptr, componentName⟩

/-! ## The two loops -/

/-- The array while it is filled: the component pools found so far, then null pointers. -/
def partialArray (size : Nat) (found : List (IComponentPool P)) :
    List (Option (IComponentPool P)) × Nat :=
  (found.map some ++ List.replicate (size - found.length) none, found.length)

theorem collect_partialArray {size : Nat} {found : List (IComponentPool P)}
    {componentPool : IComponentPool P} (h : found.length < size) :
    collect size componentPool.componentName (partialArray size found) componentPool =
      some (partialArray size (found ++ [componentPool])) := by
  have hne : ¬ (partialArray size found).2 = size := Nat.ne_of_lt h
  have hrest : size - found.length = size - (found.length + 1) + 1 := by omega
  rw [collect, if_pos rfl, if_neg hne]
  simp only [partialArray, List.length_append, List.length_singleton, List.map_append,
    List.map_singleton]
  rw [List.set_append_right _ _ (Nat.le_of_eq (List.length_map _)), List.length_map, Nat.sub_self,
    hrest, List.replicate_succ, List.set_cons_zero, List.append_assoc, List.singleton_append]

theorem foldlM_collect_of_notMem {size : Nat} {componentName : String} {ptr : P}
    {acc : List (Option (IComponentPool P)) × Nat} : ∀ {names : List String},
    componentName ∉ names →
      (names.map (IComponentPool.mk ptr)).foldlM (collect size componentName) acc = some acc
  | [], _ => rfl
  | name :: names, h => by
    obtain ⟨hne, hrest⟩ := List.ne_and_not_mem_of_not_mem_cons h
    rw [List.map_cons, List.foldlM_cons, collect, if_neg fun heq => hne heq.symm]
    exact foldlM_collect_of_notMem hrest

/-- The inner loop finds the component once, if the pool has it. -/
theorem foldlM_collect {size : Nat} {componentName : String} {ptr : P}
    {found : List (IComponentPool P)} (hlt : found.length < size) : ∀ {names : List String},
    names.Nodup →
      (names.map (IComponentPool.mk ptr)).foldlM (collect size componentName)
        (partialArray size found) =
      some (partialArray size
        (if componentName ∈ names then found ++ [⟨ptr, componentName⟩] else found))
  | [], _ => rfl
  | name :: names, h => by
    obtain ⟨hnot, hrest⟩ := List.nodup_cons.mp h
    rw [List.map_cons, List.foldlM_cons]
    by_cases heq : name = componentName
    · -- it does not occur again behind this place
      subst heq
      have hcollect : collect size name (partialArray size found) ⟨ptr, name⟩ =
          some (partialArray size (found ++ [⟨ptr, name⟩])) := collect_partialArray hlt
      rw [hcollect, if_pos List.mem_cons_self]
      exact foldlM_collect_of_notMem hnot
    · rw [collect, if_neg heq]
      have hmem : componentName ∈ name :: names ↔ componentName ∈ names := by
        rw [List.mem_cons]
        exact or_iff_right fun h => heq h.symm
      simp only [hmem]
      exact foldlM_collect hlt hrest

/-- The two loops find the components the pool has, in the query's order. -/
theorem foldlM_foldlM_collect (entityPool : IArchetypePool P) (size : Nat) :
    ∀ (names : List String) (found : List (IComponentPool P)), found.length + names.length ≤ size →
      names.foldlM (fun acc componentName =>
          entityPool.getVecComponentPools.foldlM (collect size componentName) acc)
        (partialArray size found) =
      some (partialArray size (found ++
        (names.filter (· ∈ entityPool.componentNames)).map (IComponentPool.mk entityPool.ptr)))
  | [], found, _ => by
    rw [List.filter_nil, List.map_nil, List.append_nil]
    rfl
  | name :: names, found, hle => by
    rw [List.length_cons] at hle
    rw [List.foldlM_cons, IArchetypePool.getVecComponentPools,
      foldlM_collect (by omega) entityPool.nodup]
    by_cases hmem : name ∈ entityPool.componentNames
    · rw [if_pos hmem, List.filter_cons_of_pos (by simpa using hmem), List.map_cons]
      have ih := foldlM_foldlM_collect entityPool size names (found ++ [⟨entityPool.ptr, name⟩])
        (by rw [List.length_append, List.length_singleton]; omega)
      rw [List.append_assoc, List.singleton_append] at ih
      exact ih
    · rw [if_neg hmem, List.filter_cons_of_neg (by simpa using hmem)]
      exact foldlM_foldlM_collect entityPool size names found (by omega)

/-- **Matching is exact**: a pool is taken if it has all the components, with its component pools in
the query's order, and otherwise the query stays as it is. -/
theorem tryAddEntityPool_eq (query : Query P) (entityPool : IArchetypePool P) :
    query.tryAddEntityPool entityPool =
      if query.Matches entityPool then
        (true, { query with componentPoolsArrays :=
          query.componentPoolsArrays ++ [query.componentPoolsArray entityPool] })
      else (false, query) := by
  have hloops := foldlM_foldlM_collect entityPool query.componentNames.length query.componentNames
    [] (by rw [List.length_nil]; omega)
  have hstart : partialArray query.componentNames.length ([] : List (IComponentPool P)) =
      (List.replicate query.componentNames.length none, 0) := rfl
  rw [hstart, List.nil_append] at hloops
  simp only [tryAddEntityPool, hloops, partialArray, List.length_map]
  have hall : (query.componentNames.filter (· ∈ entityPool.componentNames)).length =
      query.componentNames.length ↔ query.Matches entityPool := by
    rw [List.length_filter_eq_length_iff]
    simp only [decide_eq_true_eq, Matches]
  by_cases hmatches : query.Matches entityPool
  · have hfilter : query.componentNames.filter (· ∈ entityPool.componentNames) =
        query.componentNames := by
      apply List.filter_eq_self.mpr
      intro name hname
      exact decide_eq_true (hmatches name hname)
    rw [if_pos (hall.mpr hmatches), if_pos hmatches, hfilter, Nat.sub_self, List.replicate_zero,
      List.append_nil, List.map_map]
    rfl
  · rw [if_neg (fun h => hmatches (hall.mp h)), if_neg hmatches]

end Query

/-! ## Systems -/

/-- An `ISystem` as registration sees it: an `AMonoSystem` with its query, an `ADualSystem` with its
two. -/
inductive ISystem (P : Type) where
  | mono (query : Query P)
  | dual (query1 query2 : Query P)
deriving DecidableEq, Repr

namespace ISystem

variable {P : Type}

/-- The queries a system offers its pools to. -/
def queries : ISystem P → List (Query P)
  | mono query => [query]
  | dual query1 query2 => [query1, query2]

/-- The system with each of its queries changed. -/
def mapQueries (f : Query P → Query P) : ISystem P → ISystem P
  | mono query => mono (f query)
  | dual query1 query2 => dual (f query1) (f query2)

/-- `tryAddEntityPool` of a system. A system of two queries asks both, also where the first has
taken the pool. -/
def tryAddEntityPool (entityPool : IArchetypePool P) : ISystem P → Bool × ISystem P
  | mono query =>
    let (added, query) := query.tryAddEntityPool entityPool
    (added, mono query)
  | dual query1 query2 =>
    let (q1, query1) := query1.tryAddEntityPool entityPool
    let (q2, query2) := query2.tryAddEntityPool entityPool
    (q1 || q2, dual query1 query2)

theorem queries_mapQueries (f : Query P → Query P) (system : ISystem P) :
    (system.mapQueries f).queries = system.queries.map f := by
  cases system with
  | mono query => rfl
  | dual query1 query2 => rfl

theorem mapQueries_mapQueries (f g : Query P → Query P) (system : ISystem P) :
    (system.mapQueries f).mapQueries g = system.mapQueries fun query => g (f query) := by
  cases system with
  | mono query => rfl
  | dual query1 query2 => rfl

theorem tryAddEntityPool_snd (entityPool : IArchetypePool P) (system : ISystem P) :
    (system.tryAddEntityPool entityPool).2 =
      system.mapQueries fun query => (query.tryAddEntityPool entityPool).2 := by
  cases system with
  | mono query => rfl
  | dual query1 query2 => rfl

end ISystem

end ProjectE.Ecs
