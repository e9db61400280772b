import Mathlib.Data.List.Nodup
import Mathlib.Data.Set.Function
import ProjectE.Ecs.Query

/-!
# Archetypes

The component list of an archetype is computed by the compiler. An `Aspect` lists components and
other aspects; its `ArchComponents` are the base components and all that are listed, at any depth,
put through `TypeSet`, which keeps one of each: of equal types the last, the whole in reverse order.

A query asks for component pools by name. That an archetype holds every component once, and that
different components have different names, is what makes its counting exact: `tryAddEntityPool`
takes the pool of an archetype if and only if every component asked for is listed.
-/

namespace ProjectE.Ecs

/-! ## Type lists -/

section TypeLists

variable {T : Type} [DecidableEq T]

/-- `is_in_tuple<T, Tuple>`: the types of a tuple are compared one after the other. -/
def isInTuple (t : T) : List T → Bool
  | [] => false
  | u :: ts => if t = u then true else isInTuple t ts

/-- `add_type_if_not_in_tuple<T, Tuple>`: a type the tuple has not goes to its end. -/
def addTypeIfNotInTuple (t : T) (ts : List T) : List T :=
  if isInTuple t ts then ts else ts ++ [t]

/-- `TypeSet<Types...>`, and `TupTypeSet` of a tuple. -/
def typeSet : List T → List T
  | [] => []
  | t :: rest => addTypeIfNotInTuple t (typeSet rest)

omit [DecidableEq T] in
/-- `tuple_concat<Tuple, Rest...>`: the first two tuples are joined, and the join with the rest of
them. -/
def tupleConcatTo (ts : List T) : List (List T) → List T
  | [] => ts
  | us :: rest => tupleConcatTo (ts ++ us) rest

omit [DecidableEq T] in
/-- `tuple_concat<Tuples...>`: none are the empty tuple. -/
def tupleConcat : List (List T) → List T
  | [] => []
  | ts :: rest => tupleConcatTo ts rest

theorem isInTuple_iff {t : T} {ts : List T} : isInTuple t ts = true ↔ t ∈ ts := by
  induction ts with
  | nil => simp [isInTuple]
  | cons u ts ih =>
    rw [isInTuple, List.mem_cons]
    split
    next heq => exact ⟨fun _ => .inl heq, fun _ => rfl⟩
    next hne => rw [ih, or_iff_right hne]

theorem mem_addTypeIfNotInTuple {t u : T} {ts : List T} :
    u ∈ addTypeIfNotInTuple t ts ↔ u = t ∨ u ∈ ts := by
  rw [addTypeIfNotInTuple]
  split
  next hmem =>
    constructor
    · exact .inr
    · rintro (rfl | hu)
      · exact isInTuple_iff.mp hmem
      · exact hu
  next => rw [List.mem_append, List.mem_singleton, or_comm]

theorem nodup_addTypeIfNotInTuple {t : T} {ts : List T} (h : ts.Nodup) :
    (addTypeIfNotInTuple t ts).Nodup := by
  rw [addTypeIfNotInTuple]
  split
  next => exact h
  next hnot =>
    refine h.append (List.nodup_singleton t) ?_
    intro u hu ht
    cases List.mem_singleton.mp ht
    exact hnot (isInTuple_iff.mpr hu)

theorem mem_typeSet {t : T} {ts : List T} : t ∈ typeSet ts ↔ t ∈ ts := by
  induction ts with
  | nil => exact Iff.rfl
  | cons u ts ih => rw [typeSet, mem_addTypeIfNotInTuple, ih, List.mem_cons]

theorem nodup_typeSet (ts : List T) : (typeSet ts).Nodup := by
  induction ts with
  | nil => exact List.nodup_nil
  | cons u ts ih => exact nodup_addTypeIfNotInTuple ih

omit [DecidableEq T] in
theorem tupleConcatTo_eq (ts : List T) (tuples : List (List T)) :
    tupleConcatTo ts tuples = ts ++ tuples.flatten := by
  induction tuples generalizing ts with
  | nil => exact (List.append_nil ts).symm
  | cons us rest ih => rw [tupleConcatTo, ih, List.flatten_cons, List.append_assoc]

omit [DecidableEq T] in
theorem tupleConcat_eq (tuples : List (List T)) : tupleConcat tuples = tuples.flatten := by
  cases tuples with
  | nil => rfl
  | cons ts rest => exact tupleConcatTo_eq ts rest

end TypeLists

/-! ## Aspects -/

/-- The `Arch...` classes of a program, and the name of the component of each. -/
class ArchComponents (T : Type) where
  archEntityStatus : T
  archChunkPos : T
  componentName : T → String

/-- `Aspect<std::tuple<TComps...>, std::tuple<TAspects...>>`: the components it lists itself, and
the aspects it takes further components from. -/
inductive Aspect (T : Type) where
  | mk (components : List T) (aspects : List (Aspect T))

namespace Aspect

variable {T : Type}

/-- The component is listed in the aspect, or in one of its aspects, at any depth. -/
inductive Lists (t : T) : Aspect T → Prop where
  | component {components : List T} {aspects : List (Aspect T)} (h : t ∈ components) :
      Lists t (mk components aspects)
  | aspect {components : List T} {aspects : List (Aspect T)} {a : Aspect T} (ha : a ∈ aspects)
      (h : Lists t a) : Lists t (mk components aspects)

variable [DecidableEq T]

mutual

/-- `AllComponents`: those of its aspects and its own, each once. The set is built from the last one
to the first. -/
def allComponents : Aspect T → List T
  | mk components aspects =>
    typeSet (tupleConcat [tupleConcat (eachAllComponents aspects), components])

/-- `typename TAspects::AllComponents...`: the lists of the aspects, in their order. -/
def eachAllComponents : List (Aspect T) → List (List T)
  | [] => []
  | a :: aspects => allComponents a :: eachAllComponents aspects

end

/-- `ArchComponents`: the status and the pointer position, which every archetype has, and all
components of the aspect. -/
def archComponents [ArchComponents T] (a : Aspect T) : List T :=
  typeSet (tupleConcat
    [[ArchComponents.archEntityStatus, ArchComponents.archChunkPos], a.allComponents])

mutual

theorem mem_allComponents {t : T} : ∀ {a : Aspect T}, t ∈ a.allComponents ↔ a.Lists t
  | mk components aspects => by
    have ih : t ∈ (eachAllComponents aspects).flatten ↔ ∃ a ∈ aspects, a.Lists t :=
      mem_eachAllComponents
    rw [allComponents, mem_typeSet]
    simp only [tupleConcat_eq, List.flatten_cons, List.flatten_nil, List.append_nil,
      List.mem_append, ih]
    constructor
    · rintro (⟨a, ha, h⟩ | h)
      · exact .aspect ha h
      · exact .component h
    · intro h
      cases h with
      | component h => exact .inr h
      | aspect ha h => exact .inl ⟨_, ha, h⟩

theorem mem_eachAllComponents {t : T} : ∀ {aspects : List (Aspect T)},
    t ∈ (eachAllComponents aspects).flatten ↔ ∃ a ∈ aspects, a.Lists t
  | [] => by simp [eachAllComponents]
  | a :: aspects => by
    rw [eachAllComponents, List.flatten_cons, List.mem_append, mem_allComponents,
      mem_eachAllComponents]
    simp only [List.mem_cons, exists_eq_or_imp]

end

variable [ArchComponents T]

theorem mem_archComponents {a : Aspect T} {t : T} : t ∈ a.archComponents ↔
    t = ArchComponents.archEntityStatus ∨ t = ArchComponents.archChunkPos ∨ a.Lists t := by
  rw [archComponents, mem_typeSet, tupleConcat_eq]
  simp only [List.flatten_cons, List.flatten_nil, List.append_nil, List.mem_append, List.mem_cons,
    List.not_mem_nil, or_false, mem_allComponents, or_assoc]

theorem nodup_archComponents (a : Aspect T) : a.archComponents.Nodup := nodup_typeSet _

/-- The pool of the archetype of an aspect, as queries see it: `ArchetypePool` of its
`ArchComponents`. -/
def archetypePool {P : Type} (a : Aspect T) (ptr : P)
    (hnames : Set.InjOn (ArchComponents.componentName (T := T)) {t | t ∈ a.archComponents}) :
    IArchetypePool P where
  ptr := ptr
  componentNames := a.archComponents.map ArchComponents.componentName
  nodup := List.Nodup.map_on (fun _ ht _ hu => hnames ht hu) a.nodup_archComponents

/-- **Matching is exact.** The components of an archetype are the base components and those listed,
each once, and a query is given its pool if and only if each component it asks for is one of them;
it then gets their pools in the order it asks. -/
theorem tryAddEntityPool_archetypePool {P : Type} (a : Aspect T) (ptr : P)
    (hnames : Set.InjOn (ArchComponents.componentName (T := T)) {t | t ∈ a.archComponents})
    (ts : List T) (query : Query P)
    (hquery : query.componentNames = ts.map ArchComponents.componentName)
    (hts : ∀ t ∈ ts, ∀ u ∈ a.archComponents,
      ArchComponents.componentName t = ArchComponents.componentName u → t = u) :
    (∀ t, t = ArchComponents.archEntityStatus ∨ t = ArchComponents.archChunkPos ∨ a.Lists t →
      a.archComponents.count t = 1) ∧
    (∀ t ∈ a.archComponents,
      t = ArchComponents.archEntityStatus ∨ t = ArchComponents.archChunkPos ∨ a.Lists t) ∧
    query.tryAddEntityPool (a.archetypePool ptr hnames) =
      if ∀ t ∈ ts, t ∈ a.archComponents then
        (true, { query with componentPoolsArrays := query.componentPoolsArrays ++
          [ts.map fun t => some ⟨ptr, ArchComponents.componentName t⟩] })
      else (false, query) := by
  refine ⟨fun t ht => ?_, fun t ht => mem_archComponents.mp ht, ?_⟩
  · exact List.count_eq_one_of_mem a.nodup_archComponents (mem_archComponents.mpr ht)
  · -- a name asked for is that of a component the archetype has, or of none
    have hmatches : query.Matches (a.archetypePool ptr hnames) ↔
        ∀ t ∈ ts, t ∈ a.archComponents := by
      simp only [Query.Matches, hquery, archetypePool, List.forall_mem_map]
      refine forall₂_congr fun t ht => ?_
      constructor
      · intro hname
        obtain ⟨u, hu, heq⟩ := List.mem_map.mp hname
        rw [hts t ht u hu heq.symm]
        exact hu
      · exact List.mem_map_of_mem
    have harray : query.componentPoolsArray (a.archetypePool ptr hnames) =
        ts.map fun t => some ⟨ptr, ArchComponents.componentName t⟩ := by
      rw [Query.componentPoolsArray, hquery, List.map_map]
      rfl
    rw [Query.tryAddEntityPool_eq, harray]
    simp only [hmatches]

end Aspect

/-! ## The aspects of the spatial module -/

/-- The base components and those of `spatial2d`. -/
inductive SpatialComponent where
  | ArchEntityStatus
  | ArchChunkPos
  | ArchPosition
  | ArchRotation
  | ArchVelocity
  | ArchAcceleration
deriving DecidableEq, Repr

instance : ArchComponents SpatialComponent where
  archEntityStatus := .ArchEntityStatus
  archChunkPos := .ArchChunkPos
  componentName
    | .ArchEntityStatus => "EntityStatus"
    | .ArchChunkPos => "ChunkPos"
    | .ArchPosition => "Position"
    | .ArchRotation => "Rotation"
    | .ArchVelocity => "Velocity"
    | .ArchAcceleration => "Acceleration"

/-- `StaticEntityAspect`: two components, and no further aspect. -/
def StaticEntityAspect : Aspect SpatialComponent := .mk [.ArchPosition, .ArchRotation] []

/-- `DynamicEntityAspect`: the components of the static one, and those of its own. -/
def DynamicEntityAspect : Aspect SpatialComponent :=
  .mk [.ArchVelocity, .ArchAcceleration] [StaticEntityAspect]

theorem SpatialComponent.componentName_injective :
    Function.Injective (ArchComponents.componentName (T := SpatialComponent)) := by
  intro t u h
  cases t <;> cases u <;> first | rfl | exact absurd h (by decide)

/-- A dynamic entity has a position, by its aspect of a static one, and a query for velocities and
positions is given its pool. -/
theorem tryAddEntityPool_dynamicEntity :
    DynamicEntityAspect.archComponents.count .ArchPosition = 1 ∧
      ((Query.new ["Velocity", "Position"]).tryAddEntityPool
        (DynamicEntityAspect.archetypePool (0 : Nat)
          SpatialComponent.componentName_injective.injOn)).1 = true := by
  obtain ⟨hcount, -, hquery⟩ := DynamicEntityAspect.tryAddEntityPool_archetypePool (0 : Nat)
    SpatialComponent.componentName_injective.injOn [.ArchVelocity, .ArchPosition]
    (.new ["Velocity", "Position"]) rfl
    (fun _ _ _ _ h => SpatialComponent.componentName_injective h)
  refine ⟨hcount _ (.inr (.inr (.aspect List.mem_cons_self (.component List.mem_cons_self)))), ?_⟩
  rw [hquery, if_pos (by decide)]

end ProjectE.Ecs
