import ProjectE.Ecs.Slots
import ProjectE.Ecs.Registration
import ProjectE.Ecs.Time

/-!
# Running systems

A system goes over the pools its query has taken, chunk by chunk and element by element, and is
given the components at every position, whether an entity is there or not. A system of one query is
an `AMonoSystem`; one of two is an `ADualSystem`, which is given two positions at a time.

What a system does with the components is its own: a function of the slot it is given, another one
at every visit. Systems run one after the other here; the callbacks around chunks and pools are
those of the base class, which do nothing. `Visit` records what a system was given and what it left.
-/

namespace ProjectE.Ecs

open Verif

variable {R V : Type} [ComponentPools R] [slots : ComponentSlots R V]

/-! ## The elements a system is given -/

/-- The positions of each chunk. -/
def chunks (layout : List Nat) : List (List ChunkPos) :=
  layout.zipIdx.map fun row => (List.range row.1).map fun index => (row.2, index)

theorem flatten_chunks (layout : List Nat) : (chunks layout).flatten = Grid.cells layout := by
  rw [chunks, Grid.cells, List.flatMap_def]

omit slots in
/-- The elements of the pools of a query, pool by pool and chunk by chunk. The number of chunks and
of their elements is that of the first component. -/
def Query.elements (entityPools : List (ArchetypePool R)) (query : Query Nat) :
    Option (List (List (List EntityRef))) :=
  query.componentPoolsArrays.mapM fun componentPools => do
    let first ← componentPools.head?.join
    let pool ← entityPools[first.entityPool]?
    return (chunks pool.shape).map fun chunk => chunk.map fun cPos => ⟨first.entityPool, cPos⟩

omit slots in
/-- The elements in the order of `map`, or of `cross`. -/
def ISystem.elements (entityPools : List (ArchetypePool R)) : ISystem Nat → Option (List EntityRef)
  | .mono query => do
    let pools ← query.elements entityPools
    return pools.flatten.flatten
  | .dual query1 query2 => do
    let pools1 ← query1.elements entityPools
    let pools2 ← query2.elements entityPools
    return pools1.flatMap fun chunks1 => pools2.flatMap fun chunks2 =>
      chunks1.flatMap fun chunk1 => chunks2.flatMap fun chunk2 =>
        chunk1.flatMap fun entity1 => chunk2.flatMap fun entity2 => [entity1, entity2]

/-! ## Visits -/

/-- What `_innerOperate`, or `_statusOperate`, is given at a position, and what it leaves. The list
of visits is all that a run of systems has done. -/
structure Visit (V : Type) where
  entity : EntityRef
  before : Slot V
  after : Slot V
deriving DecidableEq, Repr

namespace EntityManager

/-- What is at a position of a pool. -/
def slot (m : EntityManager R) (entity : EntityRef) : Option (Slot V) := do
  let pool ← m.entityPools[entity.pool]?
  pool.slot entity.cPos

/-- A position that is in the free list of its pool. -/
def Free (m : EntityManager R) (entity : EntityRef) : Prop :=
  ∃ pool ∈ m.entityPools[entity.pool]?, entity.cPos ∈ pool.freePos

instance (m : EntityManager R) (entity : EntityRef) : Decidable (m.Free entity) :=
  inferInstanceAs (Decidable (∃ _ ∈ _, _))

/-- What is at a position of a pool is changed. -/
def operate (m : EntityManager R) (entity : EntityRef) (f : Slot V → Slot V) :
    Option (EntityManager R) := do
  let pool ← m.entityPools[entity.pool]?
  let pool ← pool.operate entity.cPos f
  return { m with entityPools := m.entityPools.set entity.pool pool }

/-- `_innerOperate`. That of an `AStatusMonoSystem`, which has a `status`, calls `_statusOperate`
if the entity has that status. -/
def innerOperate (status : Option EntityStatus) (f : Slot V → Slot V) (m : EntityManager R)
    (entity : EntityRef) : Option (EntityManager R × List (Visit V)) := do
  let before ← m.slot entity
  if status.all (· = before.entityStatus) then
    let m ← m.operate entity f
    let after ← m.slot entity
    return (m, [⟨entity, before, after⟩])
  else return (m, [])

/-- The loop over the elements. -/
def operateEach (status : Option EntityStatus) :
    (Nat → Slot V → Slot V) → List EntityRef → EntityManager R →
      Option (EntityManager R × List (Visit V))
  | _, [], m => some (m, [])
  | operate, entity :: entities, m => do
    let (m, visit) ← innerOperate status (operate 0) m entity
    let (m, visits) ← operateEach status (fun n => operate (n + 1)) entities m
    return (m, visit ++ visits)

/-- `run()` of a system. -/
def runSystem (m : EntityManager R) (system : ISystem Nat) (status : Option EntityStatus)
    (operate : Nat → Slot V → Slot V) : Option (EntityManager R × List (Visit V)) := do
  let entities ← system.elements m.entityPools
  operateEach status operate entities m

/-- Systems run one after the other, each with the time its tree gives it. -/
def runSystems {S : Type} (systems : Systems S Nat) (statusOf : S → Option EntityStatus) :
    (Nat → S → ℚ → Nat → Slot V → Slot V) → List (S × ℚ) → EntityManager R →
      Option (EntityManager R × List (Visit V))
  | _, [], m => some (m, [])
  | operate, (s, deltaTime) :: runs, m => do
    let (m, visits) ← m.runSystem (systems s) (statusOf s) (operate 0 s deltaTime)
    let (m, more) ← runSystems systems statusOf (fun n => operate (n + 1)) runs m
    return (m, visits ++ more)

/-! ## Values change, nothing else -/

variable {m m' m'' : EntityManager R} {entity : EntityRef}

/-- The pools are the same but for the values in them: a system is given references to components,
and can neither create nor destroy. -/
structure Same (m m' : EntityManager R) : Prop where
  ptrPool : m'.entityPtrPool = m.entityPtrPool
  length : m'.entityPools.length = m.entityPools.length
  pools : ∀ (index : Nat) (pool pool' : ArchetypePool R), m.entityPools[index]? = some pool →
    m'.entityPools[index]? = some pool' → pool.Same pool'

theorem Same.refl (m : EntityManager R) : m.Same m := by
  refine ⟨rfl, rfl, fun index pool pool' hpool hpool' => ?_⟩
  cases hpool.symm.trans hpool'
  exact ArchetypePool.Same.refl pool

/-- A pool of one manager is a pool of the other. -/
theorem Same.exists_pool (h : m.Same m') {index : Nat} {pool : ArchetypePool R}
    (hpool : m.entityPools[index]? = some pool) :
    ∃ pool', m'.entityPools[index]? = some pool' ∧ pool.Same pool' := by
  have hlt : index < m'.entityPools.length := by
    rw [h.length]
    exact (List.getElem?_eq_some_iff.mp hpool).1
  exact ⟨_, List.getElem?_eq_getElem hlt,
    h.pools index pool _ hpool (List.getElem?_eq_getElem hlt)⟩

theorem Same.exists_pool' (h : m.Same m') {index : Nat} {pool' : ArchetypePool R}
    (hpool' : m'.entityPools[index]? = some pool') :
    ∃ pool, m.entityPools[index]? = some pool ∧ pool.Same pool' := by
  have hlt : index < m.entityPools.length := by
    rw [← h.length]
    exact (List.getElem?_eq_some_iff.mp hpool').1
  exact ⟨_, List.getElem?_eq_getElem hlt,
    h.pools index _ pool' (List.getElem?_eq_getElem hlt) hpool'⟩

/-- The free lists are the same. -/
theorem Same.free (h : m.Same m') (hentity : m'.Free entity) : m.Free entity := by
  obtain ⟨pool', hpool', hfree⟩ := hentity
  obtain ⟨pool, hpool, hsame⟩ := h.exists_pool' hpool'
  exact ⟨pool, hpool, hsame.freePos ▸ hfree⟩

theorem Same.trans (h : m.Same m') (h' : m'.Same m'') : m.Same m'' := by
  refine ⟨h'.ptrPool.trans h.ptrPool, h'.length.trans h.length, ?_⟩
  intro index pool pool'' hpool hpool''
  obtain ⟨pool', hpool', hsame⟩ := h.exists_pool hpool
  exact hsame.trans (h'.pools index pool' pool'' hpool' hpool'')

theorem slot_set {index : Nat} {pool pool' : ArchetypePool R}
    (hpool : m.entityPools[index]? = some pool) (ptrPool : EntityPtrPool) (entity : EntityRef) :
    (⟨m.entityPools.set index pool', ptrPool⟩ : EntityManager R).slot entity =
      if entity.pool = index then pool'.slot entity.cPos else m.slot entity := by
  have hlt := (List.getElem?_eq_some_iff.mp hpool).1
  split
  next heq =>
    simp only [slot, heq, List.getElem?_set_self hlt]
    rfl
  next hne => simp only [slot, List.getElem?_set_ne (Ne.symm hne)]

theorem slot_of_getElem? {pool : ArchetypePool R}
    (hpool : m.entityPools[entity.pool]? = some pool) :
    m.slot entity = pool.slot entity.cPos := by
  simp only [slot, hpool]
  rfl

/-- The handle in a slot. -/
theorem getChunkPosElem_of_slot {slot : Slot V} (h : m.slot entity = some slot) :
    m.getChunkPosElem entity = some slot.chunkPos := by
  obtain ⟨pool, hpool, h⟩ := Option.bind_eq_some_iff.mp h
  obtain ⟨-, hchunkPos, -⟩ := ArchetypePool.slot_eq_some.mp h
  simp only [getChunkPosElem, hpool, Option.bind_eq_bind, Option.bind_some]
  exact hchunkPos

theorem same_of_operate {f : Slot V → Slot V} (h : m.operate entity f = some m') :
    m.Same m' ∧ ∀ other, other ≠ entity → m'.slot other = m.slot other := by
  obtain ⟨pool, hpool, h⟩ := Option.bind_eq_some_iff.mp h
  obtain ⟨pool', hoperate, h⟩ := Option.bind_eq_some_iff.mp h
  cases h
  obtain ⟨hsame, hslot⟩ := ArchetypePool.same_of_operate hoperate
  refine ⟨⟨rfl, List.length_set, fun index pool₁ pool₂ hpool₁ hpool₂ => ?_⟩, fun other hne => ?_⟩
  · by_cases hindex : index = entity.pool
    · subst hindex
      rw [List.getElem?_set_self (List.getElem?_eq_some_iff.mp hpool).1] at hpool₂
      cases hpool₂
      cases hpool.symm.trans hpool₁
      exact hsame
    · rw [List.getElem?_set_ne (Ne.symm hindex), hpool₁] at hpool₂
      cases hpool₂
      exact ArchetypePool.Same.refl pool₁
  · rw [slot_set hpool]
    split
    next heq =>
      have hcPos : other.cPos ≠ entity.cPos := by
        intro hcPos
        apply hne
        cases other
        cases entity
        cases heq
        cases hcPos
        rfl
      rw [hslot other.cPos hcPos, slot_of_getElem? (heq ▸ hpool)]
    next => rfl

/-! ## One visit -/

variable {status : Option EntityStatus} {entities : List EntityRef} {visits : List (Visit V)}

/-- The element is passed over, or it is given to the system. -/
theorem innerOperate_cases {f : Slot V → Slot V}
    (h : innerOperate status f m entity = some (m', visits)) : ∃ before,
      m.slot entity = some before ∧
      ((status.all (· = before.entityStatus) = false ∧ m' = m ∧ visits = []) ∨
        (status.all (· = before.entityStatus) = true ∧ m.Same m' ∧
          (∀ other, other ≠ entity → m'.slot other = m.slot other) ∧
          ∃ after, m'.slot entity = some after ∧ visits = [⟨entity, before, after⟩])) := by
  obtain ⟨before, hbefore, h⟩ := Option.bind_eq_some_iff.mp h
  refine ⟨before, hbefore, ?_⟩
  split at h
  next hcall =>
    obtain ⟨m₁, hoperate, h⟩ := Option.bind_eq_some_iff.mp h
    obtain ⟨after, hafter, h⟩ := Option.bind_eq_some_iff.mp h
    cases h
    obtain ⟨hsame, hslot⟩ := same_of_operate hoperate
    exact .inr ⟨hcall, hsame, hslot, after, hafter, rfl⟩
  next hcall =>
    cases h
    exact .inl ⟨Bool.not_eq_true _ ▸ hcall, rfl, rfl⟩

/-- A position of a shaped pool. -/
def Readable (m : EntityManager R) (entity : EntityRef) : Prop :=
  ∃ pool, m.entityPools[entity.pool]? = some pool ∧ pool.Shaped ∧
    entity.cPos ∈ Grid.cells pool.shape

theorem Same.readable (h : m.Same m') (hentity : m.Readable entity) : m'.Readable entity := by
  obtain ⟨pool, hpool, hshaped, hcPos⟩ := hentity
  obtain ⟨pool', hpool', hsame⟩ := h.exists_pool hpool
  exact ⟨pool', hpool', hsame.shaped hshaped, hsame.shape ▸ hcPos⟩

include slots in
theorem Readable.exists_slot (h : m.Readable entity) : ∃ slot, m.slot entity = some slot := by
  obtain ⟨pool, hpool, hshaped, hcPos⟩ := h
  obtain ⟨slot, hslot⟩ := hshaped.exists_slot hcPos
  exact ⟨slot, (slot_of_getElem? hpool).trans hslot⟩

theorem Readable.isSome_innerOperate (h : m.Readable entity) (status : Option EntityStatus)
    (f : Slot V → Slot V) : (innerOperate status f m entity).isSome := by
  obtain ⟨before, hbefore⟩ := h.exists_slot
  unfold innerOperate
  simp only [hbefore, Option.bind_eq_bind, Option.bind_some]
  split
  · obtain ⟨pool, hpool, hshaped, hcPos⟩ := h
    obtain ⟨pool', hpool'⟩ := Option.isSome_iff_exists.mp (hshaped.isSome_operate hcPos f)
    have hoperate : m.operate entity f =
        some { m with entityPools := m.entityPools.set entity.pool pool' } := by
      simp only [operate, hpool, hpool', Option.bind_eq_bind, Option.bind_some]
      rfl
    obtain ⟨after, hafter⟩ := ((same_of_operate hoperate).1.readable
      ⟨pool, hpool, hshaped, hcPos⟩).exists_slot
    simp only [hoperate, hafter, Option.bind_some]
    rfl
  · rfl

/-! ## A run over the elements -/

theorem same_of_operateEach {operate : Nat → Slot V → Slot V}
    (h : operateEach status operate entities m = some (m', visits)) : m.Same m' := by
  induction entities generalizing operate m visits with
  | nil =>
    cases h
    exact Same.refl m'
  | cons entity entities ih =>
    obtain ⟨⟨m₁, visit⟩, hone, h⟩ := Option.bind_eq_some_iff.mp h
    obtain ⟨⟨m₂, rest⟩, hrest, h⟩ := Option.bind_eq_some_iff.mp h
    cases h
    obtain ⟨before, -, ⟨-, rfl, -⟩ | ⟨-, hsame, -, -⟩⟩ := innerOperate_cases hone
    · exact ih hrest
    · exact hsame.trans (ih hrest)

theorem isSome_operateEach (hentities : ∀ entity ∈ entities, m.Readable entity)
    (status : Option EntityStatus) (operate : Nat → Slot V → Slot V) :
    (operateEach status operate entities m).isSome := by
  induction entities generalizing operate m with
  | nil => rfl
  | cons entity entities ih =>
    obtain ⟨hentity, hrest⟩ := List.forall_mem_cons.mp hentities
    obtain ⟨⟨m₁, visit⟩, hone⟩ :=
      Option.isSome_iff_exists.mp (hentity.isSome_innerOperate status (operate 0))
    have hsame : m.Same m₁ := by
      obtain ⟨before, -, ⟨-, rfl, -⟩ | ⟨-, hsame, -, -⟩⟩ := innerOperate_cases hone
      · exact Same.refl _
      · exact hsame
    obtain ⟨⟨m₂, rest⟩, hrest⟩ := Option.isSome_iff_exists.mp
      (ih (fun other hother => hsame.readable (hrest other hother)) fun n => operate (n + 1))
    simp only [operateEach, hone, hrest, Option.bind_eq_bind, Option.bind_some]
    rfl

/-- What every visit keeps of the slot it is given, a run keeps of all slots. -/
theorem operateEach_rec {Q : EntityRef → Slot V → Prop} {operate : Nat → Slot V → Slot V}
    (h : operateEach status operate entities m = some (m', visits))
    (hm : ∀ entity slot, m.slot entity = some slot → Q entity slot)
    (hvisits : ∀ visit ∈ visits, Q visit.entity visit.before → Q visit.entity visit.after) :
    ∀ entity slot, m'.slot entity = some slot → Q entity slot := by
  induction entities generalizing operate m visits with
  | nil =>
    cases h
    exact hm
  | cons entity entities ih =>
    obtain ⟨⟨m₁, visit⟩, hone, h⟩ := Option.bind_eq_some_iff.mp h
    obtain ⟨⟨m₂, rest⟩, hrest, h⟩ := Option.bind_eq_some_iff.mp h
    cases h
    obtain ⟨hvisit, hvisits⟩ := List.forall_mem_append.mp hvisits
    refine ih hrest (fun other slot hslot => ?_) hvisits
    obtain ⟨before, hbefore, ⟨-, rfl, -⟩ | ⟨-, -, hothers, after, hafter, rfl⟩⟩ :=
      innerOperate_cases hone
    · exact hm other slot hslot
    · by_cases heq : other = entity
      · subst heq
        cases hafter.symm.trans hslot
        exact hvisit _ List.mem_cons_self (hm _ _ hbefore)
      · exact hm other slot ((hothers other heq).symm.trans hslot)

/-- The elements an `AStatusMonoSystem` is called for: those that have its status, each given as it
is before the run. -/
theorem visits_operateEach {operate : Nat → Slot V → Slot V} (hnodup : entities.Nodup)
    (h : operateEach status operate entities m = some (m', visits)) :
    visits.map Visit.entity = entities.filter (fun entity =>
        (m.slot entity).any fun slot => status.all (· = slot.entityStatus)) ∧
      ∀ visit ∈ visits, m.slot visit.entity = some visit.before := by
  induction entities generalizing operate m visits with
  | nil =>
    cases h
    exact ⟨rfl, fun visit hvisit => absurd hvisit List.not_mem_nil⟩
  | cons entity entities ih =>
    obtain ⟨hnot, hnodup⟩ := List.nodup_cons.mp hnodup
    obtain ⟨⟨m₁, visit⟩, hone, h⟩ := Option.bind_eq_some_iff.mp h
    obtain ⟨⟨m₂, rest⟩, hrest, h⟩ := Option.bind_eq_some_iff.mp h
    cases h
    obtain ⟨before, hbefore, hcases⟩ := innerOperate_cases hone
    obtain ⟨hentities, hbefores⟩ := ih hnodup hrest
    -- the elements still to come are as they were
    have hslots : ∀ other ∈ entities, m₁.slot other = m.slot other := by
      intro other hother
      obtain ⟨-, rfl, -⟩ | ⟨-, -, hothers, -⟩ := hcases
      · rfl
      · exact hothers other (ne_of_mem_of_not_mem hother hnot)
    have hfilter : entities.filter (fun entity =>
        (m₁.slot entity).any fun slot => status.all (· = slot.entityStatus)) =
        entities.filter fun entity =>
          (m.slot entity).any fun slot => status.all (· = slot.entityStatus) := by
      apply List.filter_congr
      intro other hother
      rw [hslots other hother]
    have hrest' : ∀ visit ∈ rest, m.slot visit.entity = some visit.before := by
      intro visit hvisit
      have hmem : visit.entity ∈ entities := by
        have hmap : visit.entity ∈ rest.map Visit.entity := List.mem_map_of_mem hvisit
        rw [hentities] at hmap
        exact (List.mem_filter.mp hmap).1
      rw [← hslots _ hmem]
      exact hbefores visit hvisit
    rw [hfilter] at hentities
    obtain ⟨hcall, -, rfl⟩ | ⟨hcall, -, -, after, -, rfl⟩ := hcases
    · refine ⟨?_, hrest'⟩
      rw [List.filter_cons_of_neg (by
        rw [hbefore, Option.any_some, hcall]
        exact Bool.false_ne_true)]
      exact hentities
    · constructor
      · rw [List.filter_cons_of_pos (by rw [hbefore, Option.any_some, hcall])]
        exact congrArg (entity :: ·) hentities
      · exact List.forall_mem_cons.mpr ⟨hbefore, hrest'⟩

/-! ## Whole systems -/

theorem same_of_runSystem {system : ISystem Nat} {operate : Nat → Slot V → Slot V}
    (h : m.runSystem system status operate = some (m', visits)) : m.Same m' := by
  obtain ⟨entities, -, h⟩ := Option.bind_eq_some_iff.mp h
  exact same_of_operateEach h

section Systems

variable {S : Type} {systems : Systems S Nat} {statusOf : S → Option EntityStatus}
  {operate : Nat → S → ℚ → Nat → Slot V → Slot V} {runs : List (S × ℚ)}

theorem same_of_runSystems (h : runSystems systems statusOf operate runs m = some (m', visits)) :
    m.Same m' := by
  induction runs generalizing operate m visits with
  | nil =>
    cases h
    exact Same.refl m'
  | cons run runs ih =>
    obtain ⟨⟨m₁, first⟩, hone, h⟩ := Option.bind_eq_some_iff.mp h
    obtain ⟨⟨m₂, more⟩, hrest, h⟩ := Option.bind_eq_some_iff.mp h
    cases h
    exact (same_of_runSystem hone).trans (ih hrest)

/-- What every visit keeps of the slot it is given, the systems keep of all slots. -/
theorem runSystems_rec {Q : EntityRef → Slot V → Prop}
    (h : runSystems systems statusOf operate runs m = some (m', visits))
    (hm : ∀ entity slot, m.slot entity = some slot → Q entity slot)
    (hvisits : ∀ visit ∈ visits, Q visit.entity visit.before → Q visit.entity visit.after) :
    ∀ entity slot, m'.slot entity = some slot → Q entity slot := by
  induction runs generalizing operate m visits with
  | nil =>
    cases h
    exact hm
  | cons run runs ih =>
    obtain ⟨⟨m₁, first⟩, hone, h⟩ := Option.bind_eq_some_iff.mp h
    obtain ⟨⟨m₂, more⟩, hrest, h⟩ := Option.bind_eq_some_iff.mp h
    cases h
    obtain ⟨hfirst, hmore⟩ := List.forall_mem_append.mp hvisits
    obtain ⟨entities, -, hone⟩ := Option.bind_eq_some_iff.mp hone
    exact ih hrest (operateEach_rec hone hm hfirst) hmore

end Systems

end EntityManager

end ProjectE.Ecs
