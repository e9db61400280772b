import ProjectE.Ecs.Owned

/-!
# The ranges of createEntities

`createEntities` returns a view: the positions it took are copied into `tempCopy`, and the range
looks up what is there when it is gone over. `tempCopy` is static, one for each instantiation of the
function template, for all managers and all calls. So a range is that of the last call of its
instantiation, whatever call returned it.

`Ranges` are the managers of a program with these buffers. `held` records the ranges returned whose
entities were not destroyed since, each with the entities its call created; the managers do not see
it. As long as no call finds a range of its instantiation held that is not empty, every range yields
its own entities (`ranges_own`); on one manager such a call always breaks the earlier range.
-/

namespace ProjectE.Ecs

open Verif

/-- An instantiation of `_createEntities`: with the number of entities given as a template argument,
or at the call. -/
structure Instantiation where
  archetypeName : String
  N : Option Nat
deriving DecidableEq, Repr

/-- What `createEntities` returns: a view of the `tempCopy` of its instantiation, into a pool of a
manager. -/
structure EntityRange where
  instantiation : Instantiation
  manager : Nat
  pool : Nat
  count : Nat
deriving DecidableEq, Repr

/-- A range, and the entities created by the call that returned it. -/
structure Held where
  range : EntityRange
  created : List Created
deriving DecidableEq, Repr

/-- The managers of a program, the buffers behind the ranges, and the ranges held. There is one
buffer for each instantiation of the template, whichever manager creates. -/
structure Ranges (R S : Type) where
  managers : List (World R S)
  tempCopy : Instantiation → List ChunkPos
  held : List Held

/-- What a program does with its managers. -/
inductive RangesLabel (R S V : Type) where
  | newManager (systems : Systems S Nat) (fixedUpdateTime : ℚ)
  | createEntities (manager : Nat) (instantiation : Instantiation) (count : Nat)
      (status : EntityStatus)
  | act (manager : Nat) (act : Act R S V)

/-- An act that returns a range. -/
def Act.returnsRange {R S V : Type} : Act R S V → Bool
  | .createEntities _ _ _ => true
  | _ => false

section Definitions

variable {R S V : Type} [ComponentPools R]

namespace Instantiation

/-- The number of entities a call creates, `count` being its argument where it has one. -/
def size (instantiation : Instantiation) (count : Nat) : Nat := instantiation.N.getD count

/-- A call of one of the overloads: the number of entities is an argument of the call, or of the
template. -/
def createEntities (instantiation : Instantiation) (m : EntityManager R) (count : Nat)
    (status : EntityStatus) : Option (EntityManager R × List EntityRef) :=
  match instantiation.N with
  | none => m.createEntities instantiation.archetypeName count status
  | some N => m.createEntitiesN instantiation.archetypeName N status

end Instantiation

namespace Ranges

/-- Going over a range: the first positions that are in its buffer now, looked up in its pool. -/
def iterate (s : Ranges R S) (range : EntityRange) : Option (List EntityRef) :=
  ((s.tempCopy range.instantiation).take range.count).mapM fun pos => do
    let w ← s.managers[range.manager]?
    let entityPool ← w.manager.entityPools[range.pool]?
    let entity ← entityPool.getRawEntity pos
    return ⟨range.pool, entity⟩

variable [slots : ComponentSlots R V] [DecidableEq S]

/-- A step. The positions copied are those of the entities that the range yields at once. -/
def step (statusOf : S → Option EntityStatus) (s : Ranges R S) :
    RangesLabel R S V → Option (Ranges R S)
  | .newManager systems fixedUpdateTime =>
    some { s with managers := s.managers ++ [.new systems fixedUpdateTime] }
  | .createEntities manager instantiation count status => do
    let w ← s.managers[manager]?
    let (_, pool) ← w.manager.getEntityPool instantiation.archetypeName
    let (m, entities) ← instantiation.createEntities w.manager count status
    let created ← record m entities
    return {
      managers := s.managers.set manager { w with manager := m, created := w.created ++ created }
      tempCopy := Function.update s.tempCopy instantiation (entities.map (·.cPos))
      held := s.held ++ [⟨⟨instantiation, manager, pool, instantiation.size count⟩, created⟩] }
  | .act manager act =>
    if act.returnsRange then none
    else do
      let w ← s.managers[manager]?
      let w' ← w.step statusOf act
      return { s with
        managers := s.managers.set manager w'
        held := s.held.filter fun h =>
          h.range.manager = manager → ∀ c ∈ h.created, c ∈ w'.created }

/-- Handles are destroyed once, while they are live, and as entities of their own pools. -/
def OwnDestroys (s : Ranges R S) : RangesLabel R S V → Prop
  | .act manager act => ∀ w ∈ s.managers[manager]?, w.OwnDestroys act
  | _ => True

/-- No range of the instantiation is held that is not empty. -/
def AloneInBuffer (s : Ranges R S) (a : RangesLabel R S V) : Prop :=
  s.OwnDestroys a ∧
    match a with
    | .createEntities _ instantiation _ _ =>
      ∀ h ∈ s.held, h.range.instantiation = instantiation → h.range.count = 0
    | _ => True

instance (s : Ranges R S) : ∀ a : RangesLabel R S V, Decidable (s.OwnDestroys a)
  | .newManager _ _ | .createEntities _ _ _ _ => .isTrue trivial
  | .act _ _ => inferInstanceAs (Decidable (∀ _ ∈ _, _))

instance (s : Ranges R S) (a : RangesLabel R S V) : Decidable (s.AloneInBuffer a) :=
  match a with
  | .newManager _ _ | .act _ _ => inferInstanceAs (Decidable (_ ∧ True))
  | .createEntities _ _ _ _ => inferInstanceAs (Decidable (_ ∧ ∀ _ ∈ _, _))

/-- Programs from when they have no manager. -/
def machine (R S : Type) {V : Type} [ComponentPools R] [ComponentSlots R V] [DecidableEq S]
    (statusOf : S → Option EntityStatus) : Machine (Ranges R S) (RangesLabel R S V) where
  init s := s = ⟨[], fun _ => [], []⟩
  step := step statusOf

end Ranges

/-- Every range held yields the entities of its call, as many as were asked for, in order, and no
two of one manager have one in common. -/
structure OwnRanges (s : Ranges R S) : Prop where
  yields : ∀ h ∈ s.held, s.iterate h.range = some (h.created.map Created.entity)
  count : ∀ h ∈ s.held, h.created.length = h.range.count
  disjoint : s.held.Pairwise fun h h' => h.range.manager = h'.range.manager →
    ∀ entities entities', s.iterate h.range = some entities →
      s.iterate h'.range = some entities' → entities.Disjoint entities'

end Definitions

/-! ## Pools and entities -/

section Pools

variable {R : Type} [ComponentPools R] {m : EntityManager R} {created new : List Created}

omit [ComponentPools R] in
theorem eq_idxOf_of_find? {name : String} {pool : ArchetypePool R} {index : Nat} :
    ∀ {pools : List (ArchetypePool R)} {k : Nat},
      (pools.zipIdx k).find? (fun entry => entry.1.entityName = name) = some (pool, index) →
        index = k + (pools.map (·.entityName)).idxOf name
  | first :: pools, k, h => by
    rw [List.zipIdx_cons] at h
    by_cases hname : first.entityName = name
    · rw [List.find?_cons_of_pos (by simpa using hname)] at h
      cases h
      rw [List.map_cons, hname, List.idxOf_cons_self, Nat.add_zero]
    · rw [List.find?_cons_of_neg (by simpa using hname)] at h
      rw [eq_idxOf_of_find? h, List.map_cons, List.idxOf_cons_ne _ hname]
      omega

omit [ComponentPools R] in
/-- A pool is found at the place of its name. -/
theorem EntityManager.eq_idxOf_of_getEntityPool {name : String} {pool : ArchetypePool R}
    {index : Nat} (h : m.getEntityPool name = some (pool, index)) :
    name ∈ m.names ∧ index = m.names.idxOf name := by
  obtain ⟨hpool, hname⟩ := EntityManager.getEntityPool_some h
  refine ⟨?_, ?_⟩
  · exact List.mem_map.mpr ⟨pool, List.mem_of_getElem? hpool, hname⟩
  · rw [eq_idxOf_of_find? h, Nat.zero_add]
    rfl

/-- An entity is recorded once. -/
theorem Owned.entity_ne (h : Owned m (created ++ new)) {c c' : Created} (hc : c ∈ created)
    (hc' : c' ∈ new) : c.entity ≠ c'.entity := by
  intro heq
  have hlt := h.pool_lt c (List.mem_append_left _ hc)
  have hnodup := (h.pools _ _ (List.getElem?_eq_getElem hlt)).nodup_used
  rw [positions_append] at hnodup
  refine List.disjoint_of_nodup_append hnodup (mem_positions_self hc) ?_
  exact mem_positions.mpr ⟨c', hc', heq.symm⟩

/-- The position of an entity recorded can be looked up. -/
theorem Owned.getRawEntity (h : Owned m created) {c : Created} (hc : c ∈ created) :
    ∃ pool, m.entityPools[c.entity.pool]? = some pool ∧
      pool.getRawEntity c.entity.cPos = some c.entity.cPos := by
  have hpool := List.getElem?_eq_getElem (h.pool_lt c hc)
  have hlaid := h.pools _ _ hpool
  exact ⟨_, hpool, ArchetypePool.getRawEntity_of_uniform hlaid.uniform
    (hlaid.mem_cells_of_mem_used (mem_positions_self hc))⟩

end Pools

/-! ## What is recorded -/

section Records

variable {R S V : Type} [ComponentPools R] [slots : ComponentSlots R V] [DecidableEq S]
  {statusOf : S → Option EntityStatus} {s t : Ranges R S} {w w' : World R S} {h h' : Held}
  {manager : Nat}

/-- What creating for an instantiation does: so many entities join those that are owned, all in the
pool that is found under the name. -/
structure Creation (w : World R S) (instantiation : Instantiation) (count index : Nat)
    (m : EntityManager R) (created : List Created) : Prop where
  owned : Owned m (w.created ++ created)
  names : m.names = w.manager.names
  found : instantiation.archetypeName ∈ m.names
  index_eq : index = m.names.idxOf instantiation.archetypeName
  pool : ∀ c ∈ created, c.entity.pool = index
  length : created.length = instantiation.size count

omit [DecidableEq S] in
include slots in
theorem creation_of_createEntities (howned : Owned w.manager w.created)
    {instantiation : Instantiation} {count index : Nat} {status : EntityStatus}
    {pool : ArchetypePool R} {m : EntityManager R} {entities : List EntityRef}
    {created : List Created}
    (hfound : w.manager.getEntityPool instantiation.archetypeName = some (pool, index))
    (hcreate : instantiation.createEntities w.manager count status = some (m, entities))
    (hrecord : record m entities = some created) :
    Creation w instantiation count index m created ∧ created.map Created.entity = entities := by
  have hmany : w.manager.createEntities instantiation.archetypeName (instantiation.size count)
      status = some (m, entities) := by
    rw [Instantiation.createEntities] at hcreate
    rw [Instantiation.size]
    cases hN : instantiation.N with
    | none =>
      rw [hN] at hcreate
      exact hcreate
    | some N =>
      rw [hN] at hcreate
      exact hcreate
  obtain ⟨new, hnew, hmap, hnewOwned, -⟩ := howned.createEntities hmany
  cases hrecord.symm.trans hnew
  have hnames := EntityManager.names_createEntities howned.shaped hmany
  obtain ⟨hmem, hindex⟩ := EntityManager.eq_idxOf_of_getEntityPool hfound
  obtain ⟨pool', index', grown, set, ptrGrown, ptrSet, ids, hfound', hc, -, hentities⟩ :=
    howned.shaped.createEntities_cases hmany
  cases hfound.symm.trans hfound'
  refine ⟨⟨hnewOwned, hnames, hnames ▸ hmem, hnames ▸ hindex, fun c hmemc => ?_, ?_⟩, hmap⟩
  · have hentity : c.entity ∈ entities := hmap ▸ List.mem_map_of_mem hmemc
    rw [hentities] at hentity
    obtain ⟨cPos, -, heq⟩ := List.mem_map.mp hentity
    rw [← heq]
  · have hlength := congrArg List.length (hmap.trans hentities)
    rwa [List.length_map, List.length_map, List.length_take_of_le
      (ArchetypePool.le_length_of_growTo hc.grow)] at hlength

/-- The entities of a range are recorded in its manager, in the pool it looks them up in. They are
as many as the range believes it has. -/
structure Tracks (s : Ranges R S) (h : Held) : Prop where
  managed : ∃ w, s.managers[h.range.manager]? = some w ∧ (∀ c ∈ h.created, c ∈ w.created) ∧
    h.range.instantiation.archetypeName ∈ w.manager.names ∧
      h.range.pool = w.manager.names.idxOf h.range.instantiation.archetypeName
  pool : ∀ c ∈ h.created, c.entity.pool = h.range.pool
  length : h.created.length = h.range.count

/-- The ranges of two calls have no entity in common. -/
def Apart (h h' : Held) : Prop :=
  h.range.manager = h'.range.manager → ∀ c ∈ h.created, ∀ c' ∈ h'.created, c.entity ≠ c'.entity

/-- What holds of the records, whatever is in the buffers: the entities are owned by their managers,
and no entity is in two ranges. -/
structure Recorded (s : Ranges R S) : Prop where
  owned : ∀ w ∈ s.managers, Owned w.manager w.created
  tracks : ∀ h ∈ s.held, Tracks s h
  apart : s.held.Pairwise Apart

/-- The buffer of a range begins with the positions of its entities. -/
def Buffered (s : Ranges R S) (h : Held) : Prop :=
  (s.tempCopy h.range.instantiation).take h.range.count = h.created.map fun c => c.entity.cPos

omit [ComponentPools R] [DecidableEq S] in
/-- What is recorded of a range is still so once its manager has changed, its names being as before
and its entities not destroyed. -/
theorem Tracks.set (htracks : Tracks s h) (hw : s.managers[manager]? = some w)
    {tempCopy : Instantiation → List ChunkPos} {held : List Held} {newNames : List String}
    (hnames : w'.manager.names = w.manager.names ++ newNames)
    (hkept : h.range.manager = manager → ∀ c ∈ h.created, c ∈ w'.created) :
    Tracks ⟨s.managers.set manager w', tempCopy, held⟩ h := by
  obtain ⟨⟨w₁, hw₁, hcreated, hmem, hindex⟩, hpool, hlength⟩ := htracks
  refine ⟨?_, hpool, hlength⟩
  by_cases hsame : h.range.manager = manager
  · rw [hsame] at hw₁
    cases hw₁.symm.trans hw
    refine ⟨w', ?_, hkept hsame, ?_, ?_⟩
    · rw [hsame, List.getElem?_set_self (List.getElem?_eq_some_iff.mp hw).1]
    · rw [hnames]
      exact List.mem_append_left _ hmem
    · rw [hnames, List.idxOf_append_of_mem hmem]
      exact hindex
  · refine ⟨w₁, ?_, hcreated, hmem, hindex⟩
    rw [List.getElem?_set_ne (Ne.symm hsame)]
    exact hw₁

omit [ComponentPools R] slots [DecidableEq S] in
theorem forall_managers_set {managers : List (World R S)} {Q : World R S → Prop}
    (h : ∀ w ∈ managers, Q w) (hw' : Q w') : ∀ w ∈ managers.set manager w', Q w := by
  intro w hw
  rcases List.mem_or_eq_of_mem_set hw with hmem | rfl
  · exact h w hmem
  · exact hw'

/-! ## What a step does -/

/-- What a step does to the managers, the buffers and the record. -/
inductive Effect (s : Ranges R S) : RangesLabel R S V → Ranges R S → Prop
  | newManager (systems : Systems S Nat) (fixedUpdateTime : ℚ) :
      Effect s (.newManager systems fixedUpdateTime)
        { s with managers := s.managers ++ [.new systems fixedUpdateTime] }
  | creates {manager : Nat} {instantiation : Instantiation} {count index : Nat}
      {status : EntityStatus} {w : World R S} {m : EntityManager R} {created : List Created}
      (hw : s.managers[manager]? = some w)
      (hcreation : Creation w instantiation count index m created) :
      Effect s (.createEntities manager instantiation count status) {
        managers := s.managers.set manager { w with manager := m, created := w.created ++ created }
        tempCopy := Function.update s.tempCopy instantiation
          (created.map fun c => c.entity.cPos)
        held := s.held ++ [⟨⟨instantiation, manager, index, instantiation.size count⟩, created⟩] }
  | acts {manager : Nat} {act : Act R S V} {w w' : World R S} {newNames : List String}
      (hw : s.managers[manager]? = some w) (howned : Owned w'.manager w'.created)
      (hnames : w'.manager.names = w.manager.names ++ newNames) :
      Effect s (.act manager act) { s with
        managers := s.managers.set manager w'
        held := s.held.filter fun h =>
          h.range.manager = manager → ∀ c ∈ h.created, c ∈ w'.created }

theorem effect_of_step {a : RangesLabel R S V} (hrec : Recorded s) (hown : s.OwnDestroys a)
    (hstep : (Ranges.machine R S statusOf).step s a = some t) : Effect s a t := by
  cases a with
  | newManager systems fixedUpdateTime =>
    cases hstep
    exact .newManager systems fixedUpdateTime
  | createEntities manager instantiation count status =>
    obtain ⟨w, hw, hstep⟩ := Option.bind_eq_some_iff.mp hstep
    obtain ⟨⟨pool, index⟩, hfound, hstep⟩ := Option.bind_eq_some_iff.mp hstep
    obtain ⟨⟨m, entities⟩, hcreate, hstep⟩ := Option.bind_eq_some_iff.mp hstep
    obtain ⟨created, hrecord, hstep⟩ := Option.bind_eq_some_iff.mp hstep
    obtain ⟨hcreation, rfl⟩ := creation_of_createEntities
      (hrec.owned w (List.mem_of_getElem? hw)) hfound hcreate hrecord
    cases hstep
    rw [List.map_map]
    exact .creates hw hcreation
  | act manager act =>
    simp only [Ranges.machine, Ranges.step] at hstep
    split at hstep
    · cases hstep
    · obtain ⟨w, hw, hstep⟩ := Option.bind_eq_some_iff.mp hstep
      obtain ⟨w', hw', hstep⟩ := Option.bind_eq_some_iff.mp hstep
      cases hstep
      have howned := hrec.owned w (List.mem_of_getElem? hw)
      have hchange := World.change_of_step howned.shaped hw'
      have howned' := (World.owned_change howned
        (World.ownChange_of_change howned (hown w hw) hchange)).1
      exact .acts hw howned' (World.names_change howned.shaped hchange)

omit slots [DecidableEq S] in
/-- The records stay right, whatever is created in whatever order. -/
theorem recorded_of_effect {a : RangesLabel R S V} (hrec : Recorded s) (heffect : Effect s a t) :
    Recorded t := by
  cases heffect with
  | newManager systems fixedUpdateTime =>
    refine ⟨fun w hw => ?_, fun h hh => ?_, hrec.apart⟩
    · rcases List.mem_append.mp hw with hw | hw
      · exact hrec.owned w hw
      · cases List.mem_singleton.mp hw
        exact owned_new
    · obtain ⟨⟨w, hw, hrest⟩, hpool, hlength⟩ := hrec.tracks h hh
      refine ⟨⟨w, ?_, hrest⟩, hpool, hlength⟩
      rw [List.getElem?_append_left (List.getElem?_eq_some_iff.mp hw).1]
      exact hw
  | @creates manager instantiation count index status w m created hw hcreation =>
    have hnames : m.names = w.manager.names ++ [] := by rw [List.append_nil, hcreation.names]
    have hsuper : ∀ h ∈ s.held, h.range.manager = manager → ∀ c ∈ h.created, c ∈ w.created := by
      intro h hh hsame
      obtain ⟨w₁, hw₁, hcreated, -⟩ := (hrec.tracks h hh).managed
      rw [hsame] at hw₁
      cases hw₁.symm.trans hw
      exact hcreated
    refine ⟨forall_managers_set hrec.owned hcreation.owned, fun h hh => ?_, ?_⟩
    · rcases List.mem_append.mp hh with hh | hh
      · exact (hrec.tracks h hh).set hw hnames fun hsame c hc =>
          List.mem_append_left _ (hsuper h hh hsame c hc)
      · cases List.mem_singleton.mp hh
        refine ⟨⟨_, List.getElem?_set_self (List.getElem?_eq_some_iff.mp hw).1,
          fun c hc => List.mem_append_right _ hc, hcreation.found, hcreation.index_eq⟩,
          hcreation.pool, hcreation.length⟩
    · refine List.pairwise_append.mpr ⟨hrec.apart, List.pairwise_singleton _ _, ?_⟩
      intro h hh h' hh' hsame c hc c' hc'
      cases List.mem_singleton.mp hh'
      exact hcreation.owned.entity_ne (hsuper h hh hsame c hc) hc'
  | @acts manager act w w' newNames hw howned hnames =>
    refine ⟨forall_managers_set hrec.owned howned, fun h hh => ?_,
      hrec.apart.sublist List.filter_sublist⟩
    obtain ⟨hmem, hkept⟩ := List.mem_filter.mp hh
    exact (hrec.tracks h hmem).set hw hnames (of_decide_eq_true hkept)

omit slots [DecidableEq S] in
/-- A call fills the buffer of its own instantiation. -/
theorem buffered_of_effect {a : RangesLabel R S V} (hrec : Recorded s) (hcond : s.AloneInBuffer a)
    (hbuffered : ∀ h ∈ s.held, Buffered s h) (heffect : Effect s a t) :
    ∀ h ∈ t.held, Buffered t h := by
  cases heffect with
  | newManager systems fixedUpdateTime => exact hbuffered
  | @creates manager instantiation count index status w m created hw hcreation =>
    intro h hh
    rcases List.mem_append.mp hh with hh | hh
    · by_cases heq : h.range.instantiation = instantiation
      · -- a range held of this instantiation is empty
        have hcount := hcond.2 h hh heq
        have hnil : h.created = [] :=
          List.length_eq_zero_iff.mp ((hrec.tracks h hh).length.trans hcount)
        rw [Buffered, hcount, hnil]
        rfl
      · simp only [Buffered, Function.update_of_ne heq]
        exact hbuffered h hh
    · cases List.mem_singleton.mp hh
      simp only [Buffered, Function.update_self]
      refine List.take_of_length_le ?_
      rw [List.length_map, hcreation.length]
  | @acts manager act w w' newNames hw howned hnames =>
    intro h hh
    exact hbuffered h (List.mem_filter.mp hh).1

/-! ## Every run -/

omit [DecidableEq S] in
theorem Recorded.iterate (hrec : Recorded s) (hh : h ∈ s.held) (hbuffered : Buffered s h) :
    s.iterate h.range = some (h.created.map Created.entity) := by
  have htracks := hrec.tracks h hh
  obtain ⟨w, hw, hcreated, -⟩ := htracks.managed
  rw [Ranges.iterate, hbuffered, List.mapM_map]
  refine Grid.mapM_eq_some_map fun c hc => ?_
  obtain ⟨pool, hpool, hraw⟩ :=
    (hrec.owned w (List.mem_of_getElem? hw)).getRawEntity (hcreated c hc)
  rw [htracks.pool c hc] at hpool
  simp only [Function.comp_apply, hw, hpool, hraw, Option.bind_eq_bind, Option.bind_some]
  rw [← htracks.pool c hc]
  rfl

omit [DecidableEq S] in
/-- Ranges with their positions in their buffers yield their own entities. -/
theorem Recorded.ownRanges (hrec : Recorded s) (hbuffered : ∀ h ∈ s.held, Buffered s h) :
    OwnRanges s where
  yields h hh := hrec.iterate hh (hbuffered h hh)
  count h hh := (hrec.tracks h hh).length
  disjoint := by
    refine hrec.apart.imp_of_mem fun {h h'} hh hh' hapart hsame entities entities' hes hes' => ?_
    cases (hrec.iterate hh (hbuffered h hh)).symm.trans hes
    cases (hrec.iterate hh' (hbuffered h' hh')).symm.trans hes'
    intro e he he'
    obtain ⟨c, hc, rfl⟩ := List.mem_map.mp he
    obtain ⟨c', hc', heq⟩ := List.mem_map.mp he'
    exact hapart hsame c hc c' hc' heq.symm

omit [DecidableEq S] in
theorem recorded_init : Recorded (⟨[], fun _ => [], []⟩ : Ranges R S) :=
  ⟨fun _ hw => absurd hw List.not_mem_nil, fun _ hh => absurd hh List.not_mem_nil, .nil⟩

theorem recorded_of_reach
    (h : (Ranges.machine R S statusOf).ReachUnder Ranges.OwnDestroys s) : Recorded s := by
  refine h.invariant (fun s hs => ?_) fun s a t hrec hown hstep =>
    recorded_of_effect hrec (effect_of_step hrec hown hstep)
  cases hs
  exact recorded_init

theorem ownRanges_of_reach
    (h : (Ranges.machine R S statusOf).ReachUnder Ranges.AloneInBuffer s) : OwnRanges s := by
  have hboth : Recorded s ∧ ∀ h ∈ s.held, Buffered s h := by
    refine h.invariant (I := fun s => Recorded s ∧ ∀ h ∈ s.held, Buffered s h)
      (fun s hs => ?_) fun s a t ⟨hrec, hbuffered⟩ hcond hstep => ?_
    · cases hs
      exact ⟨recorded_init, fun h hh => absurd hh List.not_mem_nil⟩
    · have heffect := effect_of_step hrec hcond.1 hstep
      exact ⟨recorded_of_effect hrec heffect, buffered_of_effect hrec hcond hbuffered heffect⟩
  exact hboth.1.ownRanges hboth.2

omit slots [DecidableEq S] in
/-- A call leaves no range of its instantiation and its manager with its own entities. -/
theorem not_ownRanges_of_effect {instantiation : Instantiation} {count : Nat}
    {status : EntityStatus} (hrec : Recorded s)
    (heffect : Effect s (.createEntities manager instantiation count status : RangesLabel R S V) t)
    (hh : h ∈ s.held) (hinstantiation : h.range.instantiation = instantiation)
    (hmanager : h.range.manager = manager) (hcount : h.range.count ≠ 0) : ¬ OwnRanges t := by
  have hrec' := recorded_of_effect hrec heffect
  cases heffect with
  | @creates _ _ _ index _ w m created hw hcreation =>
    intro hown
    have hmem := List.mem_append_left
      [(⟨⟨instantiation, manager, index, instantiation.size count⟩, created⟩ : Held)] hh
    -- what the range finds first is a position of the new entities
    obtain ⟨c, rest, hcreated⟩ := List.exists_cons_of_length_pos (l := h.created) (by
      rw [(hrec.tracks h hh).length]
      exact Nat.pos_of_ne_zero hcount)
    have hpairs := Grid.forall₂_of_mapM (hown.yields h hmem)
    rw [hcreated, List.map_cons] at hpairs
    obtain ⟨pos, poss, hpos, -, htake⟩ := List.forall₂_cons_right_iff.mp hpairs
    simp only [hinstantiation, Function.update_self] at htake
    have hnew : pos ∈ created.map fun c => c.entity.cPos :=
      List.mem_of_mem_take (htake ▸ List.mem_cons_self)
    obtain ⟨c', hc', hcPos⟩ := List.mem_map.mp hnew
    obtain ⟨_, _, hpos⟩ := Option.bind_eq_some_iff.mp hpos
    obtain ⟨_, _, hpos⟩ := Option.bind_eq_some_iff.mp hpos
    obtain ⟨entity, hraw, hpos⟩ := Option.bind_eq_some_iff.mp hpos
    cases ArchetypePool.eq_of_getRawEntity hraw
    have hentity : (⟨h.range.pool, pos⟩ : EntityRef) = c.entity := Option.some.inj hpos
    -- and it is looked up in the pool they are in
    obtain ⟨w₁, hw₁, hold, -⟩ := (hrec.tracks h hh).managed
    obtain ⟨w₂, hw₂, -, -, hindex⟩ := (hrec'.tracks h hmem).managed
    rw [hmanager] at hw₁ hw₂
    cases hw₁.symm.trans hw
    cases (List.getElem?_set_self (List.getElem?_eq_some_iff.mp hw).1).symm.trans hw₂
    have hpool : h.range.pool = index := by
      rw [hindex, hinstantiation]
      exact hcreation.index_eq.symm
    have hentity' : (⟨index, pos⟩ : EntityRef) = c'.entity := by
      rw [← hcPos, ← hcreation.pool c' hc']
    refine hcreation.owned.entity_ne (hold c (hcreated ▸ List.mem_cons_self)) hc' ?_
    rw [← hentity, ← hentity', hpool]

/-- **The range of a call is its own** as long as no call of the same instantiation, on whatever
manager, finds one held that is not empty: in every such run each range held yields the entities of
its call, and those of different calls have none in common. A call that finds one held of its own
manager always takes it from the earlier call. -/
theorem ranges_own (statusOf : S → Option EntityStatus) :
    (∀ s, (Ranges.machine R S statusOf).ReachUnder Ranges.AloneInBuffer s → OwnRanges s) ∧
    ∀ s, (Ranges.machine R S statusOf).ReachUnder Ranges.OwnDestroys s →
      ∀ manager instantiation count status t,
        (Ranges.machine R S statusOf).step s
          (.createEntities manager instantiation count status) = some t →
        (∃ h ∈ s.held, h.range.instantiation = instantiation ∧ h.range.manager = manager ∧
          h.range.count ≠ 0) → ¬ OwnRanges t := by
  refine ⟨fun s h => ownRanges_of_reach h, ?_⟩
  rintro s h manager instantiation count status t hstep ⟨held, hheld, hinst, hmanager, hcount⟩
  have hrec := recorded_of_reach h
  exact not_ownRanges_of_effect hrec (effect_of_step hrec trivial hstep) hheld hinst hmanager hcount

end Records

/-- Two managers, two instantiations on the one and one of them on the other, and an entity
destroyed in between. -/
theorem ranges_own_window :
    ∃ s : Ranges Unit Empty, OwnRanges s ∧
      s.held.map (fun h => (h.range.manager, h.range.count)) = [(0, 2), (1, 1)] := by
  have hs : (((Ranges.machine Unit Empty fun _ => none).exec Ranges.AloneInBuffer
      ⟨[], fun _ => [], []⟩
      [.newManager Empty.elim 0, .newManager Empty.elim 0,
        .act 0 (.registerEntityPool "Window" 2 () ["EntityStatus", "ChunkPos"]),
        .act 1 (.registerEntityPool "Window" 1 () ["EntityStatus", "ChunkPos"]),
        .createEntities 0 ⟨"Window", none⟩ 1 ENT_ALIVE,
        .createEntities 0 ⟨"Window", some 2⟩ 0 ENT_ALIVE,
        .act 0 (.destroyEntity (0, 0)),
        .createEntities 1 ⟨"Window", none⟩ 1 ENT_ALIVE]).any fun s =>
      decide (s.held.map (fun h => (h.range.manager, h.range.count)) = [(0, 2), (1, 1)])) =
        true := by
    decide +kernel
  obtain ⟨s, hreach, hp⟩ := Machine.reachUnder_of_exec rfl hs
  exact ⟨s, (ranges_own fun _ => none).1 s hreach, of_decide_eq_true hp⟩

/-- Two calls of one instantiation: the first range yields what the second call created. -/
theorem ranges_overwritten :
    ∃ s : Ranges Unit Empty, (Ranges.machine Unit Empty fun _ => none).ReachUnder
      Ranges.OwnDestroys s ∧ ∃ h ∈ s.held, s.iterate h.range = some [⟨0, (0, 1)⟩] ∧
        h.created.map Created.entity = [⟨0, (0, 0)⟩] ∧ ¬ OwnRanges s := by
  have hs : (((Ranges.machine Unit Empty fun _ => none).exec Ranges.OwnDestroys
      ⟨[], fun _ => [], []⟩
      [.newManager Empty.elim 0,
        .act 0 (.registerEntityPool "Window" 2 () ["EntityStatus", "ChunkPos"]),
        .createEntities 0 ⟨"Window", none⟩ 1 ENT_ALIVE,
        .createEntities 0 ⟨"Window", none⟩ 1 ENT_ALIVE]).any fun s =>
      decide (∃ h ∈ s.held, s.iterate h.range = some [⟨0, (0, 1)⟩] ∧
        h.created.map Created.entity = [⟨0, (0, 0)⟩])) = true := by
    decide +kernel
  obtain ⟨s, hreach, hp⟩ := Machine.reachUnder_of_exec rfl hs
  obtain ⟨h, hh, hiterate, hcreated⟩ := of_decide_eq_true hp
  refine ⟨s, hreach, h, hh, hiterate, hcreated, fun hown => ?_⟩
  have hyields := hown.yields h hh
  rw [hiterate, hcreated] at hyields
  cases hyields

end ProjectE.Ecs
