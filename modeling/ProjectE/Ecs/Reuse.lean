import ProjectE.Ecs.SelfCross

/-!
# Using a query again

The overloads of `Query` that are given the manager initialize the query first, that is offer it
every pool the manager has. A query does not forget: what it took at an earlier call it takes once
more. So a call does what it does for the pools held already, and then what a new query would do
(`work_append`), and it is as on a new query exactly if the pools held have nothing for `f`
(`reuse_asFresh`).

`QueryUse` is a query in use, with the calls made so far and what each found. Between calls pools
are registered, and chunks are added and deleted. A call that would run out of bounds has no meaning
and is no step.
-/

namespace ProjectE.Ecs

open Verif

/-! ## Calls -/

/-- The overloads of `Query` that are given the manager; `cross` makes a query of its own. -/
inductive QueryCall where
  | pMap
  | cMap
  | map
  | selfCross
  | cross (componentName : String) (componentNames : List String)
deriving DecidableEq, Repr

/-- What `f` is applied to. -/
inductive Applied (P : Type) where
  | pools (componentPools : List (IComponentPool P))
  | vectors (componentVectors : Vectors P)
  | elems (refTuple : Elems P)
  | pair (refTuple1 refTuple2 : Elems P)
deriving DecidableEq, Repr

/-- A manager and a query, when the query is called with the manager. The manager may have got pools
and chunks since the last time. -/
structure Moment (P : Type) where
  entityPools : List (IArchetypePool P)
  heap : Heap P
  query : Query P

/-- A query in use, and the calls made so far, each with what it found. -/
structure QueryUse (P : Type) extends Moment P where
  calls : List (Moment P × QueryCall)

/-- What is done with the query and its manager. -/
inductive UseLabel (P : Type) where
  | registerEntityPool (entityPool : IArchetypePool P)
  | addChunk (pool : P) (chunkSize : Nat)
  | deleteEverything (pool : P)
  | call (c : QueryCall)

section Definitions

variable {P : Type} [DecidableEq P]

/-- What `f` is applied to for each pool, once the query is initialized. -/
def QueryCall.apply (entityPools : List (IArchetypePool P)) (heap : Heap P) (query : Query P) :
    QueryCall → Option (List (List (Applied P)))
  | .pMap => query.pMap fun componentPools => some [.pools componentPools]
  | .cMap =>
    query.cMap heap (fun componentVectors => some [.vectors componentVectors]) (fun _ => [])
      fun _ => []
  | .map => (query.map heap .none).map (·.map fun events =>
    events.filterMap fun event => event.refTuple.map .elems)
  | .selfCross => (query.selfCross heap).map (·.map (·.map fun call => .pair call.1 call.2))
  | .cross componentName componentNames =>
    let otherQuery := initializeQuery entityPools (Query.new (componentName :: componentNames))
    (query.cross heap otherQuery false).map (·.map (·.map fun call => .pair call.1 call.2))

namespace Moment

/-- What the call applies `f` to. -/
def work (m : Moment P) (c : QueryCall) : Option (List (List (Applied P))) :=
  c.apply m.entityPools m.heap (initializeQuery m.entityPools m.query)

/-- What it would apply `f` to if the query were new. -/
def fresh (m : Moment P) (c : QueryCall) : Option (List (List (Applied P))) :=
  c.apply m.entityPools m.heap
    (initializeQuery m.entityPools (Query.new m.query.componentNames))

/-- The call applies `f` to the same as on a new query, and to each as often. -/
def AsFresh (m : Moment P) (c : QueryCall) : Prop :=
  ∃ work fresh, m.work c = some work ∧ m.fresh c = some fresh ∧
    ∀ isParallel trace trace', Runs isParallel work trace → Runs isParallel fresh trace' →
      trace.Perm trace'

end Moment

/-- The entity pools a query holds component pools of. -/
def Query.heldPools (query : Query P) : List P :=
  query.componentPoolsArrays.filterMap fun componentPools =>
    componentPools.head?.join.map (·.entityPool)

/-- The pools the query holds already have nothing that `f` would be applied to. -/
def Moment.Unburdened (m : Moment P) : QueryCall → Prop
  | .pMap => m.query.heldPools = []
  | .cMap => ∀ ptr ∈ m.query.heldPools, m.heap.shape ptr = []
  | .map => m.heap.places m.query.heldPools = []
  | .selfCross => m.heap.places m.query.heldPools = [] ∨
    ∀ place ∈ m.heap.places (Query.taken m.query.componentNames m.entityPools),
      ∀ place' ∈ m.heap.places (Query.taken m.query.componentNames m.entityPools), place = place'
  | .cross componentName componentNames => m.heap.places m.query.heldPools = [] ∨
    m.heap.places (Query.taken (componentName :: componentNames) m.entityPools) = []

instance (m : Moment P) (c : QueryCall) : Decidable (m.Unburdened c) :=
  match c with
  | .pMap => inferInstanceAs (Decidable (_ = _))
  | .cMap => inferInstanceAs (Decidable (∀ _ ∈ _, _))
  | .map => inferInstanceAs (Decidable (_ = _))
  | .selfCross => inferInstanceAs (Decidable (_ ∨ _))
  | .cross _ _ => inferInstanceAs (Decidable (_ ∨ _))

/-- A query in use: made for some components, it may have been offered pools of the manager. -/
def reuse (P : Type) [DecidableEq P] : Machine (QueryUse P) (UseLabel P) where
  init s := s.calls = [] ∧ ∃ componentName componentNames, ∃ offered ⊆ s.entityPools,
    s.query = initializeQuery offered (Query.new (componentName :: componentNames))
  step s
    | .registerEntityPool entityPool =>
      some { s with entityPools := s.entityPools ++ [entityPool] }
    | .addChunk pool chunkSize => some { s with heap := s.heap.addChunk pool chunkSize }
    | .deleteEverything pool => some { s with heap := s.heap.deleteEverything pool }
    | .call c =>
      if (s.work c).isSome then
        some { s with
          query := initializeQuery s.entityPools s.query
          calls := s.calls ++ [(s.toMoment, c)] }
      else none

/-- The step is no call, or one for which the query holds nothing. -/
def UnburdenedStep (s : QueryUse P) : UseLabel P → Prop
  | .call c => s.Unburdened c
  | _ => True

instance (s : QueryUse P) (a : UseLabel P) : Decidable (UnburdenedStep s a) :=
  match a with
  | .call c => inferInstanceAs (Decidable (s.Unburdened c))
  | .registerEntityPool _ => .isTrue trivial
  | .addChunk _ _ => .isTrue trivial
  | .deleteEverything _ => .isTrue trivial

end Definitions

/-! ## What a call does -/

section Calls

variable {P : Type} [DecidableEq P] {entityPools : List (IArchetypePool P)} {heap : Heap P}
  {query query' : Query P} {name : String} {names : List String} {ptrs ptrs' held new : List P}

namespace QueryCall

/-- What `f` is applied to if the query holds these pools. -/
def applied (entityPools : List (IArchetypePool P)) (heap : Heap P) (names : List String)
    (ptrs : List P) : QueryCall → List (Applied P)
  | .pMap => ptrs.map fun ptr => .pools (Query.poolsOf names ptr)
  | .cMap => (ptrs.flatMap heap.chunksOf).map fun chunk => .vectors (heap.vectorsAt names chunk)
  | .map => (heap.places ptrs).map fun place => .elems (heap.refsAt names place)
  | .selfCross => (Query.pairCalls heap names names true (heap.places ptrs)
    (heap.places ptrs)).map fun call => .pair call.1 call.2
  | .cross componentName componentNames =>
    (Query.pairCalls heap names (componentName :: componentNames) false (heap.places ptrs)
      (heap.places (Query.taken (componentName :: componentNames) entityPools))).map
        fun call => .pair call.1 call.2

/-- What `f` is applied to for the pools held besides what it is applied to for the new ones. -/
def burden (entityPools : List (IArchetypePool P)) (heap : Heap P) (names : List String)
    (held new : List P) : QueryCall → List (Applied P)
  | .selfCross =>
    (Query.pairCalls heap names names true (heap.places held) (heap.places (held ++ new)) ++
      Query.pairCalls heap names names true (heap.places new) (heap.places held)).map
        fun call => .pair call.1 call.2
  | c => c.applied entityPools heap names held

theorem flatten_map_map {α β : Type} (f : α → β) (work : List (List α)) :
    (work.map (·.map f)).flatten = work.flatten.map f := List.map_flatten.symm

/-- The calls of `selfCross` that were made are those for the pairs of slots. -/
theorem selfCross_perm (h : query.Holds (name :: names) ptrs)
    {work : List (List (Elems P × Elems P))} (hwork : query.selfCross heap = some work) :
    work.flatten.Perm (Query.pairCalls heap (name :: names) (name :: names) true
      (heap.places ptrs) (heap.places ptrs)) := by
  have hsizes := (Query.isSome_selfCross_iff h).mp (Option.isSome_of_eq_some hwork)
  cases hwork.symm.trans (Query.selfCross_eq h hsizes)
  exact Query.flatten_pairCalls_perm heap _ _ true ptrs ptrs

theorem apply_perm (h : query.Holds (name :: names) ptrs) {c : QueryCall}
    {work : List (List (Applied P))} (hwork : c.apply entityPools heap query = some work) :
    work.flatten.Perm (c.applied entityPools heap (name :: names) ptrs) := by
  cases c with
  | pMap =>
    cases hwork.symm.trans (Query.pMap_eq h fun ptr _ => rfl)
    rw [← List.flatMap_def]
    exact .of_eq (List.map_eq_flatMap ..).symm
  | cMap =>
    cases hwork.symm.trans (Query.cMap_eq h _ _ fun chunk _ => rfl)
    refine .of_eq ?_
    rw [← List.flatMap_def]
    simp only [List.nil_append, List.append_nil, applied, List.map_eq_flatMap, List.flatMap_assoc]
  | map =>
    rw [apply, Query.map_eq h] at hwork
    cases hwork
    refine .of_eq ?_
    simp only [List.map_map, ← List.flatMap_def, applied, Heap.places, List.map_flatMap,
      List.flatMap_assoc]
    refine List.flatMap_congr fun ptr _ => ?_
    have hevents : (Query.poolEvents heap (name :: names) .none ptr).filterMap (·.refTuple) = _ :=
      Query.filterMap_poolEvents ptr
    have hcalls := congrArg (List.map Applied.elems) hevents
    rw [List.map_filterMap] at hcalls
    refine hcalls.trans ?_
    simp only [Heap.places, List.flatMap_cons, List.flatMap_nil, List.append_nil, List.map_map,
      List.map_flatMap]
    rfl
  | selfCross =>
    obtain ⟨calls, hcalls, rfl⟩ := Option.map_eq_some_iff.mp hwork
    rw [flatten_map_map]
    exact (selfCross_perm h hcalls).map _
  | cross componentName componentNames =>
    have hother := Query.holds_initializeQuery (componentName :: componentNames) entityPools
    rw [apply, Query.cross_eq_of_not_self h hother] at hwork
    cases hwork
    rw [flatten_map_map]
    exact (Query.flatten_pairCalls_perm heap _ _ false ptrs _).map _

/-- A call is in bounds if it is for more pools. -/
theorem isSome_apply_of_subset (h : query.Holds (name :: names) ptrs)
    (h' : query'.Holds (name :: names) ptrs') (hsub : ptrs ⊆ ptrs') {c : QueryCall}
    (hsome : (c.apply entityPools heap query').isSome) :
    (c.apply entityPools heap query).isSome := by
  cases c with
  | pMap => exact Option.isSome_of_eq_some (Query.pMap_eq h fun ptr _ => rfl)
  | cMap => exact Option.isSome_of_eq_some (Query.cMap_eq h _ _ fun chunk _ => rfl)
  | map =>
    rw [apply, Query.map_eq h]
    rfl
  | selfCross =>
    rw [apply, Option.isSome_map, Query.isSome_selfCross_iff h'] at hsome
    rw [apply, Option.isSome_map, Query.isSome_selfCross_iff h]
    have hchunks : ptrs.flatMap heap.chunksOf ⊆ ptrs'.flatMap heap.chunksOf := by
      intro chunk hchunk
      obtain ⟨ptr, hptr, hmem⟩ := List.mem_flatMap.mp hchunk
      exact List.mem_flatMap.mpr ⟨ptr, hsub hptr, hmem⟩
    exact fun chunk hchunk chunk' hchunk' =>
      hsome chunk (hchunks hchunk) chunk' (hchunks hchunk')
  | cross componentName componentNames =>
    have hother := Query.holds_initializeQuery (componentName :: componentNames) entityPools
    rw [apply, Query.cross_eq_of_not_self h hother]
    rfl

/-- A call does what it does for the pools held already, and then what it does for the new ones. -/
theorem applied_append (c : QueryCall) (held new : List P) :
    (c.applied entityPools heap names (held ++ new)).Perm
      (c.burden entityPools heap names held new ++ c.applied entityPools heap names new) := by
  cases c with
  | pMap => exact .of_eq List.map_append
  | cMap => exact .of_eq (by simp only [applied, burden, List.flatMap_append, List.map_append])
  | map => exact .of_eq (by simp only [applied, burden, Heap.places_append, List.map_append])
  | selfCross =>
    simp only [applied, burden, ← List.map_append, List.append_assoc]
    refine List.Perm.map _ ?_
    rw [Heap.places_append, Query.pairCalls_append_left]
    exact (Query.pairCalls_append_right_perm ..).append_left _
  | cross componentName componentNames =>
    refine .of_eq ?_
    simp only [applied, burden, Heap.places_append, Query.pairCalls_append_left, List.map_append]

/-- Without the test of `_selfCrossOperate` there is a pair unless one side has no slot. -/
theorem pairCalls_eq_nil_of_cross {names' : List String} {places places' : List (Place P)} :
    Query.pairCalls heap names names' false places places' = [] ↔ places = [] ∨ places' = [] := by
  rw [Query.pairCalls_eq_nil_iff]
  constructor
  · intro h
    refine or_iff_not_imp_left.mpr fun hne => List.eq_nil_iff_forall_not_mem.mpr ?_
    obtain ⟨place, hplace⟩ := List.exists_mem_of_ne_nil _ hne
    exact fun place' hplace' => absurd (h place hplace place' hplace') Bool.false_ne_true.symm
  · rintro (rfl | rfl)
    · exact fun _ h => absurd h List.not_mem_nil
    · exact fun _ _ _ h => absurd h List.not_mem_nil

/-- Slots met again make a pair with every other slot, in one order or the other. -/
theorem pairCalls_eq_nil_of_selfCross {places places' : List (Place P)} (hsub : places ⊆ places') :
    (Query.pairCalls heap names names true places (places ++ places') = [] ∧
      Query.pairCalls heap names names true places' places = []) ↔
      places = [] ∨ ∀ place ∈ places', ∀ place' ∈ places', place = place' := by
  simp only [Query.pairCalls_eq_nil_iff]
  constructor
  · rintro ⟨hfirst, hsecond⟩
    refine or_iff_not_imp_left.mpr fun hne => ?_
    obtain ⟨place, hplace⟩ := List.exists_mem_of_ne_nil _ hne
    have hall : ∀ place' ∈ places', place' = place := fun place' hplace' => by
      by_contra hother
      rcases Nat.le_total place'.cPos.2 place.cPos.2 with hle | hle
      · have hnot := hfirst place hplace place' (List.mem_append_right _ hplace')
        exact of_decide_eq_false hnot ⟨hle, Ne.symm hother⟩
      · exact of_decide_eq_false (hsecond place' hplace' place hplace) ⟨hle, hother⟩
    intro place' hplace' place'' hplace''
    exact (hall place' hplace').trans (hall place'' hplace'').symm
  · have hself : ∀ place : Place P, Query.visits true place place = false := fun place =>
      decide_eq_false fun h => h.2 rfl
    rintro (rfl | hone)
    · exact ⟨fun _ h => absurd h List.not_mem_nil, fun _ _ _ h => absurd h List.not_mem_nil⟩
    · refine ⟨fun place hplace place' hplace' => ?_, fun place hplace place' hplace' => ?_⟩
      · have hmem : place' ∈ places' := (List.mem_append.mp hplace').elim (fun h => hsub h) id
        cases hone place (hsub hplace) place' hmem
        exact hself place
      · cases hone place hplace place' (hsub hplace')
        exact hself place

/-- When there is nothing for `f` in the pools held. -/
theorem burden_eq_nil_iff (hsub : held ⊆ new) (c : QueryCall) :
    c.burden entityPools heap names held new = [] ↔
      match c with
      | .pMap => held = []
      | .cMap => ∀ ptr ∈ held, heap.shape ptr = []
      | .map => heap.places held = []
      | .selfCross => heap.places held = [] ∨
        ∀ place ∈ heap.places new, ∀ place' ∈ heap.places new, place = place'
      | .cross componentName componentNames => heap.places held = [] ∨
        heap.places (Query.taken (componentName :: componentNames) entityPools) = [] := by
  cases c with
  | pMap => exact List.map_eq_nil_iff
  | cMap =>
    simp only [burden, applied, List.map_eq_nil_iff, List.flatMap_eq_nil_iff, Heap.chunksOf,
      List.range_eq_nil, List.length_eq_zero_iff]
  | map => exact List.map_eq_nil_iff
  | selfCross =>
    have hplaces : heap.places held ⊆ heap.places new := fun place hplace => by
      obtain ⟨hptr, hcPos⟩ := Heap.mem_places.mp hplace
      exact Heap.mem_places.mpr ⟨hsub hptr, hcPos⟩
    rw [burden, List.map_eq_nil_iff, List.append_eq_nil_iff, Heap.places_append]
    exact pairCalls_eq_nil_of_selfCross hplaces
  | cross componentName componentNames =>
    rw [burden, applied, List.map_eq_nil_iff]
    · exact pairCalls_eq_nil_of_cross
    · exact fun h => by cases h

end QueryCall

omit [DecidableEq P] in
theorem Query.Holds.heldPools (h : query.Holds (name :: names) ptrs) :
    query.heldPools = ptrs := by
  rw [Query.heldPools, h.arrays, List.filterMap_map]
  have hpools : ((fun componentPools : List (Option (IComponentPool P)) =>
      componentPools.head?.join.map (·.entityPool)) ∘ fun ptr =>
        (Query.poolsOf (name :: names) ptr).map some) = some := rfl
  rw [hpools, List.filterMap_some]

namespace Moment

variable {m : Moment P} {c : QueryCall}

/-- A query of the manager: the pools it holds are among those it would be given anew. -/
structure Uses (m : Moment P) (names : List String) (held : List P) : Prop where
  holds : m.query.Holds names held
  known : held ⊆ Query.taken names m.entityPools

theorem Uses.burden_eq_nil_iff (h : m.Uses (name :: names) held) (c : QueryCall) :
    c.burden m.entityPools m.heap (name :: names) held
      (Query.taken (name :: names) m.entityPools) = [] ↔ m.Unburdened c := by
  rw [QueryCall.burden_eq_nil_iff h.known]
  cases c with
  | pMap => rw [Unburdened, h.holds.heldPools]
  | cMap => rw [Unburdened, h.holds.heldPools]
  | map => rw [Unburdened, h.holds.heldPools]
  | selfCross => rw [Unburdened, h.holds.heldPools, h.holds.componentNames]
  | cross componentName componentNames => rw [Unburdened, h.holds.heldPools]

/-- A call is as on a new query exactly if the pools held have nothing for it. -/
theorem Uses.asFresh_iff (h : m.Uses (name :: names) held) (hsome : (m.work c).isSome) :
    m.AsFresh c ↔ m.Unburdened c := by
  have hinit := h.holds.initializeQuery m.entityPools
  have hnew := Query.holds_initializeQuery (name :: names) m.entityPools
  rw [← h.holds.componentNames] at hnew
  have hnew' : (initializeQuery m.entityPools (Query.new m.query.componentNames)).Holds
      (name :: names) (Query.taken (name :: names) m.entityPools) := by
    rw [h.holds.componentNames] at hnew ⊢
    exact hnew
  obtain ⟨work, hwork⟩ := Option.isSome_iff_exists.mp hsome
  obtain ⟨fresh, hfresh⟩ := Option.isSome_iff_exists.mp
    (QueryCall.isSome_apply_of_subset hnew' hinit (List.subset_append_right _ _) hsome)
  have hworkPerm := (QueryCall.apply_perm hinit hwork).trans
    (c.applied_append held (Query.taken (name :: names) m.entityPools))
  have hfreshPerm := QueryCall.apply_perm hnew' hfresh
  rw [← h.burden_eq_nil_iff]
  constructor
  · rintro ⟨work', fresh', hwork', hfresh', hruns⟩
    cases hwork.symm.trans hwork'
    cases hfresh.symm.trans hfresh'
    have hsame := hruns true _ _ (runs_flatten true work) (runs_flatten true fresh)
    have hlength := (hworkPerm.symm.trans (hsame.trans hfreshPerm)).length_eq
    rw [List.length_append] at hlength
    exact List.length_eq_zero_iff.mp (by omega)
  · intro hnil
    rw [hnil, List.nil_append] at hworkPerm
    refine ⟨work, fresh, hwork, hfresh, fun isParallel trace trace' hrun hrun' => ?_⟩
    exact hrun.perm.trans (hworkPerm.trans (hfreshPerm.symm.trans hrun'.perm.symm))

omit [DecidableEq P] in
/-- Once it is initialized it is still a query of the manager. -/
theorem Uses.initialize (h : m.Uses (name :: names) held) :
    { m with query := initializeQuery m.entityPools m.query }.Uses (name :: names)
      (held ++ Query.taken (name :: names) m.entityPools) :=
  ⟨h.holds.initializeQuery m.entityPools, List.append_subset.mpr ⟨h.known, List.Subset.refl _⟩⟩

end Moment

/-! ## Every run -/

omit [DecidableEq P] in
theorem Query.taken_subset {offered offered' : List (IArchetypePool P)} (h : offered ⊆ offered') :
    Query.taken names offered ⊆ Query.taken names offered' := by
  intro ptr hptr
  obtain ⟨pool, hpool, rfl⟩ := List.mem_map.mp hptr
  obtain ⟨hmem, hmatches⟩ := List.mem_filter.mp hpool
  exact List.mem_map.mpr ⟨pool, List.mem_filter.mpr ⟨h hmem, hmatches⟩, rfl⟩

/-- The query is one of its manager. -/
def QueryUse.InUse (s : QueryUse P) : Prop :=
  ∃ name names held, s.toMoment.Uses (name :: names) held

variable {s t : QueryUse P}

theorem inUse_of_init (h : (reuse P).init s) : s.InUse := by
  obtain ⟨-, name, names, offered, hsub, hquery⟩ := h
  refine ⟨name, names, _, ?_, Query.taken_subset hsub⟩
  rw [hquery]
  exact Query.holds_initializeQuery (name :: names) offered

theorem inUse_of_step {a : UseLabel P} (h : s.InUse) (hstep : (reuse P).step s a = some t) :
    t.InUse := by
  obtain ⟨name, names, held, huses⟩ := h
  cases a with
  | registerEntityPool entityPool =>
    cases hstep
    exact ⟨name, names, held, huses.holds, List.Subset.trans huses.known
      (Query.taken_subset (List.subset_append_left _ _))⟩
  | addChunk pool chunkSize =>
    cases hstep
    exact ⟨name, names, held, huses.holds, huses.known⟩
  | deleteEverything pool =>
    cases hstep
    exact ⟨name, names, held, huses.holds, huses.known⟩
  | call c =>
    simp only [reuse] at hstep
    split at hstep
    · cases hstep
      exact ⟨name, names, _, huses.initialize⟩
    · cases hstep

theorem inUse_of_reach (h : (reuse P).Reach s) : s.InUse :=
  h.invariant (fun _ => inUse_of_init) fun _ _ _ => inUse_of_step

/-- A call that is made is as on a new query exactly if nothing burdens it. -/
theorem asFresh_of_call {c : QueryCall} (h : s.InUse)
    (hstep : (reuse P).step s (.call c) = some t) : s.AsFresh c ↔ s.Unburdened c := by
  obtain ⟨name, names, held, huses⟩ := h
  simp only [reuse] at hstep
  split at hstep
  next hsome => exact huses.asFresh_iff hsome
  · cases hstep

/-- The calls made while nothing burdened them. -/
theorem asFresh_of_step {a : UseLabel P} (huse : s.InUse) (hcond : UnburdenedStep s a)
    (hstep : (reuse P).step s a = some t) (h : ∀ made ∈ s.calls, made.1.AsFresh made.2) :
    ∀ made ∈ t.calls, made.1.AsFresh made.2 := by
  cases a with
  | registerEntityPool entityPool =>
    cases hstep
    exact h
  | addChunk pool chunkSize =>
    cases hstep
    exact h
  | deleteEverything pool =>
    cases hstep
    exact h
  | call c =>
    have hfresh := (asFresh_of_call huse hstep).mpr hcond
    simp only [reuse] at hstep
    split at hstep
    · cases hstep
      intro made hmade
      rcases List.mem_append.mp hmade with hmade | hmade
      · exact h made hmade
      · cases List.mem_singleton.mp hmade
        exact hfresh
    · cases hstep

/-- **A query can be used again** as long as the pools it holds from earlier calls have nothing for
`f`: in every such run each call was as on a new query, and in every run a call is so only then. -/
theorem reuse_asFresh :
    (∀ s : QueryUse P, (reuse P).ReachUnder UnburdenedStep s →
      ∀ made ∈ s.calls, made.1.AsFresh made.2) ∧
    ∀ s : QueryUse P, (reuse P).Reach s → ∀ c t, (reuse P).step s (.call c) = some t →
      (s.AsFresh c ↔ s.Unburdened c) := by
  refine ⟨fun s h => ?_, fun s h c t hstep => asFresh_of_call (inUse_of_reach h) hstep⟩
  refine Machine.ReachUnder.induction (J := QueryUse.InUse)
    (I := fun s => ∀ made ∈ s.calls, made.1.AsFresh made.2) (fun _ => inUse_of_reach) ?_ ?_ h
  · intro s hinit made hmade
    rw [hinit.1] at hmade
    cases hmade
  · intro s a t huse _ hcalls hcond hstep
    exact asFresh_of_step huse hcond hstep hcalls

/-- Two calls, with no chunk left between them. -/
theorem reuse_asFresh_emptied :
    ∃ s : QueryUse Nat, (∀ made ∈ s.calls, made.1.AsFresh made.2) ∧ s.calls.length = 2 := by
  let pool : IArchetypePool Nat := ⟨0, ["A"], by decide⟩
  let start : QueryUse Nat := ⟨⟨[], .new fun _ => 0, Query.new ["A"]⟩, []⟩
  obtain ⟨s, hreach, hlength⟩ := Machine.reachUnder_of_exec (M := reuse Nat) (G := UnburdenedStep)
    (s := start) (p := fun s => s.calls.length = 2)
    (l := [.registerEntityPool pool, .addChunk 0 2, .call .map, .deleteEverything 0,
      .call .selfCross])
    ⟨rfl, "A", [], [], List.nil_subset _, rfl⟩ (by decide +kernel)
  exact ⟨s, reuse_asFresh.1 s hreach, of_decide_eq_true hlength⟩

/-- The second `map` of a pool with one slot calls `f` twice. -/
theorem reuse_twice :
    ∃ s : QueryUse Nat, (reuse Nat).Reach s ∧ ∃ made ∈ s.calls, ¬ made.1.AsFresh made.2 := by
  let pool : IArchetypePool Nat := ⟨0, ["A"], by decide⟩
  let start : QueryUse Nat := ⟨⟨[pool], (Heap.new fun _ => 0).addChunk 0 1, Query.new ["A"]⟩, []⟩
  obtain ⟨s, hreach, htwice⟩ := Machine.reachUnder_of_exec (M := reuse Nat) (G := Machine.Any)
    (s := start) (p := fun s => s.calls.any fun made =>
      (made.1.work made.2).map (·.flatten.length) = some 2 ∧
        (made.1.fresh made.2).map (·.flatten.length) = some 1)
    (l := [.call .map, .call .map]) ⟨rfl, "A", [], [], List.nil_subset _, rfl⟩ (by decide +kernel)
  obtain ⟨made, hmade, hlengths⟩ := List.any_eq_true.mp htwice
  obtain ⟨htwo, hone⟩ := of_decide_eq_true hlengths
  refine ⟨s, hreach, made, hmade, ?_⟩
  rintro ⟨work, fresh, hwork, hfresh, hruns⟩
  have hsame := (hruns true _ _ (runs_flatten true work) (runs_flatten true fresh)).length_eq
  rw [hwork, Option.map_some, Option.some.injEq] at htwo
  rw [hfresh, Option.map_some, Option.some.injEq] at hone
  rw [htwo, hone] at hsame
  cases hsame

end Calls

end ProjectE.Ecs
