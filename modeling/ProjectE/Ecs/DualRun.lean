import ProjectE.Ecs.SelfCross

/-!
# A system of two queries

`ADualSystem::run` hands its `_isParallel` to `cross`, in the place of `selfCross`: a system that is
made parallel runs in no threads, and goes over the lower triangle of each two chunks as a self
cross does, although its two queries may be different and their chunks of different sizes.

So it is given every pair of slots if it is not parallel. If it is, then only where each two chunks
have one slot each and are not the same vectors (`dual_run_covers_iff`): otherwise pairs are left
out, or the loop runs past the end of the second vectors.
-/

namespace ProjectE.Ecs

open Verif

variable {P : Type} [DecidableEq P]

/-- `ADualSystem::run()`: what `_innerOperate` is called with. The third argument of `cross` is
`selfCross`; `isParallel` is left at its default. -/
def ISystem.runDual (heap : Heap P) (isParallel : Bool) :
    ISystem P → Option (List (Elems P × Elems P))
  | .mono _ => none
  | .dual query1 query2 => (query1.cross heap query2 isParallel).map List.flatten

/-- A system that pools were offered to. -/
def ISystem.offered (system : ISystem P) (pools : List (IArchetypePool P)) : ISystem P :=
  pools.foldl (fun system pool => (system.tryAddEntityPool pool).2) system

omit [DecidableEq P] in
theorem ISystem.offered_dual (query1 query2 : Query P) (pools : List (IArchetypePool P)) :
    (ISystem.dual query1 query2).offered pools =
      .dual (initializeQuery pools query1) (initializeQuery pools query2) := by
  rw [ISystem.offered, ISystem.foldl_tryAddEntityPool, Query.initializeQuery_eq,
    Query.initializeQuery_eq]
  rfl

namespace Query

variable {heap : Heap P} {name name' : String} {names names' : List String} {ptrs ptrs' : List P}
  {query query' : Query P} {chunk chunk' : P × Nat}

omit [DecidableEq P] in
/-- The first vectors of two chunks are the same. -/
theorem sameVecs_iff : ((⟨⟨chunk.1, name⟩, 0, chunk.2⟩ : VectorAddr P) =
    ⟨⟨chunk'.1, name'⟩, 0, chunk'.2⟩) ↔ chunk = chunk' ∧ name = name' := by
  simp only [VectorAddr.mk.injEq, IComponentPool.mk.injEq, true_and, Prod.ext_iff]
  tauto

/-- The chunks between which a self cross leaves no pair out. -/
def LeavesNoneOut (heap : Heap P) (name name' : String) (chunk chunk' : P × Nat) : Prop :=
  heap.chunkSize chunk = 0 ∨ heap.chunkSize chunk = 1 ∧ heap.chunkSize chunk' = 1 ∧
    ¬ (chunk = chunk' ∧ name = name')

/-- For these the two loops are one. -/
theorem selfCrossOperate_of_leavesNoneOut (h : LeavesNoneOut heap name name' chunk chunk') :
    selfCrossOperate (heap.vectorsAt (name :: names) chunk)
        (heap.vectorsAt (name' :: names') chunk') =
      crossOperate (heap.vectorsAt (name :: names) chunk)
        (heap.vectorsAt (name' :: names') chunk') := by
  rw [selfCrossOperate, crossOperate, Heap.firstVector_vectorsAt, Heap.firstVector_vectorsAt]
  simp only [Option.bind_eq_bind, Option.bind_some, sameVecs_iff]
  refine forEach_congr fun i hi => ?_
  have hi := List.mem_range.mp hi
  rcases h with hempty | ⟨hone, hone', hne⟩
  · rw [hempty] at hi
    exact absurd hi (Nat.not_lt_zero i)
  · rw [hone, Nat.lt_one_iff] at hi
    subst hi
    rw [hone']
    exact forEach_congr fun j _ => if_neg fun h => hne h.1

/-- A self cross that stays in bounds is with chunks that are not smaller, and hands over pairs of
the lower triangle. -/
theorem of_selfCrossOperate {calls : List (Elems P × Elems P)}
    (h : selfCrossOperate (heap.vectorsAt (name :: names) chunk)
      (heap.vectorsAt (name' :: names') chunk') = some calls) :
    heap.chunkSize chunk ≤ heap.chunkSize chunk' ∧ ∀ call ∈ calls,
      ∃ place ∈ heap.placesOf chunk, ∃ place' ∈ heap.placesOf chunk',
        place'.cPos.2 ≤ place.cPos.2 ∧ ¬ (place = place' ∧ name = name') ∧
        call = (heap.refsAt (name :: names) place, heap.refsAt (name' :: names') place') := by
  have hturns {i : Nat} (hi : i < heap.chunkSize chunk) {j : Nat} (hj : j ≤ i)
      (hnot : ¬ ((chunk = chunk' ∧ name = name') ∧ i = j)) {turn : List (Elems P × Elems P)}
      (hturn : (do
        let refTuple1 ← getReferencesAtIndex i (heap.vectorsAt (name :: names) chunk)
        let refTuple2 ← getReferencesAtIndex j (heap.vectorsAt (name' :: names') chunk')
        return [(refTuple1, refTuple2)]) = some turn) :
      j < heap.chunkSize chunk' ∧ turn = [(heap.refsAt (name :: names) ⟨chunk.1, (chunk.2, i)⟩,
        heap.refsAt (name' :: names') ⟨chunk'.1, (chunk'.2, j)⟩)] := by
    obtain ⟨refTuple1, hfirst, hturn⟩ := Option.bind_eq_some_iff.mp hturn
    obtain ⟨refTuple2, hsecond, hturn⟩ := Option.bind_eq_some_iff.mp hturn
    have hlt := Heap.lt_of_getReferencesAtIndex (Option.isSome_of_eq_some hsecond)
    rw [Heap.getReferencesAtIndex_eq hi] at hfirst
    rw [Heap.getReferencesAtIndex_eq hlt] at hsecond
    cases hfirst
    cases hsecond
    cases hturn
    exact ⟨hlt, rfl⟩
  rw [selfCrossOperate, Heap.firstVector_vectorsAt, Heap.firstVector_vectorsAt] at h
  simp only [Option.bind_eq_bind, Option.bind_some, sameVecs_iff] at h
  constructor
  · by_contra hle
    have hlt := Nat.lt_of_not_le hle
    -- the turn that would read past the end
    have hsome := isSome_forEach_iff.mp (Option.isSome_of_eq_some h) _ (List.mem_range.mpr hlt)
    have hturn := isSome_forEach_iff.mp hsome _ (List.mem_range.mpr (Nat.lt_succ_self _))
    have hother : ¬ ((chunk = chunk' ∧ name = name') ∧
        heap.chunkSize chunk' = heap.chunkSize chunk') := by
      rintro ⟨⟨rfl, -⟩, -⟩
      exact Nat.lt_irrefl _ hlt
    rw [if_neg hother] at hturn
    obtain ⟨turn, hturn⟩ := Option.isSome_iff_exists.mp hturn
    exact Nat.lt_irrefl _ (hturns hlt le_rfl hother hturn).1
  · intro call hcall
    obtain ⟨i, hi, row, hrow, hcall⟩ := exists_of_forEach h hcall
    obtain ⟨j, hj, turn, hturn, hcall⟩ := exists_of_forEach hrow hcall
    have hi := List.mem_range.mp hi
    have hj := Nat.lt_succ_iff.mp (List.mem_range.mp hj)
    split at hturn
    next =>
      cases hturn
      cases hcall
    next hnot =>
      obtain ⟨hlt, rfl⟩ := hturns hi hj hnot hturn
      refine ⟨⟨chunk.1, (chunk.2, i)⟩, Heap.mem_placesOf.mpr ⟨rfl, rfl, hi⟩,
        ⟨chunk'.1, (chunk'.2, j)⟩, Heap.mem_placesOf.mpr ⟨rfl, rfl, hlt⟩, hj, ?_,
        List.mem_singleton.mp hcall⟩
      rintro ⟨heq, hname⟩
      obtain ⟨hptr, hcPos⟩ := Place.mk.inj heq
      obtain ⟨hrow, hindex⟩ := Prod.mk.inj hcPos
      exact hnot ⟨⟨Prod.ext hptr hrow, hname⟩, hindex⟩

/-- What `cross` does with a pool and a pool. -/
theorem cross_of_holds (h : query.Holds (name :: names) ptrs)
    (h' : query'.Holds (name' :: names') ptrs') (selfCross : Bool) :
    query.cross heap query' selfCross = ptrs.mapM fun ptr => forEach ptrs' fun ptr' =>
      forEach (heap.chunksOf ptr) fun chunk => forEach (heap.chunksOf ptr') fun chunk' =>
        if selfCross then
          selfCrossOperate (heap.vectorsAt (name :: names) chunk)
            (heap.vectorsAt (name' :: names') chunk')
        else
          crossOperate (heap.vectorsAt (name :: names) chunk)
            (heap.vectorsAt (name' :: names') chunk') := by
  rw [cross, h.arrays, h'.arrays, List.mapM_map]
  refine Grid.mapM_congr fun ptr _ => ?_
  rw [Function.comp_apply, forEach_map]
  refine forEach_congr fun ptr' _ => ?_
  rw [Function.comp_apply, crossPools_forEach]

/-- Where no pair is left out, a self cross is a cross. -/
theorem cross_of_leavesNoneOut (h : query.Holds (name :: names) ptrs)
    (h' : query'.Holds (name' :: names') ptrs')
    (hchunks : ∀ chunk ∈ ptrs.flatMap heap.chunksOf, ∀ chunk' ∈ ptrs'.flatMap heap.chunksOf,
      LeavesNoneOut heap name name' chunk chunk') :
    query.cross heap query' true = query.cross heap query' false := by
  rw [cross_of_holds h h', cross_of_holds h h']
  refine Grid.mapM_congr fun ptr hptr => forEach_congr fun ptr' hptr' => ?_
  refine forEach_congr fun chunk hchunk => forEach_congr fun chunk' hchunk' => ?_
  exact selfCrossOperate_of_leavesNoneOut (hchunks chunk (List.mem_flatMap.mpr ⟨ptr, hptr, hchunk⟩)
    chunk' (List.mem_flatMap.mpr ⟨ptr', hptr', hchunk'⟩))

/-- A self cross of two queries that stays in bounds. -/
theorem of_cross (h : query.Holds (name :: names) ptrs)
    (h' : query'.Holds (name' :: names') ptrs') {work : List (List (Elems P × Elems P))}
    (hwork : query.cross heap query' true = some work) :
    (∀ chunk ∈ ptrs.flatMap heap.chunksOf, ∀ chunk' ∈ ptrs'.flatMap heap.chunksOf,
      heap.chunkSize chunk ≤ heap.chunkSize chunk') ∧
    ∀ call ∈ work.flatten, ∃ place place', place'.cPos.2 ≤ place.cPos.2 ∧
      ¬ (place = place' ∧ name = name') ∧
      call = (heap.refsAt (name :: names) place, heap.refsAt (name' :: names') place') := by
  rw [cross_of_holds h h'] at hwork
  have hloop : forEach ptrs (fun ptr => forEach ptrs' fun ptr' =>
      forEach (heap.chunksOf ptr) fun chunk => forEach (heap.chunksOf ptr') fun chunk' =>
        selfCrossOperate (heap.vectorsAt (name :: names) chunk)
          (heap.vectorsAt (name' :: names') chunk')) = some work.flatten := by
    rw [forEach]
    exact Option.map_eq_some_iff.mpr ⟨work, hwork, rfl⟩
  constructor
  · intro chunk hchunk chunk' hchunk'
    obtain ⟨ptr, hptr, hchunk⟩ := List.mem_flatMap.mp hchunk
    obtain ⟨ptr', hptr', hchunk'⟩ := List.mem_flatMap.mp hchunk'
    have hpool := isSome_forEach_iff.mp (Option.isSome_of_eq_some hloop) ptr hptr
    have hpools := isSome_forEach_iff.mp hpool ptr' hptr'
    have hturn := isSome_forEach_iff.mp (isSome_forEach_iff.mp hpools chunk hchunk) chunk' hchunk'
    obtain ⟨calls, hcalls⟩ := Option.isSome_iff_exists.mp hturn
    exact (of_selfCrossOperate hcalls).1
  · intro call hcall
    obtain ⟨ptr, -, calls, hcalls, hcall⟩ := exists_of_forEach hloop hcall
    obtain ⟨ptr', -, calls, hcalls, hcall⟩ := exists_of_forEach hcalls hcall
    obtain ⟨chunk, -, calls, hcalls, hcall⟩ := exists_of_forEach hcalls hcall
    obtain ⟨chunk', -, calls, hcalls, hcall⟩ := exists_of_forEach hcalls hcall
    obtain ⟨place, -, place', -, hrest⟩ := (of_selfCrossOperate hcalls).2 call hcall
    exact ⟨place, place', hrest⟩

/-- A self cross that covers all pairs has left none out. -/
theorem leavesNoneOut_of_covers (h : query.Holds (name :: names) ptrs)
    (h' : query'.Holds (name' :: names') ptrs') {work : List (List (Elems P × Elems P))}
    (hwork : query.cross heap query' true = some work)
    (hcovers : CrossCovers heap (name :: names) (name' :: names') ptrs ptrs' work.flatten)
    (hchunk : chunk ∈ ptrs.flatMap heap.chunksOf)
    (hchunk' : chunk' ∈ ptrs'.flatMap heap.chunksOf) :
    LeavesNoneOut heap name name' chunk chunk' := by
  obtain ⟨hsizes, hcalls⟩ := of_cross h h' hwork
  have hle := hsizes chunk hchunk chunk' hchunk'
  have hpair {i j : Nat} (hi : i < heap.chunkSize chunk) (hj : j < heap.chunkSize chunk') :
      j ≤ i ∧ ¬ ((chunk = chunk' ∧ i = j) ∧ name = name') := by
    have hplace : (⟨chunk.1, (chunk.2, i)⟩ : Place P) ∈ heap.places ptrs :=
      List.mem_flatMap.mpr ⟨chunk, hchunk, Heap.mem_placesOf.mpr ⟨rfl, rfl, hi⟩⟩
    have hplace' : (⟨chunk'.1, (chunk'.2, j)⟩ : Place P) ∈ heap.places ptrs' :=
      List.mem_flatMap.mpr ⟨chunk', hchunk', Heap.mem_placesOf.mpr ⟨rfl, rfl, hj⟩⟩
    have hcall := hcovers.calls.mem_iff.mpr
      (List.mem_map_of_mem (List.pair_mem_product.mpr ⟨hplace, hplace'⟩))
    obtain ⟨place, place', hindex, hne, heq⟩ := hcalls _ hcall
    obtain ⟨hfirst, hsecond⟩ := Prod.mk.inj heq
    cases heap.refsAt_injective name names hfirst
    cases heap.refsAt_injective name' names' hsecond
    refine ⟨hindex, fun ⟨⟨hchunks, hindices⟩, hname⟩ => hne ⟨?_, hname⟩⟩
    rw [hchunks, hindices]
  by_cases hempty : heap.chunkSize chunk = 0
  · exact .inl hempty
  · have hpos := Nat.pos_of_ne_zero hempty
    have hone' : heap.chunkSize chunk' = 1 := by
      have hlast := (hpair hpos (Nat.sub_one_lt_of_le (Nat.lt_of_lt_of_le hpos hle) le_rfl)).1
      omega
    refine .inr ⟨by omega, hone', fun ⟨hchunks, hname⟩ => ?_⟩
    exact (hpair hpos (Nat.lt_of_lt_of_le hpos hle)).2 ⟨⟨hchunks, rfl⟩, hname⟩

/-- **A system of two queries covers all pairs** of slots, each once, exactly if it is not parallel
or each two chunks are such that a self cross leaves nothing out. The pools offered to it are
pairwise different, and both of its queries have a component. -/
theorem dual_run_covers_iff (heap : Heap P) (isParallel : Bool) (name name' : String)
    (names names' : List String) (pools : List (IArchetypePool P))
    (hdistinct : (pools.map (·.ptr)).Nodup) :
    (∃ trace, ((ISystem.dual (Query.new (name :: names)) (Query.new (name' :: names'))).offered
        pools).runDual heap isParallel = some trace ∧
      CrossCovers heap (name :: names) (name' :: names') (taken (name :: names) pools)
        (taken (name' :: names') pools) trace) ↔
    (isParallel = true → ∀ chunk ∈ (taken (name :: names) pools).flatMap heap.chunksOf,
      ∀ chunk' ∈ (taken (name' :: names') pools).flatMap heap.chunksOf,
        LeavesNoneOut heap name name' chunk chunk') := by
  have hquery := holds_initializeQuery (name :: names) pools
  have hquery' := holds_initializeQuery (name' :: names') pools
  have htaken (names : List String) : (taken names pools).Nodup :=
    hdistinct.sublist (List.filter_sublist.map _)
  have hcross : ∃ trace, ((initializeQuery pools (Query.new (name :: names))).cross heap
      (initializeQuery pools (Query.new (name' :: names'))) false).map List.flatten = some trace ∧
      CrossCovers heap (name :: names) (name' :: names') (taken (name :: names) pools)
        (taken (name' :: names') pools) trace := by
    rw [cross_eq_of_not_self hquery hquery']
    exact ⟨_, rfl, crossCovers (htaken _) (htaken _) (runs_flatten false _)⟩
  rw [ISystem.offered_dual, ISystem.runDual]
  cases isParallel with
  | false => exact iff_of_true hcross fun hparallel => absurd hparallel Bool.false_ne_true
  | true =>
    constructor
    · rintro ⟨trace, hrun, hcovers⟩ - chunk hchunk chunk' hchunk'
      obtain ⟨work, hwork, rfl⟩ := Option.map_eq_some_iff.mp hrun
      exact leavesNoneOut_of_covers hquery hquery' hwork hcovers hchunk hchunk'
    · intro hchunks
      rw [cross_of_leavesNoneOut hquery hquery' (hchunks rfl)]
      exact hcross

/-- A pool with two slots: a parallel system is not given the pair of the first and the second. -/
theorem dual_run_covers_iff_two :
    let heap : Heap Nat := (Heap.new fun _ => 0).addChunk 0 2
    let system := (ISystem.dual (Query.new ["A"]) (Query.new ["B"])).offered
      [⟨0, ["A", "B"], by decide⟩]
    (∃ trace, system.runDual heap false = some trace ∧
      CrossCovers heap ["A"] ["B"] [0] [0] trace) ∧
    ¬ ∃ trace, system.runDual heap true = some trace ∧
      CrossCovers heap ["A"] ["B"] [0] [0] trace := by
  intro heap system
  let pools : List (IArchetypePool Nat) := [⟨0, ["A", "B"], by decide⟩]
  have htaken : taken ["A"] pools = [0] := by decide +kernel
  have htaken' : taken ["B"] pools = [0] := by decide +kernel
  have hiff (isParallel : Bool) :=
    dual_run_covers_iff heap isParallel "A" "B" [] [] pools (by decide)
  rw [htaken, htaken'] at hiff
  refine ⟨(hiff false).mpr fun h => absurd h Bool.false_ne_true, fun hcovers => ?_⟩
  have hchunk : (0, 0) ∈ [0].flatMap heap.chunksOf := by decide
  rcases (hiff true).mp hcovers rfl (0, 0) hchunk (0, 0) hchunk with hzero | ⟨hone, -⟩
  · exact absurd hzero (by decide)
  · exact absurd hone (by decide)

end Query

end ProjectE.Ecs
