import ProjectE.Ecs.Coverage

/-!
# A query crossed with itself

`_selfCrossOperate` goes over the lower triangle of a chunk against a chunk, and over each two
chunks in both orders. Within one chunk this is every pair once. For two chunks it is every pair
whose indices differ once and the pairs at the same index twice, so that a pair is seen once in
every case only as long as there are no two chunks (`selfCross_once_iff`).

The bound of the inner loop is the index of the outer one: "the size of the vectors is the same"
says the code, and where it is not the loop runs past the end (`inBounds_iff`).
-/

namespace ProjectE.Ecs

open Verif

variable {P : Type} [DecidableEq P]

/-- `f` is called once for each two different slots, in one order or the other, never for a slot
with itself, and for nothing else. -/
structure EachPairOnce (heap : Heap P) (names : List String) (ptrs : List P)
    (trace : List (Elems P × Elems P)) : Prop where
  pairs : ∀ place ∈ heap.places ptrs, ∀ place' ∈ heap.places ptrs, place ≠ place' →
    trace.count (heap.refsAt names place, heap.refsAt names place') +
      trace.count (heap.refsAt names place', heap.refsAt names place) = 1
  noSelf : ∀ place ∈ heap.places ptrs,
    (heap.refsAt names place, heap.refsAt names place) ∉ trace
  only : ∀ call ∈ trace, ∃ place ∈ heap.places ptrs, ∃ place' ∈ heap.places ptrs,
    call = (heap.refsAt names place, heap.refsAt names place')

namespace Query

variable {heap : Heap P} {query : Query P} {name : String} {names : List String} {ptrs : List P}
  {place place' : Place P}

/-! ## How often a pair is seen -/

theorem mem_pairCalls {selfCross : Bool} {places places' : List (Place P)}
    {call : Elems P × Elems P} : call ∈ pairCalls heap names names selfCross places places' ↔
      ∃ place ∈ places, ∃ place' ∈ places', visits selfCross place place' = true ∧
        call = (heap.refsAt names place, heap.refsAt names place') := by
  rw [pairCalls_eq, List.mem_map]
  constructor
  · rintro ⟨pair, hpair, rfl⟩
    obtain ⟨hmem, hvisits⟩ := List.mem_filter.mp hpair
    obtain ⟨hplace, hplace'⟩ := List.pair_mem_product.mp hmem
    exact ⟨pair.1, hplace, pair.2, hplace', hvisits, rfl⟩
  · rintro ⟨place, hplace, place', hplace', hvisits, rfl⟩
    exact ⟨(place, place'), List.mem_filter.mpr
      ⟨List.pair_mem_product.mpr ⟨hplace, hplace'⟩, hvisits⟩, rfl⟩

theorem nodup_pairCalls (selfCross : Bool) {places places' : List (Place P)}
    (h : places.Nodup) (h' : places'.Nodup) :
    (pairCalls heap (name :: names) (name :: names) selfCross places places').Nodup := by
  rw [pairCalls_eq]
  refine ((h.product h').filter _).map ?_
  exact (heap.refsAt_injective name names).prodMap (heap.refsAt_injective name names)

/-- A pair is called for if its second slot has no higher index. -/
theorem count_pairCalls (hdistinct : ptrs.Nodup) (hplace : place ∈ heap.places ptrs)
    (hplace' : place' ∈ heap.places ptrs) :
    (pairCalls heap (name :: names) (name :: names) true (heap.places ptrs)
      (heap.places ptrs)).count (heap.refsAt (name :: names) place,
        heap.refsAt (name :: names) place') =
      if place'.cPos.2 ≤ place.cPos.2 ∧ place ≠ place' then 1 else 0 := by
  have hnodup : (heap.places ptrs).Nodup := Heap.nodup_places hdistinct
  have hmem : (heap.refsAt (name :: names) place, heap.refsAt (name :: names) place') ∈
      pairCalls heap (name :: names) (name :: names) true (heap.places ptrs)
        (heap.places ptrs) ↔ place'.cPos.2 ≤ place.cPos.2 ∧ place ≠ place' := by
    rw [mem_pairCalls]
    constructor
    · rintro ⟨p, -, p', -, hvisits, heq⟩
      obtain ⟨hfirst, hsecond⟩ := Prod.mk.inj heq
      cases heap.refsAt_injective name names hfirst
      cases heap.refsAt_injective name names hsecond
      exact of_decide_eq_true hvisits
    · intro hvisits
      exact ⟨place, hplace, place', hplace', decide_eq_true hvisits, rfl⟩
  split
  next h => exact List.count_eq_one_of_mem (nodup_pairCalls true hnodup hnodup) (hmem.mpr h)
  next h => exact List.count_eq_zero_of_not_mem fun hcall => h (hmem.mp hcall)

/-- Two slots are called for once, in one order, or in both if they have the same index. -/
theorem count_pair (hdistinct : ptrs.Nodup) {trace : List (Elems P × Elems P)}
    (htrace : trace.Perm (pairCalls heap (name :: names) (name :: names) true (heap.places ptrs)
      (heap.places ptrs))) (hplace : place ∈ heap.places ptrs)
    (hplace' : place' ∈ heap.places ptrs) (hne : place ≠ place') :
    trace.count (heap.refsAt (name :: names) place, heap.refsAt (name :: names) place') +
      trace.count (heap.refsAt (name :: names) place', heap.refsAt (name :: names) place) =
        if place.cPos.2 = place'.cPos.2 then 2 else 1 := by
  rw [htrace.count_eq, htrace.count_eq, count_pairCalls hdistinct hplace hplace',
    count_pairCalls hdistinct hplace' hplace]
  rcases Nat.lt_trichotomy place.cPos.2 place'.cPos.2 with hlt | heq | hgt
  · rw [if_neg fun hle => Nat.not_le_of_lt hlt hle.1, if_pos ⟨Nat.le_of_lt hlt, hne.symm⟩,
      if_neg (Nat.ne_of_lt hlt)]
  · rw [if_pos ⟨Nat.le_of_eq heq.symm, hne⟩, if_pos ⟨Nat.le_of_eq heq, hne.symm⟩, if_pos heq]
  · rw [if_pos ⟨Nat.le_of_lt hgt, hne⟩, if_neg fun hle => Nat.not_le_of_lt hgt hle.1,
      if_neg (Nat.ne_of_gt hgt)]

/-- Every pair is called for once exactly if no two slots have the same index. -/
theorem eachPairOnce_iff (hdistinct : ptrs.Nodup) {trace : List (Elems P × Elems P)}
    (htrace : trace.Perm (pairCalls heap (name :: names) (name :: names) true (heap.places ptrs)
      (heap.places ptrs))) :
    EachPairOnce heap (name :: names) ptrs trace ↔
      ∀ place ∈ heap.places ptrs, ∀ place' ∈ heap.places ptrs, place ≠ place' →
        place.cPos.2 ≠ place'.cPos.2 := by
  constructor
  · intro h place hplace place' hplace' hne heq
    have hone := h.pairs place hplace place' hplace' hne
    rw [count_pair hdistinct htrace hplace hplace' hne, if_pos heq] at hone
    cases hone
  · intro h
    refine ⟨fun place hplace place' hplace' hne => ?_, fun place hplace => ?_, fun call hcall => ?_⟩
    · rw [count_pair hdistinct htrace hplace hplace' hne,
        if_neg (h place hplace place' hplace' hne)]
    · rw [← List.count_eq_zero, htrace.count_eq, count_pairCalls hdistinct hplace hplace,
        if_neg fun hself => hself.2 rfl]
    · obtain ⟨place, hplace, place', hplace', -, heq⟩ := mem_pairCalls.mp (htrace.mem_iff.mp hcall)
      exact ⟨place, hplace, place', hplace', heq⟩

omit [DecidableEq P] in
/-- Chunks of one size have slots of the same index, unless there are no two or no slots. -/
theorem indices_ne_iff {n : Nat} (hdistinct : ptrs.Nodup)
    (hsize : ∀ chunk ∈ ptrs.flatMap heap.chunksOf, heap.chunkSize chunk = n) :
    (∀ place ∈ heap.places ptrs, ∀ place' ∈ heap.places ptrs, place ≠ place' →
        place.cPos.2 ≠ place'.cPos.2) ↔
      n = 0 ∨ (ptrs.flatMap heap.chunksOf).length ≤ 1 := by
  constructor
  · intro h
    by_contra hboth
    obtain ⟨hpos, htwo⟩ := not_or.mp hboth
    -- the first slots of two chunks
    have hfirst : ∀ (i : Nat) (hi : i < (ptrs.flatMap heap.chunksOf).length),
        ⟨(ptrs.flatMap heap.chunksOf)[i].1, ((ptrs.flatMap heap.chunksOf)[i].2, 0)⟩ ∈
          heap.places ptrs := fun i hi => by
      refine List.mem_flatMap.mpr ⟨_, List.getElem_mem hi, Heap.mem_placesOf.mpr ⟨rfl, rfl, ?_⟩⟩
      rw [hsize _ (List.getElem_mem hi)]
      exact Nat.pos_of_ne_zero hpos
    have hne : (ptrs.flatMap heap.chunksOf)[0] ≠ (ptrs.flatMap heap.chunksOf)[1] := fun heq =>
      Nat.zero_ne_one ((Heap.nodup_chunks hdistinct).getElem_inj_iff.mp heq)
    refine h _ (hfirst 0 (by omega)) _ (hfirst 1 (by omega)) (fun heq => hne ?_) rfl
    obtain ⟨hptr, hcPos⟩ := Place.mk.inj heq
    exact Prod.ext hptr (Prod.mk.inj hcPos).1
  · intro h place hplace place' hplace' hne heq
    obtain ⟨chunk, hchunk, hmem⟩ := List.mem_flatMap.mp hplace
    obtain ⟨chunk', hchunk', hmem'⟩ := List.mem_flatMap.mp hplace'
    obtain ⟨hptr, hrow, hlt⟩ := Heap.mem_placesOf.mp hmem
    obtain ⟨hptr', hrow', -⟩ := Heap.mem_placesOf.mp hmem'
    rcases h with rfl | hone
    · rw [hsize chunk hchunk] at hlt
      exact Nat.not_lt_zero _ hlt
    · -- the two slots are in the one chunk there is
      have hsame : chunk = chunk' := by
        obtain ⟨i, hi, rfl⟩ := List.mem_iff_getElem.mp hchunk
        obtain ⟨j, hj, rfl⟩ := List.mem_iff_getElem.mp hchunk'
        congr 1
        omega
      subst hsame
      obtain ⟨ptr, cPos⟩ := place
      obtain ⟨ptr', cPos'⟩ := place'
      exact hne (congr (congrArg Place.mk (hptr.trans hptr'.symm))
        (Prod.ext (hrow.trans hrow'.symm) heq))

omit [DecidableEq P] in
/-- The chunks of the pools are as large as their layouts say. -/
theorem forall_chunkSize {p : Nat → Prop}
    (h : ∀ ptr ∈ ptrs, ∀ size ∈ heap.shape ptr, p size) :
    ∀ chunk ∈ ptrs.flatMap heap.chunksOf, p (heap.chunkSize chunk) := by
  intro chunk hchunk
  obtain ⟨ptr, hptr, hchunk⟩ := List.mem_flatMap.mp hchunk
  have hshape := Heap.getElem?_shape hchunk
  rw [(Heap.mem_chunksOf.mp hchunk).1] at hshape
  exact h ptr hptr _ (List.mem_of_getElem? hshape)

/-- The calls of `selfCross`, where it is in bounds. -/
theorem selfCross_eq (h : query.Holds (name :: names) ptrs)
    (hsizes : ∀ chunk ∈ ptrs.flatMap heap.chunksOf, ∀ chunk' ∈ ptrs.flatMap heap.chunksOf,
      heap.chunkSize chunk ≤ heap.chunkSize chunk') :
    query.selfCross heap = some (ptrs.map fun ptr => ptrs.flatMap
      (poolPairCalls heap (name :: names) (name :: names) true ptr)) :=
  cross_eq h h fun _ => ⟨rfl, hsizes⟩

/-- **`selfCross` calls `f` once for each pair** of different slots of pools whose chunks have one
size exactly if the pools have no two chunks, or no slots. -/
theorem selfCross_once_iff (heap : Heap P) (name : String) (names : List String)
    (offered : List (IArchetypePool P)) (n : Nat)
    (hdistinct : (taken (name :: names) offered).Nodup)
    (hsize : ∀ ptr ∈ taken (name :: names) offered, ∀ size ∈ heap.shape ptr, size = n) :
    ∃ work, (initializeQuery offered (Query.new (name :: names))).selfCross heap = some work ∧
      ∀ isParallel trace, Runs isParallel work trace →
        (EachPairOnce heap (name :: names) (taken (name :: names) offered) trace ↔
          n = 0 ∨ ((taken (name :: names) offered).flatMap heap.shape).length ≤ 1) := by
  have hchunks := forall_chunkSize hsize
  have hselfCross := selfCross_eq (holds_initializeQuery (name :: names) offered)
    fun chunk hchunk chunk' hchunk' =>
      Nat.le_of_eq ((hchunks chunk hchunk).trans (hchunks chunk' hchunk').symm)
  refine ⟨_, hselfCross, fun isParallel trace hrun => ?_⟩
  have htrace := hrun.perm.trans (flatten_pairCalls_perm heap (name :: names) (name :: names) true
    (taken (name :: names) offered) (taken (name :: names) offered))
  have hlength : ((taken (name :: names) offered).flatMap heap.chunksOf).length =
      ((taken (name :: names) offered).flatMap heap.shape).length := by
    simp only [List.length_flatMap, Heap.chunksOf, List.length_map, List.length_range]
  rw [eachPairOnce_iff hdistinct htrace, indices_ne_iff hdistinct hchunks, hlength]

/-- A pool with one chunk of three slots. -/
theorem selfCross_once_iff_three :
    ∃ trace, EachPairOnce ((Heap.new fun _ => 1).addChunk 0 3) ["A"] [0] trace ∧
      trace.length = 3 := by
  let pools : List (IArchetypePool Nat) := [⟨0, ["A"], by decide⟩]
  have htaken : taken ["A"] pools = [0] := by decide +kernel
  obtain ⟨work, hwork, hruns⟩ :=
    selfCross_once_iff ((Heap.new fun _ => 1).addChunk 0 3) "A" [] pools 3
      (htaken ▸ by decide) (htaken ▸ by decide +kernel)
  have hiff := hruns true _ (runs_flatten true work)
  rw [htaken] at hiff
  refine ⟨work.flatten, hiff.mpr (by decide +kernel), ?_⟩
  have hlength : ((initializeQuery pools (Query.new ["A"])).selfCross
      ((Heap.new fun _ => 1).addChunk 0 3)).map (·.flatten.length) = some 3 := by decide +kernel
  rw [hwork] at hlength
  exact Option.some.inj hlength

/-- Two chunks of one slot each: their pair is called for twice. -/
theorem selfCross_twice :
    let heap : Heap Nat := ((Heap.new fun _ => 0).addChunk 0 1).addChunk 0 1
    let pools : List (IArchetypePool Nat) := [⟨0, ["A"], by decide⟩]
    (taken ["A"] pools = [0] ∧ heap.shape 0 = [1, 1]) ∧
      ∃ work, (initializeQuery pools (Query.new ["A"])).selfCross heap = some work ∧
        ∀ isParallel trace, Runs isParallel work trace → ¬ EachPairOnce heap ["A"] [0] trace := by
  intro heap pools
  refine ⟨by decide +kernel, ?_⟩
  obtain ⟨work, hwork⟩ := Option.isSome_iff_exists.mp
    (by decide +kernel : ((initializeQuery pools (Query.new ["A"])).selfCross heap).isSome)
  refine ⟨work, hwork, fun isParallel trace hrun h => ?_⟩
  have hpair := h.pairs ⟨0, (0, 0)⟩ (by decide +kernel) ⟨0, (1, 0)⟩ (by decide +kernel) (by decide)
  rw [hrun.perm.count_eq, hrun.perm.count_eq] at hpair
  have htwice : ((initializeQuery pools (Query.new ["A"])).selfCross heap).map (fun work =>
      work.flatten.count (heap.refsAt ["A"] ⟨0, (0, 0)⟩, heap.refsAt ["A"] ⟨0, (1, 0)⟩) +
        work.flatten.count (heap.refsAt ["A"] ⟨0, (1, 0)⟩, heap.refsAt ["A"] ⟨0, (0, 0)⟩)) =
      some 2 := by decide +kernel
  rw [hwork, Option.map_some, hpair] at htwice
  cases htwice

/-! ## Bounds -/

/-- `_selfCrossOperate` runs past the end of a shorter second vector. -/
theorem le_of_selfCrossOperate {chunk chunk' : P × Nat}
    (h : (selfCrossOperate (heap.vectorsAt (name :: names) chunk)
      (heap.vectorsAt (name :: names) chunk')).isSome) :
    heap.chunkSize chunk ≤ heap.chunkSize chunk' := by
  by_contra hle
  have hlt := Nat.lt_of_not_le hle
  rw [selfCrossOperate, Heap.firstVector_vectorsAt, Heap.firstVector_vectorsAt] at h
  simp only [Option.bind_eq_bind, Option.bind_some, isSome_forEach_iff, List.mem_range] at h
  have hturn := h _ hlt _ (Nat.lt_succ_self _)
  have hother : ¬ ((⟨⟨chunk.1, name⟩, 0, chunk.2⟩ : VectorAddr P) =
      ⟨⟨chunk'.1, name⟩, 0, chunk'.2⟩ ∧ heap.chunkSize chunk' = heap.chunkSize chunk') := by
    rintro ⟨heq, -⟩
    obtain ⟨hpool, -, hrow⟩ := VectorAddr.mk.inj heq
    cases Prod.ext (IComponentPool.mk.inj hpool).1 hrow
    exact Nat.lt_irrefl _ hlt
  rw [if_neg hother] at hturn
  obtain ⟨refs, hrefs⟩ := Option.isSome_iff_exists.mp hturn
  obtain ⟨refTuple1, -, hrefs⟩ := Option.bind_eq_some_iff.mp hrefs
  obtain ⟨refTuple2, hsecond, -⟩ := Option.bind_eq_some_iff.mp hrefs
  exact Nat.lt_irrefl _ (Heap.lt_of_getReferencesAtIndex (Option.isSome_of_eq_some hsecond))

theorem isSome_selfCross_iff (h : query.Holds (name :: names) ptrs) :
    (query.selfCross heap).isSome ↔ ∀ chunk ∈ ptrs.flatMap heap.chunksOf,
      ∀ chunk' ∈ ptrs.flatMap heap.chunksOf, heap.chunkSize chunk ≤ heap.chunkSize chunk' := by
  constructor
  · intro hsome chunk hchunk chunk' hchunk'
    obtain ⟨ptr, hptr, hchunk⟩ := List.mem_flatMap.mp hchunk
    obtain ⟨ptr', hptr', hchunk'⟩ := List.mem_flatMap.mp hchunk'
    rw [selfCross, cross, h.arrays, List.mapM_map, isSome_mapM_iff] at hsome
    have hpool := hsome ptr hptr
    rw [Function.comp_apply, forEach_map, isSome_forEach_iff] at hpool
    have hpools := hpool ptr' hptr'
    rw [Function.comp_apply, crossPools_forEach] at hpools
    exact le_of_selfCrossOperate
      (isSome_forEach_iff.mp (isSome_forEach_iff.mp hpools chunk hchunk) chunk' hchunk')
  · intro hsizes
    rw [selfCross_eq h hsizes]
    rfl

/-- Every vector is indexed below its size, whatever callbacks `map` has, and whatever the other
query of a cross is. -/
structure InBounds (heap : Heap P) (query otherQuery : Query P) : Prop where
  map : ∀ callbacks, (query.map heap callbacks).isSome
  cross : (query.cross heap otherQuery false).isSome
  selfCross : (query.selfCross heap).isSome

/-- `map` and `cross` stay in bounds, whatever chunks the pools have; **all of them stay in bounds**
exactly if the chunks of the pools crossed with themselves have one size. -/
theorem inBounds_iff (heap : Heap P) (name name' : String) (names names' : List String)
    (offered offered' : List (IArchetypePool P)) :
    let query := initializeQuery offered (Query.new (name :: names))
    let otherQuery := initializeQuery offered' (Query.new (name' :: names'))
    ((∀ callbacks, (query.map heap callbacks).isSome) ∧
      (query.cross heap otherQuery false).isSome) ∧
    (InBounds heap query otherQuery ↔
      ∀ ptr ∈ taken (name :: names) offered, ∀ size ∈ heap.shape ptr,
        ∀ ptr' ∈ taken (name :: names) offered, ∀ size' ∈ heap.shape ptr', size = size') := by
  have hquery := holds_initializeQuery (name :: names) offered
  have hother := holds_initializeQuery (name' :: names') offered'
  have hmap : ∀ callbacks, ((initializeQuery offered (Query.new (name :: names))).map heap
      callbacks).isSome := fun callbacks => Option.isSome_of_eq_some (map_eq hquery callbacks)
  have hcross : ((initializeQuery offered (Query.new (name :: names))).cross heap
      (initializeQuery offered' (Query.new (name' :: names'))) false).isSome :=
    Option.isSome_of_eq_some (cross_eq_of_not_self hquery hother)
  refine ⟨⟨hmap, hcross⟩, ⟨fun h ptr hptr size hsize ptr' hptr' size' hsize' => ?_, fun h => ?_⟩⟩
  · have hle := (isSome_selfCross_iff hquery).mp h.selfCross
    obtain ⟨chunk, hchunk, rfl⟩ := Heap.exists_chunk hptr hsize
    obtain ⟨chunk', hchunk', rfl⟩ := Heap.exists_chunk hptr' hsize'
    exact Nat.le_antisymm (hle chunk hchunk chunk' hchunk') (hle chunk' hchunk' chunk hchunk)
  · refine ⟨hmap, hcross, (isSome_selfCross_iff hquery).mpr fun chunk hchunk => ?_⟩
    refine forall_chunkSize fun ptr' hptr' size' hsize' => ?_
    exact forall_chunkSize (p := fun size => size ≤ size')
      (fun ptr hptr size hsize => Nat.le_of_eq (h ptr hptr size hsize ptr' hptr' size' hsize'))
      chunk hchunk

/-- A chunk of two slots before one of a single slot. -/
theorem inBounds_false :
    let heap : Heap Nat := ((Heap.new fun _ => 0).addChunk 0 2).addChunk 1 1
    let query := initializeQuery [⟨0, ["A"], by decide⟩, ⟨1, ["A"], by decide⟩] (Query.new ["A"])
    query.selfCross heap = none ∧ ¬ InBounds heap query query := by
  intro heap query
  have hnone : query.selfCross heap = none := by decide +kernel
  refine ⟨hnone, fun h => ?_⟩
  have hsome := h.selfCross
  rw [hnone] at hsome
  cases hsome

end Query

end ProjectE.Ecs
