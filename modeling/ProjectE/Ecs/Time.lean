import ProjectE.Lib.Accumulator
import ProjectE.Ecs.SystemTree
import Mathlib.Algebra.Order.BigOperators.Group.List

/-!
# Time

`addTime` runs the tree of systems once, with the time added, and the tree of fixed systems once for
every full `fixedUpdateTime` since it last ran. Times are exact rationals, and a count of runs is a
natural number: a `size_t` holds it unless one call makes 2⁶⁴ runs.

What is run is kept as a list of runs, one for each time a tree is run; the systems read the time
they are given from their tree (`getRunStepData`) just before they run. A loop that is still going
after `fuel` turns gives `none`: with a negative `fixedUpdateTime` it never ends, once it has begun
(`addTime_ends_iff`).

`fixed_step_accounting` is the law of the accumulator: the fixed systems have run as often as the
whole time holds `fixedUpdateTime`, however the time was cut into calls.
-/

namespace ProjectE.Ecs

open Verif

/-- The two trees of a manager. -/
inductive WhichTree where
  | systemTree
  | fixedSystemTree
deriving DecidableEq, Repr

/-- A tree was run: `deltaTime` is what its systems read from it, one after the other, and `systems`
is their order. -/
structure TreeRun (S : Type) where
  tree : WhichTree
  deltaTime : ℚ
  systems : List S
deriving DecidableEq, Repr

/-- The members of `AEntityManager` that `addTime` reads and writes, with the `_deltaTime` of its
two trees. -/
structure Clock where
  fixedUpdateTime : ℚ
  timePassed : ℚ
  timeSinceLastFixedUpdate : ℚ
  systemDeltaTime : ℚ
  fixedSystemDeltaTime : ℚ
deriving DecidableEq, Repr

namespace Clock

variable {S : Type}

/-- `AEntityManager(fixedUpdateTime)`: a time that is positive is the delta of the fixed tree from
here on. -/
def new (fixedUpdateTime : ℚ) : Clock where
  fixedUpdateTime := fixedUpdateTime
  timePassed := 0
  timeSinceLastFixedUpdate := 0
  systemDeltaTime := 0
  fixedSystemDeltaTime := if 0 < fixedUpdateTime then fixedUpdateTime else 0

/-- `_runSystems()`: every system of the tree reads the tree's own delta. -/
def runSystems (c : Clock) (systemTree : SystemTree S) : TreeRun S :=
  ⟨.systemTree, c.systemDeltaTime, systemTree.runNode⟩

/-- `_runFixedSystems()`: the fixed tree has a delta of its own, which `addTime` sets only where it
makes one update of each call. -/
def runFixedSystems (c : Clock) (fixedSystemTree : SystemTree S) : TreeRun S :=
  ⟨.fixedSystemTree, c.fixedSystemDeltaTime, fixedSystemTree.runNode⟩

/-- The loop of `addTime`: the clock after it, what it runs, and its count. -/
def fixedUpdates (fixedSystemTree : SystemTree S) :
    (fuel : ℕ) → Clock → Option (Clock × List (TreeRun S) × ℕ)
  | fuel, c =>
    if c.timeSinceLastFixedUpdate ≥ c.fixedUpdateTime then
      match fuel with
      | 0 => none
      | fuel + 1 => do
        let run := c.runFixedSystems fixedSystemTree
        let c := { c with
          timeSinceLastFixedUpdate := c.timeSinceLastFixedUpdate - c.fixedUpdateTime }
        let (c, runs, count) ← fixedUpdates fixedSystemTree fuel c
        return (c, run :: runs, count + 1)
    else some (c, [], 0)

/-- `addTime`: the clock after it, what it runs, and what it returns. -/
def addTime (systemTree fixedSystemTree : SystemTree S) (fuel : ℕ) (c : Clock) (time : ℚ) :
    Option (Clock × List (TreeRun S) × ℕ) :=
  if c.fixedUpdateTime = 0 then
    let c := { c with
      timePassed := c.timePassed + time
      systemDeltaTime := time
      fixedSystemDeltaTime := time }
    some (c, [c.runSystems systemTree, c.runFixedSystems fixedSystemTree], 1)
  else
    let c := { c with
      timePassed := c.timePassed + time
      timeSinceLastFixedUpdate := c.timeSinceLastFixedUpdate + time
      systemDeltaTime := time }
    let run := c.runSystems systemTree
    if c.timeSinceLastFixedUpdate ≥ c.fixedUpdateTime then do
      let (c, runs, count) ← c.fixedUpdates fixedSystemTree fuel
      return (c, run :: runs, count)
    else some (c, [run], 0)

/-- Calls of `addTime`, one after the other, each with what it runs and returns. -/
def addTimes (systemTree fixedSystemTree : SystemTree S) (fuel : ℕ) (c : Clock) :
    List ℚ → Option (Clock × List (List (TreeRun S) × ℕ))
  | [] => some (c, [])
  | time :: times => do
    let (c, call) ← c.addTime systemTree fixedSystemTree fuel time
    let (c, calls) ← c.addTimes systemTree fixedSystemTree fuel times
    return (c, call :: calls)

/-! ## The loop drains the time that has passed -/

variable {systemTree fixedSystemTree : SystemTree S} {fuel : ℕ} {c c' : Clock} {time : ℚ}

theorem fixedUpdates_eq (fixedSystemTree : SystemTree S) : ∀ (fuel : ℕ) (c : Clock),
    c.fixedUpdates fixedSystemTree fuel =
      (Accumulator.drain c.fixedUpdateTime fuel c.timeSinceLastFixedUpdate).map
        fun (count, left) => ({ c with timeSinceLastFixedUpdate := left },
          List.replicate count (c.runFixedSystems fixedSystemTree), count)
  | fuel, c => by
    unfold fixedUpdates Accumulator.drain
    by_cases henough : c.fixedUpdateTime ≤ c.timeSinceLastFixedUpdate
    · rw [if_pos henough, if_pos henough]
      cases fuel with
      | zero => rfl
      | succ fuel =>
        simp only [fixedUpdates_eq fixedSystemTree fuel]
        cases Accumulator.drain c.fixedUpdateTime fuel
            (c.timeSinceLastFixedUpdate - c.fixedUpdateTime) with
        | none => rfl
        | some drained => rfl
    · rw [if_neg henough, if_neg henough]
      rfl

/-- With a `fixedUpdateTime` other than 0, a call runs the systems once and drains. -/
theorem addTime_eq (h : c.fixedUpdateTime ≠ 0) :
    c.addTime systemTree fixedSystemTree fuel time =
      (Accumulator.drain c.fixedUpdateTime fuel (c.timeSinceLastFixedUpdate + time)).map
        fun (count, left) => (
          { c with
            timePassed := c.timePassed + time
            timeSinceLastFixedUpdate := left
            systemDeltaTime := time },
          ⟨.systemTree, time, systemTree.runNode⟩ ::
            List.replicate count (c.runFixedSystems fixedSystemTree),
          count) := by
  unfold addTime
  rw [if_neg h]
  by_cases henough : c.fixedUpdateTime ≤ c.timeSinceLastFixedUpdate + time
  · simp only [ge_iff_le, if_pos henough, fixedUpdates_eq]
    cases Accumulator.drain c.fixedUpdateTime fuel (c.timeSinceLastFixedUpdate + time) with
    | none => rfl
    | some drained => rfl
  · unfold Accumulator.drain
    simp only [ge_iff_le, if_neg henough]
    rfl

/-! ## The end of the loop -/

/-- **The catch-up loop ends** exactly where `fixedUpdateTime` is not negative, or the time that has
passed does not make up one fixed update. -/
theorem addTime_ends_iff (systemTree fixedSystemTree : SystemTree S) (c : Clock) (time : ℚ) :
    (∃ fuel, (c.addTime systemTree fixedSystemTree fuel time).isSome) ↔
      0 ≤ c.fixedUpdateTime ∨ c.timeSinceLastFixedUpdate + time < c.fixedUpdateTime := by
  by_cases hzero : c.fixedUpdateTime = 0
  · have hends : (c.addTime systemTree fixedSystemTree 0 time).isSome := by
      rw [addTime, if_pos hzero]
      rfl
    exact iff_of_true ⟨0, hends⟩ (.inl hzero.ge)
  · have hnonneg : 0 ≤ c.fixedUpdateTime ↔ 0 < c.fixedUpdateTime :=
      ⟨fun h => lt_of_le_of_ne h (Ne.symm hzero), le_of_lt⟩
    rw [hnonneg, ← Accumulator.exists_isSome_drain_iff]
    simp only [addTime_eq hzero, Option.isSome_map]

/-- A manager of fixed updates that go back by a second, and no time added. -/
theorem not_addTime_ends : ¬ ∀ (systemTree fixedSystemTree : SystemTree String) (F : ℚ)
    (times : List ℚ) (fuel : ℕ) (c : Clock) (calls : List (List (TreeRun String) × ℕ)),
    (new F).addTimes systemTree fixedSystemTree fuel times = some (c, calls) →
      ∀ time, ∃ fuel, (c.addTime systemTree fixedSystemTree fuel time).isSome := by
  intro h
  let tree : SystemTree String := .node true "ROOT" [] [] []
  obtain ⟨fuel, hends⟩ := h tree tree (-1) [] 0 (new (-1)) [] rfl 0
  have hstep : (new (-1)).fixedUpdateTime = -1 := rfl
  have henough : (new (-1)).fixedUpdateTime ≤ (new (-1)).timeSinceLastFixedUpdate + 0 := by
    show (-1 : ℚ) ≤ 0 + 0
    norm_num
  have hgoes : Accumulator.drain (new (-1)).fixedUpdateTime fuel
      ((new (-1)).timeSinceLastFixedUpdate + 0) = none :=
    Accumulator.drain_eq_none (by rw [hstep]; norm_num) henough
  rw [addTime_eq (by rw [hstep]; norm_num), hgoes, Option.map_none] at hends
  cases hends

/-! ## The books of a run -/

/-- After `deposited` time in all, with `paid` runs of the fixed systems, for a clock whose update
takes `fixedUpdateTime`. What is not paid yet is less than one update. -/
structure Kept (fixedUpdateTime deposited : ℚ) (paid : ℕ) (c : Clock) : Prop where
  fixedUpdateTime_eq : c.fixedUpdateTime = fixedUpdateTime
  fixedSystemDeltaTime_eq : c.fixedSystemDeltaTime = fixedUpdateTime
  balanced : Accumulator.Balanced fixedUpdateTime deposited paid c.timeSinceLastFixedUpdate

variable {F deposited : ℚ} {paid count : ℕ} {runs : List (TreeRun S)}
  {calls : List (List (TreeRun S) × ℕ)}

theorem Kept.pos (h : Kept F deposited paid c) : 0 < F :=
  lt_of_le_of_lt h.balanced.left_nonneg h.balanced.left_lt

theorem kept_new (hF : 0 < F) : Kept F 0 0 (new F) :=
  ⟨rfl, if_pos hF, Accumulator.balanced_zero hF⟩

/-- What one call runs: the systems with the time added, then the fixed systems, every time with
the fixed time. -/
def CallRuns (systemTree fixedSystemTree : SystemTree S) (F time : ℚ)
    (call : List (TreeRun S) × ℕ) : Prop :=
  call.1 = ⟨.systemTree, time, systemTree.runNode⟩ ::
    List.replicate call.2 ⟨.fixedSystemTree, F, fixedSystemTree.runNode⟩

theorem Kept.addTime (h : Kept F deposited paid c) (htime : 0 ≤ time)
    (hcall : c.addTime systemTree fixedSystemTree fuel time = some (c', runs, count)) :
    Kept F (deposited + time) (paid + count) c' ∧
      CallRuns systemTree fixedSystemTree F time (runs, count) := by
  have hF : c.fixedUpdateTime ≠ 0 := by
    rw [h.fixedUpdateTime_eq]
    exact h.pos.ne'
  rw [addTime_eq hF, h.fixedUpdateTime_eq] at hcall
  obtain ⟨⟨count, left⟩, hdrain, heq⟩ := Option.map_eq_some_iff.mp hcall
  cases heq
  have hnonneg : 0 ≤ c.timeSinceLastFixedUpdate + time := add_nonneg h.balanced.left_nonneg htime
  refine ⟨⟨rfl, h.fixedSystemDeltaTime_eq, ?_⟩, ?_⟩
  · exact h.balanced.add (Accumulator.balanced_of_drain hnonneg hdrain)
  · rw [CallRuns, runFixedSystems, h.fixedSystemDeltaTime_eq]

/-- A call answers if the loop may turn as often as the time added holds the fixed time. -/
theorem Kept.isSome_addTime (h : Kept F deposited paid c)
    (systemTree fixedSystemTree : SystemTree S) (htime : time ≤ fuel * F) :
    (c.addTime systemTree fixedSystemTree fuel time).isSome := by
  have hF : c.fixedUpdateTime ≠ 0 := by
    rw [h.fixedUpdateTime_eq]
    exact h.pos.ne'
  have hbound : c.timeSinceLastFixedUpdate + time < (fuel + 1 : ℕ) * F := by
    have hleft := h.balanced.left_lt
    rw [Nat.cast_add_one, add_mul, one_mul]
    linarith
  rw [addTime_eq hF, Option.isSome_map, h.fixedUpdateTime_eq]
  exact Accumulator.isSome_drain h.pos hbound

/-- The counts that calls return, added up. -/
def total (calls : List (List (TreeRun S) × ℕ)) : ℕ := (calls.map (·.2)).sum

theorem Kept.addTimes (h : Kept F deposited paid c) {times : List ℚ} (htimes : ∀ t ∈ times, 0 ≤ t)
    (hcalls : c.addTimes systemTree fixedSystemTree fuel times = some (c', calls)) :
    Kept F (deposited + times.sum) (paid + total calls) c' ∧
      List.Forall₂ (CallRuns systemTree fixedSystemTree F) times calls := by
  induction times generalizing c deposited paid calls with
  | nil =>
    cases hcalls
    rw [List.sum_nil, add_zero]
    exact ⟨h, .nil⟩
  | cons time times ih =>
    obtain ⟨htime, htimes⟩ := List.forall_mem_cons.mp htimes
    obtain ⟨⟨c₁, call⟩, hcall, hcalls⟩ := Option.bind_eq_some_iff.mp hcalls
    obtain ⟨⟨c₂, rest⟩, hrest, heq⟩ := Option.bind_eq_some_iff.mp hcalls
    cases heq
    obtain ⟨hkept, hruns⟩ := h.addTime htime hcall
    obtain ⟨hkept', hrest⟩ := ih hkept htimes hrest
    refine ⟨?_, .cons hruns hrest⟩
    rw [List.sum_cons, total, List.map_cons, List.sum_cons, ← add_assoc, ← add_assoc]
    exact hkept'

theorem Kept.isSome_addTimes (h : Kept F deposited paid c)
    (systemTree fixedSystemTree : SystemTree S) {times : List ℚ}
    (htimes : ∀ t ∈ times, 0 ≤ t ∧ t ≤ fuel * F) :
    (c.addTimes systemTree fixedSystemTree fuel times).isSome := by
  induction times generalizing c deposited paid with
  | nil => rfl
  | cons time times ih =>
    obtain ⟨⟨htime, hbound⟩, htimes⟩ := List.forall_mem_cons.mp htimes
    obtain ⟨⟨c₁, runs, count⟩, hcall⟩ := Option.isSome_iff_exists.mp
      (h.isSome_addTime systemTree fixedSystemTree hbound)
    obtain ⟨⟨c₂, calls⟩, hrest⟩ := Option.isSome_iff_exists.mp
      (ih (h.addTime htime hcall).1 htimes)
    simp only [Clock.addTimes, hcall, hrest, Option.bind_eq_bind, Option.bind_some]
    rfl

/-- The calls of a run that goes on were made before it went on. -/
theorem addTimes_append {times more : List ℚ}
    (h : c.addTimes systemTree fixedSystemTree fuel (times ++ more) = some (c', calls)) :
    ∃ c₁, c.addTimes systemTree fixedSystemTree fuel times =
      some (c₁, calls.take times.length) := by
  induction times generalizing c calls with
  | nil => exact ⟨c, rfl⟩
  | cons time times ih =>
    obtain ⟨⟨c₁, call⟩, hcall, h⟩ := Option.bind_eq_some_iff.mp h
    obtain ⟨⟨c₂, rest⟩, hrest, heq⟩ := Option.bind_eq_some_iff.mp h
    cases heq
    obtain ⟨c₃, htimes⟩ := ih hrest
    refine ⟨c₃, ?_⟩
    simp only [addTimes, hcall, htimes, Option.bind_eq_bind, Option.bind_some]
    rfl

/-- The runs of the fixed systems among all runs. -/
def fixedRuns (calls : List (List (TreeRun S) × ℕ)) : List (TreeRun S) :=
  (calls.flatMap (·.1)).filter (·.tree = .fixedSystemTree)

/-- What was run is what was counted. -/
theorem length_fixedRuns {times : List ℚ}
    (h : List.Forall₂ (CallRuns systemTree fixedSystemTree F) times calls) :
    (fixedRuns calls).length = total calls := by
  induction h with
  | nil => rfl
  | @cons time call times calls hcall _ ih =>
    have hone : (call.1.filter (·.tree = .fixedSystemTree)).length = call.2 := by
      rw [hcall, List.filter_cons_of_neg (by simp), List.filter_replicate_of_pos (by simp),
        List.length_replicate]
    rw [fixedRuns, List.flatMap_cons, List.filter_append, List.length_append, hone]
    exact congrArg (call.2 + ·) ih

end Clock

/-- The accounts of a list of calls on a new manager: what each call runs, how often the fixed
systems ran in all, and the time that is left over. -/
structure Accounted {S : Type} (systemTree fixedSystemTree : SystemTree S) (F : ℚ)
    (times : List ℚ) (c : Clock) (calls : List (List (TreeRun S) × ℕ)) : Prop where
  runs : List.Forall₂ (Clock.CallRuns systemTree fixedSystemTree F) times calls
  fixedRuns : (Clock.fixedRuns calls).length = Clock.total calls
  total : Clock.total calls = ⌊times.sum / F⌋₊
  remainder_nonneg : 0 ≤ c.timeSinceLastFixedUpdate
  remainder_lt : c.timeSinceLastFixedUpdate < F

theorem accounted_of_addTimes {S : Type} {systemTree fixedSystemTree : SystemTree S} {F : ℚ}
    (hF : 0 < F) {times : List ℚ} (htimes : ∀ t ∈ times, 0 ≤ t) {fuel : ℕ} {c : Clock}
    {calls : List (List (TreeRun S) × ℕ)}
    (h : (Clock.new F).addTimes systemTree fixedSystemTree fuel times = some (c, calls)) :
    Accounted systemTree fixedSystemTree F times c calls := by
  obtain ⟨hkept, hruns⟩ := (Clock.kept_new hF).addTimes htimes h
  rw [zero_add, Nat.zero_add] at hkept
  exact ⟨hruns, Clock.length_fixedRuns hruns, hkept.balanced.count, hkept.balanced.left_nonneg,
    hkept.balanced.left_lt⟩

/-- **Fixed-step accounting**: on a new manager all calls answer, and after every one of them the
accounts are right; two ways to cut the same time into calls run the fixed systems equally often. -/
theorem fixed_step_accounting {S : Type} (systemTree fixedSystemTree : SystemTree S) {F : ℚ}
    (hF : 0 < F) {times : List ℚ} (htimes : ∀ t ∈ times, 0 ≤ t) :
    (∃ enough, ∀ fuel ≥ enough, ∃ c calls,
      (Clock.new F).addTimes systemTree fixedSystemTree fuel times = some (c, calls) ∧
      Accounted systemTree fixedSystemTree F times c calls ∧
      ∀ before after, times = before ++ after → ∃ c₁,
        (Clock.new F).addTimes systemTree fixedSystemTree fuel before =
          some (c₁, calls.take before.length) ∧
        Accounted systemTree fixedSystemTree F before c₁ (calls.take before.length)) ∧
    ∀ times', (∀ t ∈ times', 0 ≤ t) → times'.sum = times.sum →
      ∀ fuel fuel' c c' calls calls',
        (Clock.new F).addTimes systemTree fixedSystemTree fuel times = some (c, calls) →
        (Clock.new F).addTimes systemTree fixedSystemTree fuel' times' = some (c', calls') →
        Clock.total calls = Clock.total calls' := by
  constructor
  · obtain ⟨enough, henough⟩ := exists_nat_ge (times.sum / F)
    refine ⟨enough, fun fuel hfuel => ?_⟩
    have hbound : ∀ t ∈ times, 0 ≤ t ∧ t ≤ fuel * F := by
      intro t ht
      have hsum : t ≤ times.sum := List.single_le_sum htimes t ht
      have hle : times.sum ≤ enough * F := (div_le_iff₀ hF).mp henough
      have hmore : (enough : ℚ) * F ≤ fuel * F :=
        mul_le_mul_of_nonneg_right (Nat.cast_le.mpr hfuel) hF.le
      exact ⟨htimes t ht, hsum.trans (hle.trans hmore)⟩
    obtain ⟨⟨c, calls⟩, hcalls⟩ := Option.isSome_iff_exists.mp
      ((Clock.kept_new hF).isSome_addTimes systemTree fixedSystemTree hbound)
    refine ⟨c, calls, hcalls, accounted_of_addTimes hF htimes hcalls, ?_⟩
    rintro before after rfl
    obtain ⟨c₁, hbefore⟩ := Clock.addTimes_append hcalls
    exact ⟨c₁, hbefore,
      accounted_of_addTimes hF (fun t ht => htimes t (List.mem_append_left _ ht)) hbefore⟩
  · intro times' htimes' hsum fuel fuel' c c' calls calls' hcalls hcalls'
    rw [(accounted_of_addTimes hF htimes hcalls).total,
      (accounted_of_addTimes hF htimes' hcalls').total, hsum]

/-- Four thirds of a second in three calls, with 60 fixed updates a second. -/
theorem fixed_step_accounting_sixty :
    ∃ c calls, Accounted (SystemTreeNode.node true "ROOT" ["move"] [] [])
      (SystemTreeNode.node true "FIXED_ROOT" ["collide"] [] []) (1 / 60) [1 / 3, 0, 1] c calls ∧
      Clock.total calls = 80 := by
  have htimes : ∀ t ∈ ([1 / 3, 0, 1] : List ℚ), 0 ≤ t := by simp
  obtain ⟨⟨enough, hall⟩, -⟩ := fixed_step_accounting
    (SystemTreeNode.node true "ROOT" ["move"] [] [])
    (SystemTreeNode.node true "FIXED_ROOT" ["collide"] [] []) (F := 1 / 60) (by norm_num) htimes
  obtain ⟨c, calls, -, haccounted, -⟩ := hall enough (Nat.le_refl enough)
  refine ⟨c, calls, haccounted, ?_⟩
  have hsum : ([1 / 3, 0, 1] : List ℚ).sum / (1 / 60) = (80 : ℕ) := by norm_num
  rw [haccounted.total, hsum, Nat.floor_natCast]

end ProjectE.Ecs
