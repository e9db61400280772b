import Mathlib.Algebra.Order.Floor.Ring
import Mathlib.Algebra.Order.Archimedean.Basic
import Mathlib.Tactic.Ring
import Mathlib.Tactic.Linarith

/-!
# Accumulators

An accumulator takes deposits and pays out in equal steps: as many as there is enough for, the rest
being kept for the next time. `Balanced` is what its books say: what was deposited is what was paid
and what is left, and what is left does not make a step. Balanced books compose (`Balanced.add`),
and the number of steps paid depends on the sum of the deposits alone (`Balanced.count`).

`drain` pays out one step after the other, and is a division with remainder (`balanced_of_drain`,
`isSome_drain`). By steps that are not positive it ends only where it does not begin
(`exists_isSome_drain_iff`).
-/

namespace Verif

namespace Accumulator

variable {K : Type*} [Field K] [LinearOrder K] [IsStrictOrderedRing K]

/-- `deposited` has been paid in `paid` steps, but for `left`, which is less than a step. So the
number of steps is the quotient, rounded down. -/
structure Balanced (step deposited : K) (paid : ℕ) (left : K) : Prop where
  account : deposited = paid * step + left
  left_nonneg : 0 ≤ left
  left_lt : left < step

/-- Takes `step` off as long as there is enough, in at most `fuel` turns. -/
def drain (step : K) : (fuel : ℕ) → K → Option (ℕ × K)
  | fuel, left =>
    if step ≤ left then
      match fuel with
      | 0 => none
      | fuel + 1 => (drain step fuel (left - step)).map fun (paid, left) => (paid + 1, left)
    else some (0, left)

variable {step deposited left left' : K} {paid paid' : ℕ}

omit [IsStrictOrderedRing K] in
theorem balanced_zero (h : 0 < step) : Balanced step 0 0 0 where
  account := by rw [Nat.cast_zero, zero_mul, add_zero]
  left_nonneg := le_refl 0
  left_lt := h

omit [IsStrictOrderedRing K] in
/-- What was left is paid out together with the next deposit. -/
theorem Balanced.add {more : K} (h : Balanced step deposited paid left)
    (hmore : Balanced step (left + more) paid' left') :
    Balanced step (deposited + more) (paid + paid') left' where
  account := by
    calc deposited + more = paid * step + (left + more) := by rw [h.account, add_assoc]
      _ = paid * step + (paid' * step + left') := by rw [hmore.account]
      _ = ((paid + paid' : ℕ) : K) * step + left' := by
        rw [Nat.cast_add]
        ring
  left_nonneg := hmore.left_nonneg
  left_lt := hmore.left_lt

/-- The number of steps is the quotient, rounded down. -/
theorem Balanced.count [FloorSemiring K] (h : Balanced step deposited paid left) :
    paid = ⌊deposited / step⌋₊ := by
  have hstep : 0 < step := lt_of_le_of_lt h.left_nonneg h.left_lt
  have hquotient : deposited / step = left / step + paid := by
    rw [h.account, add_div, mul_div_cancel_right₀ _ hstep.ne', add_comm]
  have hnonneg : 0 ≤ left / step := div_nonneg h.left_nonneg hstep.le
  have hfloor : ⌊left / step⌋₊ = 0 := Nat.floor_eq_zero.mpr ((div_lt_one hstep).mpr h.left_lt)
  rw [hquotient, Nat.floor_add_natCast hnonneg, hfloor, Nat.zero_add]

/-- Draining keeps the books. -/
theorem balanced_of_drain : ∀ {fuel : ℕ} {deposited : K} {paid : ℕ} {left : K}, 0 ≤ deposited →
    drain step fuel deposited = some (paid, left) → Balanced step deposited paid left
  | fuel, deposited, paid, left, hnonneg, h => by
    unfold drain at h
    by_cases henough : step ≤ deposited
    · rw [if_pos henough] at h
      cases fuel with
      | zero => cases h
      | succ fuel =>
        obtain ⟨⟨paid, left⟩, hrest, heq⟩ := Option.map_eq_some_iff.mp h
        cases heq
        have ih := balanced_of_drain (sub_nonneg.mpr henough) hrest
        refine ⟨?_, ih.left_nonneg, ih.left_lt⟩
        calc deposited = (deposited - step) + step := (sub_add_cancel deposited step).symm
          _ = paid * step + left + step := by rw [ih.account]
          _ = ((paid + 1 : ℕ) : K) * step + left := by
            rw [Nat.cast_add_one]
            ring
    · rw [if_neg henough] at h
      cases h
      refine ⟨?_, hnonneg, lt_of_not_ge henough⟩
      rw [Nat.cast_zero, zero_mul, zero_add]

/-- As many turns as there are steps to pay are enough. -/
theorem isSome_drain (hstep : 0 < step) : ∀ {fuel : ℕ} {deposited : K},
    deposited < (fuel + 1 : ℕ) * step → (drain step fuel deposited).isSome
  | fuel, deposited, h => by
    unfold drain
    by_cases henough : step ≤ deposited
    · rw [if_pos henough]
      cases fuel with
      | zero =>
        rw [Nat.zero_add, Nat.cast_one, one_mul] at h
        exact absurd henough (not_le_of_gt h)
      | succ fuel =>
        have hrest : deposited - step < (fuel + 1 : ℕ) * step := by
          rw [Nat.cast_add_one (fuel + 1), add_mul, one_mul] at h
          linarith
        rw [Option.isSome_map]
        exact isSome_drain hstep hrest
    · rw [if_neg henough]
      rfl

/-- A step that takes nothing off is followed by another. -/
theorem drain_eq_none (hstep : step ≤ 0) : ∀ {fuel : ℕ} {deposited : K}, step ≤ deposited →
    drain step fuel deposited = none
  | fuel, deposited, henough => by
    unfold drain
    rw [if_pos henough]
    cases fuel with
    | zero => rfl
    | succ fuel =>
      have hrest : step ≤ deposited - step := by linarith
      show (drain step fuel (deposited - step)).map _ = none
      rw [drain_eq_none hstep hrest, Option.map_none]

/-- Draining ends if a step takes something off, or if there is not enough for the first. -/
theorem exists_isSome_drain_iff [Archimedean K] :
    (∃ fuel, (drain step fuel deposited).isSome) ↔ 0 < step ∨ deposited < step := by
  constructor
  · rintro ⟨fuel, hfuel⟩
    by_contra hnot
    obtain ⟨hstep, henough⟩ := not_or.mp hnot
    rw [drain_eq_none (not_lt.mp hstep) (not_lt.mp henough)] at hfuel
    cases hfuel
  · rintro (hstep | hfew)
    · obtain ⟨fuel, hfuel⟩ := exists_nat_gt (deposited / step)
      refine ⟨fuel, isSome_drain hstep ?_⟩
      have hbound : deposited < fuel * step := (div_lt_iff₀ hstep).mp hfuel
      rw [Nat.cast_add_one, add_mul, one_mul]
      linarith
    · refine ⟨0, ?_⟩
      unfold drain
      rw [if_neg (not_le_of_gt hfew)]
      rfl

end Accumulator

end Verif
