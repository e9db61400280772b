import Mathlib.Algebra.BigOperators.Group.Finset.Piecewise
import Mathlib.Algebra.Order.BigOperators.Group.Finset

/-!
# Sums and counts over threads

A number for each of finitely many threads, taken from its position, and their sum (`tally`). When
one thread moves, the sum changes by that thread alone (`tally_update`). Counting the threads at
positions of a kind (`census`) is the sum of ones and zeros.
-/

namespace Verif

variable {τ σ : Type*} [Fintype τ]

/-- The weights of all threads, by the places they are at. -/
def tally (weight : σ → Nat) (pc : τ → σ) : Nat := ∑ t, weight (pc t)

/-- The threads at a position of the kind. -/
def census (kind : σ → Bool) (pc : τ → σ) : Nat := tally (fun p => (kind p).toNat) pc

variable {weight : σ → Nat} {kind : σ → Bool} {pc pc' : τ → σ} {t : τ}

/-- One thread moves: it weighs what it weighs where it is now. -/
theorem tally_update [DecidableEq τ] (p : σ) :
    tally weight (Function.update pc t p) + weight (pc t) = tally weight pc + weight p := by
  have hsplit (f : τ → σ) :
      tally weight f = weight (f t) + ∑ u ∈ Finset.univ.erase t, weight (f u) :=
    (Finset.add_sum_erase _ _ (Finset.mem_univ t)).symm
  have hrest : (∑ u ∈ Finset.univ.erase t, weight (Function.update pc t p u)) =
      ∑ u ∈ Finset.univ.erase t, weight (pc u) := by
    refine Finset.sum_congr rfl fun u hu => ?_
    rw [Function.update_of_ne (Finset.ne_of_mem_erase hu)]
  rw [hsplit (Function.update pc t p), hsplit pc, hrest, Function.update_self]
  omega

/-- All threads move, and none weighs more than `k` above what it did. -/
theorem tally_le_add {k : Nat} (h : ∀ t, weight (pc' t) ≤ weight (pc t) + k) :
    tally weight pc' ≤ tally weight pc + Fintype.card τ * k := by
  calc tally weight pc' ≤ ∑ t, (weight (pc t) + k) := Finset.sum_le_sum fun t _ => h t
    _ = tally weight pc + Fintype.card τ * k := by
      rw [Finset.sum_add_distrib, Finset.sum_const, Finset.card_univ, Nat.nsmul_eq_mul, tally]

theorem census_update [DecidableEq τ] (p : σ) :
    census kind (Function.update pc t p) + (kind (pc t)).toNat =
      census kind pc + (kind p).toNat :=
  tally_update p

theorem census_eq_zero (h : ∀ t, kind (pc t) = false) : census kind pc = 0 := by
  refine Finset.sum_eq_zero fun t _ => ?_
  change (kind (pc t)).toNat = 0
  rw [h t, Bool.toNat_false]

end Verif
