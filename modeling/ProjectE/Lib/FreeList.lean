import Mathlib.Data.List.Nodup

/-!
# Free lists

An allocator over a list of places keeps those that are free and gives the others out. `Partition`
says that the free and the used places are the places there are, each once; what an allocator does
keeps it: places are added, taken from the front of the free list, given back at its end.
-/

namespace Verif

/-- The free and the used places make up all places. -/
def Partition {α : Type*} (free used all : List α) : Prop := (free ++ used).Perm all

namespace Partition

variable {α : Type*} {free used all : List α} {x : α}

theorem nodup (h : Partition free used all) (hall : all.Nodup) : (free ++ used).Nodup :=
  h.nodup_iff.mpr hall

theorem nodup_free (h : Partition free used all) (hall : all.Nodup) : free.Nodup :=
  (h.nodup hall).of_append_left

theorem nodup_used (h : Partition free used all) (hall : all.Nodup) : used.Nodup :=
  (h.nodup hall).of_append_right

theorem mem_of_mem_free (h : Partition free used all) (hx : x ∈ free) : x ∈ all :=
  h.subset (List.mem_append_left _ hx)

/-- The used places are those that are not free. -/
theorem mem_used_iff (h : Partition free used all) (hall : all.Nodup) :
    x ∈ used ↔ x ∈ all ∧ x ∉ free := by
  have hdisjoint := List.disjoint_of_nodup_append (h.nodup hall)
  rw [← h.mem_iff, List.mem_append]
  constructor
  · intro hx
    exact ⟨.inr hx, fun hfree => hdisjoint hfree hx⟩
  · rintro ⟨hfree | hx, hnot⟩
    · exact absurd hfree hnot
    · exact hx

theorem length (h : Partition free used all) : free.length + used.length = all.length := by
  rw [← List.length_append]
  exact h.length_eq

/-- Places are added, free. -/
theorem grow (h : Partition free used all) (more : List α) :
    Partition (free ++ more) used (all ++ more) := by
  have hswap : (free ++ more ++ used).Perm (free ++ used ++ more) := by
    rw [List.append_assoc, List.append_assoc]
    exact List.perm_append_comm.append_left free
  exact hswap.trans (h.append_right more)

/-- The first places of the free list are taken. -/
theorem take (h : Partition free used all) (n : Nat) :
    Partition (free.drop n) (used ++ free.take n) all := by
  have hswap : (free.drop n ++ (used ++ free.take n)).Perm (free ++ used) := by
    calc (free.drop n ++ (used ++ free.take n)).Perm (used ++ free.take n ++ free.drop n) :=
        List.perm_append_comm
      _ = used ++ free := by rw [List.append_assoc, List.take_append_drop]
      List.Perm _ (free ++ used) := List.perm_append_comm
  exact hswap.trans h

/-- Used places are given back. -/
theorem giveBack (h : Partition free used all) {back left : List α}
    (hused : used.Perm (back ++ left)) : Partition (free ++ back) left all := by
  have hswap : (free ++ back ++ left).Perm (free ++ used) := by
    rw [List.append_assoc]
    exact hused.symm.append_left free
  exact hswap.trans h

end Partition

end Verif
