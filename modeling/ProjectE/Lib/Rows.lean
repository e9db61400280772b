import Mathlib.Data.List.Nodup

/-!
# Tables of rows

A table holds rows, each under a key of its own. Rows are put in under keys not in use, taken out by
their keys, and rewritten, each by what is done for its key. Of a row that stays, a run of changes
makes what its rewrites make of it, in their order, and nothing else reaches it (`mem_runAll`); keys
stay distinct (`nodup_runAll`), so that is all the table holds under its key (`value_unique`).
-/

namespace Verif

/-- What is done to a table. -/
inductive RowChange (κ ν : Type*) where
  | put (rows : List (κ × ν))
  | drop (gone : κ → Bool)
  | rewrite (f : κ → ν → ν)

namespace RowChange

variable {κ ν : Type*}

/-- The rows after a change. Rows are put at the end, and a rewrite keeps every key. -/
def run (rows : List (κ × ν)) : RowChange κ ν → List (κ × ν)
  | .put new => rows ++ new
  | .drop gone => rows.filter fun row => !gone row.1
  | .rewrite f => rows.map fun row => (row.1, f row.1 row.2)

/-- Rows are put in under keys of their own. -/
def Fits (rows : List (κ × ν)) : RowChange κ ν → Prop
  | .put new => ((rows ++ new).map Prod.fst).Nodup
  | .drop _ | .rewrite _ => True

/-- What is done to the row under a key, if it stays. -/
def on (k : κ) : RowChange κ ν → ν → ν
  | .rewrite f => f k
  | .put _ | .drop _ => id

/-- The row under a key is not taken out. -/
def Spares (k : κ) : RowChange κ ν → Prop
  | .drop gone => gone k = false
  | .put _ | .rewrite _ => True

/-- Changes one after the other. -/
def runAll (rows : List (κ × ν)) (changes : List (RowChange κ ν)) : List (κ × ν) :=
  changes.foldl run rows

/-- Each of them fits the table it finds. -/
def AllFit (rows : List (κ × ν)) : List (RowChange κ ν) → Prop
  | [] => True
  | change :: changes => change.Fits rows ∧ AllFit (change.run rows) changes

variable {rows : List (κ × ν)} {change : RowChange κ ν} {changes : List (RowChange κ ν)}
  {k : κ} {v v' : ν}

theorem nodup_run (hkeys : (rows.map Prod.fst).Nodup) (hfits : change.Fits rows) :
    ((change.run rows).map Prod.fst).Nodup := by
  cases change with
  | put new => exact hfits
  | drop gone => exact hkeys.sublist (List.filter_sublist.map _)
  | rewrite f =>
    rw [run, List.map_map]
    exact hkeys

theorem fits_of_nodup (hkeys : ((change.run rows).map Prod.fst).Nodup) : change.Fits rows := by
  cases change with
  | put new => exact hkeys
  | drop gone => trivial
  | rewrite f => trivial

/-- Keys stay distinct. -/
theorem nodup_runAll (hkeys : (rows.map Prod.fst).Nodup) (hfit : AllFit rows changes) :
    ((runAll rows changes).map Prod.fst).Nodup := by
  induction changes generalizing rows with
  | nil => exact hkeys
  | cons change changes ih => exact ih (nodup_run hkeys hfit.1) hfit.2

theorem mem_run (hmem : (k, v) ∈ rows) (hspares : change.Spares k) :
    (k, change.on k v) ∈ change.run rows := by
  cases change with
  | put new => exact List.mem_append_left _ hmem
  | drop gone =>
    refine List.mem_filter.mpr ⟨hmem, ?_⟩
    rw [show gone k = false from hspares]
    rfl
  | rewrite f => exact List.mem_map_of_mem (f := fun row : κ × ν => (row.1, f row.1 row.2)) hmem

/-- A row that stays is rewritten, in order, and not touched otherwise. -/
theorem mem_runAll (hmem : (k, v) ∈ rows) (hspares : ∀ change ∈ changes, change.Spares k) :
    (k, changes.foldl (fun v change => change.on k v) v) ∈ runAll rows changes := by
  induction changes generalizing rows v with
  | nil => exact hmem
  | cons change changes ih =>
    obtain ⟨hfirst, hrest⟩ := List.forall_mem_cons.mp hspares
    exact ih (mem_run hmem hfirst) hrest

/-- There is one row under a key. -/
theorem value_unique (hkeys : (rows.map Prod.fst).Nodup) (h : (k, v) ∈ rows)
    (h' : (k, v') ∈ rows) : v = v' :=
  (Prod.mk.inj (List.inj_on_of_nodup_map hkeys h h' rfl)).2

theorem runAll_append (rows : List (κ × ν)) (changes : List (RowChange κ ν))
    (change : RowChange κ ν) : runAll rows (changes ++ [change]) =
      change.run (runAll rows changes) := by
  rw [runAll, List.foldl_append]
  rfl

theorem allFit_append (hfit : AllFit rows changes) (hlast : change.Fits (runAll rows changes)) :
    AllFit rows (changes ++ [change]) := by
  induction changes generalizing rows with
  | nil => exact ⟨hlast, trivial⟩
  | cons first changes ih => exact ⟨hfit.1, ih hfit.2 hlast⟩

end RowChange

end Verif
