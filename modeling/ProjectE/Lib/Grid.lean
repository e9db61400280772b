import Mathlib.Data.List.Forall2
import Mathlib.Data.List.Induction
import Mathlib.Data.List.Nodup

/-!
# Rows of cells

A grid is a list of rows, read and written by row and column. Its layout, the lengths of its rows,
tells which positions it has (`mem_cells`, `isSome_read_iff`); writing changes neither the layout
nor any other cell, and a row added at the end changes no cell that was there. `writeEach` writes a
list of cells, one after the other: written once each, they all read what was written
(`read_writeEach`).
-/

namespace Verif

/-- Rows of cells; rows may differ in length. -/
abbrev Grid (V : Type*) := List (List V)

namespace Grid

variable {V : Type*} {g g' : Grid V} {p q : Nat × Nat} {v : V}

/-- The lengths of the rows. -/
def layout (g : Grid V) : List Nat := g.map List.length

/-- The positions of a layout, row by row. -/
def cells (layout : List Nat) : List (Nat × Nat) :=
  layout.zipIdx.flatMap fun row => (List.range row.1).map fun column => (row.2, column)

/-- The value at a position, if there is a cell. -/
def read (g : Grid V) (p : Nat × Nat) : Option V := g[p.1]?.bind (·[p.2]?)

/-- `none`: there is no such cell. -/
def write (g : Grid V) (p : Nat × Nat) (v : V) : Option (Grid V) :=
  if (read g p).isSome then some (g.modify p.1 (·.set p.2 v)) else none

/-- Values written one after the other, the last one at a position winning. It fails at the first
position without a cell. -/
def writeEach (g : Grid V) : List ((Nat × Nat) × V) → Option (Grid V)
  | [] => some g
  | (p, v) :: rest => (write g p v).bind fun g => writeEach g rest

/-! ## Positions -/

/-- A position is a cell if its row is there and long enough. -/
theorem mem_cells {layout : List Nat} :
    p ∈ cells layout ↔ ∃ size, layout[p.1]? = some size ∧ p.2 < size := by
  obtain ⟨row, column⟩ := p
  simp only [cells, List.mem_flatMap, List.mem_map, List.mem_range, Prod.mk.injEq]
  constructor
  · rintro ⟨⟨size, row'⟩, hmem, column', hlt, rfl, rfl⟩
    exact ⟨size, List.mem_zipIdx_iff_getElem?.mp hmem, hlt⟩
  · rintro ⟨size, hsize, hlt⟩
    exact ⟨(size, row), List.mem_zipIdx_iff_getElem?.mpr hsize, column, hlt, rfl, rfl⟩

/-- The cells of a new last row come after all others. -/
theorem cells_append_row (layout : List Nat) (size : Nat) : cells (layout ++ [size]) =
    cells layout ++ (List.range size).map fun column => (layout.length, column) := by
  simp only [cells, List.zipIdx_append, List.flatMap_append, List.zipIdx_cons, List.zipIdx_nil,
    List.flatMap_cons, List.flatMap_nil, List.append_nil, Nat.zero_add]

/-- Every cell is listed once. -/
theorem nodup_cells (layout : List Nat) : (cells layout).Nodup := by
  induction layout using List.reverseRec with
  | nil => exact List.nodup_nil
  | append_singleton layout size ih =>
    rw [cells_append_row]
    refine ih.append (List.nodup_range.map fun a b h => (Prod.mk.inj h).2) ?_
    intro p hp hrow
    obtain ⟨size', hsize', _⟩ := mem_cells.mp hp
    obtain ⟨column, _, rfl⟩ := List.mem_map.mp hrow
    rw [List.getElem?_eq_none (Nat.le_refl _)] at hsize'
    cases hsize'

/-- What can be read are the cells. -/
theorem isSome_read_iff : (read g p).isSome ↔ p ∈ cells (layout g) := by
  simp only [mem_cells, layout, List.getElem?_map, read]
  cases g[p.1]? with
  | none => simp
  | some row => simp

/-! ## Writing -/

/-- What a write that succeeds has done. -/
theorem write_eq_some (h : write g p v = some g') :
    p ∈ cells (layout g) ∧ g' = g.modify p.1 (·.set p.2 v) := by
  unfold write at h
  split at h
  · next hsome =>
    cases h
    exact ⟨isSome_read_iff.mp hsome, rfl⟩
  · cases h

/-- A write moves no row. -/
theorem layout_write (h : write g p v = some g') : layout g' = layout g := by
  obtain ⟨_, rfl⟩ := write_eq_some h
  apply List.ext_getElem?
  intro row
  simp only [layout, List.getElem?_map, List.getElem?_modify]
  cases g[row]? with
  | none => rfl
  | some r =>
    by_cases hrow : p.1 = row
    · simp [hrow]
    · simp [hrow]

/-- The value that was written is read back. -/
theorem read_write (h : write g p v = some g') : read g' p = some v := by
  obtain ⟨hmem, rfl⟩ := write_eq_some h
  have hsome := isSome_read_iff.mpr hmem
  simp only [read, List.getElem?_modify] at hsome ⊢
  cases hrow : g[p.1]? with
  | none => simp [hrow] at hsome
  | some row =>
    have hlt : p.2 < row.length := by simpa [hrow] using hsome
    simp [hlt]

/-- Other cells keep their values. -/
theorem read_write_ne (h : write g p v = some g') (hne : q ≠ p) : read g' q = read g q := by
  obtain ⟨_, rfl⟩ := write_eq_some h
  simp only [read, List.getElem?_modify]
  by_cases hrow : p.1 = q.1
  · have hcolumn : p.2 ≠ q.2 := by
      intro heq
      exact hne (Prod.ext hrow heq).symm
    cases g[q.1]? with
    | none => rfl
    | some row => simp [hrow, List.getElem?_set_ne hcolumn]
  · simp [hrow]

/-- Every cell can be written. -/
theorem isSome_write (h : p ∈ cells (layout g)) (v : V) : (write g p v).isSome := by
  rw [write, if_pos (isSome_read_iff.mpr h)]
  rfl

/-! ## Writing many -/

/-- Writes in a row move no row. -/
theorem layout_writeEach {l : List ((Nat × Nat) × V)} (h : writeEach g l = some g') :
    layout g' = layout g := by
  induction l generalizing g with
  | nil =>
    cases h
    rfl
  | cons e l ih =>
    obtain ⟨g₁, hwrite, hrest⟩ := Option.bind_eq_some_iff.mp h
    rw [ih hrest, layout_write hwrite]

/-- Writes to cells succeed. -/
theorem isSome_writeEach {l : List ((Nat × Nat) × V)} (h : ∀ e ∈ l, e.1 ∈ cells (layout g)) :
    (writeEach g l).isSome := by
  induction l generalizing g with
  | nil => rfl
  | cons e l ih =>
    obtain ⟨g₁, hwrite⟩ := Option.isSome_iff_exists.mp (isSome_write (h e List.mem_cons_self) e.2)
    rw [writeEach, hwrite]
    apply ih
    intro e' he'
    rw [layout_write hwrite]
    exact h e' (List.mem_cons_of_mem _ he')

/-- Only cells there are can be written. -/
theorem mem_cells_of_writeEach {l : List ((Nat × Nat) × V)} (h : writeEach g l = some g') :
    ∀ e ∈ l, e.1 ∈ cells (layout g) := by
  induction l generalizing g with
  | nil =>
    intro e he
    cases he
  | cons e l ih =>
    obtain ⟨g₁, hwrite, hrest⟩ := Option.bind_eq_some_iff.mp h
    intro e' he'
    rcases List.mem_cons.mp he' with rfl | he'
    · exact (write_eq_some hwrite).1
    · rw [← layout_write hwrite]
      exact ih hrest e' he'

/-- The cells not written keep what they hold. -/
theorem read_writeEach_of_notMem {l : List ((Nat × Nat) × V)} (h : writeEach g l = some g')
    (hp : p ∉ l.map Prod.fst) : read g' p = read g p := by
  induction l generalizing g with
  | nil =>
    cases h
    rfl
  | cons e l ih =>
    obtain ⟨g₁, hwrite, hrest⟩ := Option.bind_eq_some_iff.mp h
    rw [List.map_cons, List.mem_cons, not_or] at hp
    rw [ih hrest hp.2, read_write_ne hwrite hp.1]

/-- Among writes to different positions each one is read back. -/
theorem read_writeEach {l : List ((Nat × Nat) × V)} (h : writeEach g l = some g')
    (hnodup : (l.map Prod.fst).Nodup) (hmem : (p, v) ∈ l) : read g' p = some v := by
  induction l generalizing g with
  | nil => cases hmem
  | cons e l ih =>
    obtain ⟨g₁, hwrite, hrest⟩ := Option.bind_eq_some_iff.mp h
    rw [List.map_cons, List.nodup_cons] at hnodup
    rcases List.mem_cons.mp hmem with rfl | hmem
    · rw [read_writeEach_of_notMem hrest hnodup.1, read_write hwrite]
    · exact ih hrest hnodup.2 hmem

/-- A cell written with one value only, however often, reads it. -/
theorem read_writeEach_of_forall {l : List ((Nat × Nat) × V)} (h : writeEach g l = some g')
    (hv : ∀ e ∈ l, e.1 = p → e.2 = v) (hp : p ∈ l.map Prod.fst) : read g' p = some v := by
  induction l generalizing g with
  | nil => cases hp
  | cons e l ih =>
    obtain ⟨g₁, hwrite, hrest⟩ := Option.bind_eq_some_iff.mp h
    obtain ⟨hhead, htail⟩ := List.forall_mem_cons.mp hv
    by_cases hmem : p ∈ l.map Prod.fst
    · exact ih hrest htail hmem
    · rw [read_writeEach_of_notMem hrest hmem]
      have heq : p = e.1 := (List.mem_cons.mp hp).resolve_right hmem
      rw [heq, read_write hwrite, hhead heq.symm]

/-- Writes in two batches are the writes of both in order. -/
theorem writeEach_append (l l' : List ((Nat × Nat) × V)) (g : Grid V) :
    writeEach g (l ++ l') = (writeEach g l).bind fun g => writeEach g l' := by
  induction l generalizing g with
  | nil => rfl
  | cons e l ih =>
    simp only [List.cons_append, writeEach, ih, Option.bind_assoc]

theorem writeEach_singleton (g : Grid V) (p : Nat × Nat) (v : V) :
    writeEach g [(p, v)] = write g p v := by
  simp only [writeEach, Option.bind_fun_some]

/-! ## Reading many -/

/-- Where every element answers, they all do. -/
theorem mapM_eq_some_map {α β : Type*} {f : α → Option β} {g : α → β} {l : List α}
    (h : ∀ a ∈ l, f a = some (g a)) : l.mapM f = some (l.map g) := by
  induction l with
  | nil => rfl
  | cons a l ih =>
    rw [List.mapM_cons, h a List.mem_cons_self, ih fun b hb => h b (List.mem_cons_of_mem _ hb)]
    rfl

/-- Two functions that agree on a list fail on it together, and otherwise give the same. -/
theorem mapM_congr {α β : Type*} {f g : α → Option β} {l : List α} (h : ∀ a ∈ l, f a = g a) :
    l.mapM f = l.mapM g := by
  induction l with
  | nil => rfl
  | cons a l ih =>
    rw [List.mapM_cons, List.mapM_cons, h a List.mem_cons_self,
      ih fun b hb => h b (List.mem_cons_of_mem _ hb)]

/-- Where they all answer, the answers are those of the elements, in order. -/
theorem forall₂_of_mapM {α β : Type*} {f : α → Option β} {l : List α} {l' : List β}
    (h : l.mapM f = some l') : List.Forall₂ (fun a b => f a = some b) l l' := by
  induction l generalizing l' with
  | nil =>
    cases h
    exact .nil
  | cons a l ih =>
    rw [List.mapM_cons] at h
    obtain ⟨b, hb, h⟩ := Option.bind_eq_some_iff.mp h
    obtain ⟨bs, hbs, h⟩ := Option.bind_eq_some_iff.mp h
    cases h
    exact .cons hb (ih hbs)

/-- A list of results, one for each element, is what `mapM` gives. -/
theorem mapM_of_forall₂ {α β : Type*} {f : α → Option β} {l : List α} {l' : List β}
    (h : List.Forall₂ (fun a b => f a = some b) l l') : l.mapM f = some l' := by
  induction h with
  | nil => rfl
  | cons hb _ ih =>
    rw [List.mapM_cons, hb, ih]
    rfl

/-- Where `mapM` gives a result the function has one for each element. -/
theorem exists_of_mapM {α β : Type*} {f : α → Option β} {l : List α} {l' : List β} {a : α}
    (h : l.mapM f = some l') (ha : a ∈ l) : ∃ b, f a = some b := by
  have hpairs := forall₂_of_mapM h
  clear h
  induction hpairs with
  | nil => cases ha
  | cons hb _ ih =>
    rcases List.mem_cons.mp ha with rfl | ha
    · exact ⟨_, hb⟩
    · exact ih ha

/-! ## Rows -/

/-- A new row is last in the layout. -/
theorem layout_append_row (g : Grid V) (row : List V) :
    layout (g ++ [row]) = layout g ++ [row.length] := by
  simp only [layout, List.map_append, List.map_cons, List.map_nil]

/-- A row more changes no cell that was there. -/
theorem read_append_row (h : read g p = some v) (row : List V) :
    read (g ++ [row]) p = some v := by
  obtain ⟨r, hr, hv⟩ := Option.bind_eq_some_iff.mp h
  have hlt : p.1 < g.length := (List.getElem?_eq_some_iff.mp hr).1
  rw [read, List.getElem?_append_left hlt, hr]
  exact hv

/-- A new row holds what it was made with. -/
theorem read_new_row (g : Grid V) (v : V) {size column : Nat} (h : column < size) :
    read (g ++ [List.replicate size v]) (g.length, column) = some v := by
  simp only [read, List.getElem?_concat_length, Option.bind_some]
  rw [List.getElem?_replicate, if_pos h]

/-- Writing does not mind a row more. -/
theorem write_append_row (h : write g p v = some g') (row : List V) :
    write (g ++ [row]) p v = some (g' ++ [row]) := by
  obtain ⟨hmem, rfl⟩ := write_eq_some h
  obtain ⟨size, hsize, -⟩ := mem_cells.mp hmem
  have hlt : p.1 < g.length := by
    have hlayout := (List.getElem?_eq_some_iff.mp hsize).1
    rwa [layout, List.length_map] at hlayout
  obtain ⟨w, hw⟩ := Option.isSome_iff_exists.mp (isSome_read_iff.mpr hmem)
  rw [write, read_append_row hw, Option.isSome_some, if_pos rfl, Option.some.injEq]
  apply List.ext_getElem?
  intro i
  rw [List.getElem?_modify]
  by_cases hi : i < g.length
  · have hi' : i < (g.modify p.1 (·.set p.2 v)).length := by rwa [List.length_modify]
    rw [List.getElem?_append_left hi, List.getElem?_append_left hi', List.getElem?_modify]
  · have hne : p.1 ≠ i := by omega
    have hsame : (fun r : List V => if p.1 = i then r.set p.2 v else r) = id := by
      funext r
      exact if_neg hne
    rw [hsame, List.getElem?_append_right (by omega), List.getElem?_append_right (by
      rw [List.length_modify]; omega), List.length_modify]
    exact congrFun Option.map_id _

/-- Writes to the rows before are the same with a new row behind them. -/
theorem writeEach_append_row {l : List ((Nat × Nat) × V)} (h : writeEach g l = some g')
    (row : List V) : writeEach (g ++ [row]) l = some (g' ++ [row]) := by
  induction l generalizing g with
  | nil =>
    cases h
    rfl
  | cons e l ih =>
    obtain ⟨g₁, hwrite, hrest⟩ := Option.bind_eq_some_iff.mp h
    rw [writeEach, write_append_row hwrite]
    exact ih hrest

/-- The positions there were are still there once rows are added. -/
theorem mem_cells_of_prefix {layout layout' : List Nat} (h : layout <+: layout')
    (hp : p ∈ cells layout) : p ∈ cells layout' := by
  obtain ⟨more, rfl⟩ := h
  obtain ⟨size, hsize, hlt⟩ := mem_cells.mp hp
  refine mem_cells.mpr ⟨size, ?_, hlt⟩
  rw [List.getElem?_append_left (List.getElem?_eq_some_iff.mp hsize).1]
  exact hsize

end Grid

end Verif
