import Mathlib.Data.List.Perm.Basic
import ProjectE.Lib.Grid

/-!
# Traces of loops and of threads

What a program does is a list of events. A loop that may fail has the events of its turns, one after
the other, if every turn can be made (`forEach`). Threads have the events of each, in the order of
each, mixed in any way (`Interleaving`): nothing is lost or doubled (`Interleaving.perm`), and what
can be told by its tag to be of one thread is found in the order of that thread
(`Interleaving.filter_eq`).
-/

namespace Verif

/-! ## Loops -/

section Loops

variable {α β E : Type*} {l : List α}

/-- A loop over a list. -/
def forEach (l : List α) (body : α → Option (List E)) : Option (List E) :=
  (l.mapM body).map List.flatten

theorem forEach_eq_some {body : α → Option (List E)} {g : α → List E}
    (h : ∀ a ∈ l, body a = some (g a)) : forEach l body = some (l.flatMap g) := by
  rw [forEach, Grid.mapM_eq_some_map h, Option.map_some, List.flatMap_def]

theorem forEach_map (l : List β) (f : β → α) (body : α → Option (List E)) :
    forEach (l.map f) body = forEach l (body ∘ f) := by
  rw [forEach, forEach, List.mapM_map]

theorem forEach_congr {body body' : α → Option (List E)} (h : ∀ a ∈ l, body a = body' a) :
    forEach l body = forEach l body' := by
  rw [forEach, forEach, Grid.mapM_congr h]

theorem isSome_mapM_iff {f : α → Option β} : (l.mapM f).isSome ↔ ∀ a ∈ l, (f a).isSome := by
  constructor
  · intro h a ha
    obtain ⟨l', hl'⟩ := Option.isSome_iff_exists.mp h
    exact Option.isSome_iff_exists.mpr (Grid.exists_of_mapM hl' ha)
  · intro h
    induction l with
    | nil => rfl
    | cons a l ih =>
      obtain ⟨hhead, htail⟩ := List.forall_mem_cons.mp h
      obtain ⟨b, hb⟩ := Option.isSome_iff_exists.mp hhead
      obtain ⟨bs, hbs⟩ := Option.isSome_iff_exists.mp (ih htail)
      rw [List.mapM_cons, hb, hbs]
      rfl

theorem isSome_forEach_iff {body : α → Option (List E)} :
    (forEach l body).isSome ↔ ∀ a ∈ l, (body a).isSome := by
  rw [forEach, Option.isSome_map, isSome_mapM_iff]

/-- What a loop does is done in one of its turns. -/
theorem exists_of_forEach {body : α → Option (List E)} {es : List E}
    (h : forEach l body = some es) {e : E} (he : e ∈ es) :
    ∃ a ∈ l, ∃ es', body a = some es' ∧ e ∈ es' := by
  have hturns : ∀ a ∈ l, body a = some ((body a).getD []) := by
    intro a ha
    have hsome := isSome_forEach_iff.mp (Option.isSome_of_eq_some h) a ha
    obtain ⟨es', hes'⟩ := Option.isSome_iff_exists.mp hsome
    rw [hes', Option.getD_some]
  rw [forEach_eq_some hturns, Option.some.injEq] at h
  subst h
  obtain ⟨a, ha, he⟩ := List.mem_flatMap.mp he
  exact ⟨a, ha, _, hturns a ha, he⟩

/-- Two loops, one in the other, can change places. -/
theorem flatMap_comm (l : List α) (m : List β) (f : α → β → List E) :
    (l.flatMap fun a => m.flatMap (f a)).Perm (m.flatMap fun b => l.flatMap fun a => f a b) := by
  induction l with
  | nil =>
    have hnil : (m.flatMap fun _ => ([] : List E)) = [] :=
      List.flatMap_eq_nil_iff.mpr fun _ _ => rfl
    simp only [List.flatMap_nil, hnil]
    exact .refl _
  | cons a l ih =>
    simp only [List.flatMap_cons]
    exact (ih.append_left _).trans
      (List.flatMap_append_perm m (f a) fun b => l.flatMap fun a => f a b)

/-- A loop over the chunks of two things, and over what two chunks have, goes over what the two
things have. -/
theorem flatMap_chunks_perm {κ μ : Type*} (ks : List κ) (ms : List μ) (f : κ → List α)
    (g : μ → List β) (body : α → β → List E) :
    (ks.flatMap fun k => ms.flatMap fun m => (f k).flatMap fun a => (g m).flatMap (body a)).Perm
      ((ks.flatMap f).flatMap fun a => (ms.flatMap g).flatMap (body a)) := by
  rw [List.flatMap_assoc]
  refine List.Perm.flatMap_left ks fun k _ => ?_
  have hinner : ∀ a, (ms.flatMap g).flatMap (body a) = ms.flatMap fun m => (g m).flatMap (body a) :=
    fun a => List.flatMap_assoc
  simp only [hinner]
  exact flatMap_comm ms (f k) fun m a => (g m).flatMap (body a)

/-- A loop that does one thing in some of its turns. -/
theorem flatMap_if (l : List α) (p : α → Bool) (f : α → E) :
    (l.flatMap fun a => if p a then [f a] else []) = (l.filter p).map f := by
  induction l with
  | nil => rfl
  | cons a l ih =>
    rw [List.flatMap_cons, List.filter_cons, ih]
    split
    · rfl
    · rfl

/-- A loop that ends early leaves out the numbers from there on. -/
theorem flatMap_range_le {i n : Nat} (h : i < n) (f : Nat → List E) :
    ((List.range (i + 1)).flatMap f) =
      (List.range n).flatMap fun j => if j ≤ i then f j else [] := by
  obtain ⟨k, rfl⟩ := Nat.exists_eq_add_of_le h
  have hsplit : List.range (i + 1 + k) = List.range (i + 1) ++ (List.range k).map (i + 1 + ·) :=
    List.range_add
  have hfront : ((List.range (i + 1)).flatMap fun j => if j ≤ i then f j else []) =
      (List.range (i + 1)).flatMap f :=
    List.flatMap_congr fun j hj => if_pos (Nat.lt_succ_iff.mp (List.mem_range.mp hj))
  have hback : (((List.range k).map (i + 1 + ·)).flatMap fun j => if j ≤ i then f j else []) =
      [] := by
    rw [List.flatMap_map]
    exact List.flatMap_eq_nil_iff.mpr fun j _ => if_neg (by omega)
  rw [Nat.succ_eq_add_one, hsplit, List.flatMap_append, hfront, hback, List.append_nil]

end Loops

/-! ## Threads -/

section Threads

variable {α ι : Type*}

/-- The events of threads that run at once: the next one is the next of any thread. -/
inductive Interleaving : List (List α) → List α → Prop where
  | done {threads : List (List α)} (h : ∀ l ∈ threads, l = []) : Interleaving threads []
  | next {threads : List (List α)} {i : Nat} {a : α} {rest trace : List α}
      (h : threads[i]? = some (a :: rest)) (ht : Interleaving (threads.set i rest) trace) :
      Interleaving threads (a :: trace)

variable {threads : List (List α)} {trace : List α}

/-- The thread that makes the next event. -/
theorem eq_append_of_getElem? {i : Nat} {l l' : List α} (h : threads[i]? = some l) :
    threads = threads.take i ++ l :: threads.drop (i + 1) ∧
      threads.set i l' = threads.take i ++ l' :: threads.drop (i + 1) := by
  obtain ⟨hlt, rfl⟩ := List.getElem?_eq_some_iff.mp h
  constructor
  · rw [← List.drop_eq_getElem_cons hlt, List.take_append_drop]
  · exact List.set_eq_take_append_cons_drop.trans (if_pos hlt)

/-- Nothing is lost or doubled. -/
theorem Interleaving.perm (h : Interleaving threads trace) : trace.Perm threads.flatten := by
  induction h with
  | done h => rw [List.flatten_eq_nil_iff.mpr h]
  | @next threads i a rest trace hi _ ih =>
    obtain ⟨hthreads, hset⟩ := @eq_append_of_getElem? _ threads i (a :: rest) rest hi
    rw [hset, List.flatten_append, List.flatten_cons] at ih
    rw [hthreads, List.flatten_append, List.flatten_cons, List.cons_append]
    exact (ih.cons a).trans List.perm_middle.symm

/-- A thread that has nothing to do. -/
theorem Interleaving.cons_nil (h : Interleaving threads trace) :
    Interleaving ([] :: threads) trace := by
  induction h with
  | done h => exact .done (List.forall_mem_cons.mpr ⟨rfl, h⟩)
  | @next threads i a rest trace hi _ ih => exact .next (i := i + 1) hi ih

theorem Interleaving.cons_append (h : Interleaving threads trace) (l : List α) :
    Interleaving (l :: threads) (l ++ trace) := by
  induction l with
  | nil => exact h.cons_nil
  | cons a l ih => exact .next (i := 0) rfl ih

/-- One thread after the other is one way to run them. -/
theorem Interleaving.flatten (threads : List (List α)) : Interleaving threads threads.flatten := by
  induction threads with
  | nil => exact .done fun l hl => absurd hl List.not_mem_nil
  | cons l threads ih =>
    rw [List.flatten_cons]
    exact ih.cons_append l

/-- The events that only one thread makes are in the order of that thread. -/
theorem Interleaving.filter_eq (h : Interleaving threads trace) {p : α → Bool} {i : Nat}
    {l : List α} (hi : threads[i]? = some l) (hown : ∀ a ∈ l, p a = true)
    (hothers : ∀ (j : Nat) (l' : List α), threads[j]? = some l' → j ≠ i → ∀ a ∈ l', p a = false) :
    trace.filter p = l := by
  induction h generalizing l with
  | done h => rw [h l (List.mem_of_getElem? hi), List.filter_nil]
  | @next threads j a rest trace hj _ ih =>
    have hlt := (List.getElem?_eq_some_iff.mp hj).1
    by_cases hji : j = i
    · subst hji
      cases hj.symm.trans hi
      rw [List.filter_cons_of_pos (hown a List.mem_cons_self)]
      congr 1
      refine ih (List.getElem?_set_self hlt) (fun b hb => hown b (List.mem_cons_of_mem a hb)) ?_
      intro k l' hk hne
      rw [List.getElem?_set_ne (Ne.symm hne)] at hk
      exact hothers k l' hk hne
    · rw [List.filter_cons_of_neg (by
        rw [hothers j _ hj hji a List.mem_cons_self]
        exact Bool.false_ne_true)]
      refine ih ?_ hown ?_
      · rw [List.getElem?_set_ne hji]
        exact hi
      · intro k l' hk hne b hb
        by_cases hkj : k = j
        · subst hkj
          rw [List.getElem?_set_self hlt] at hk
          cases hk
          exact hothers k _ hj hne b (List.mem_cons_of_mem a hb)
        · rw [List.getElem?_set_ne (Ne.symm hkj)] at hk
          exact hothers k l' hk hne b hb

end Threads

end Verif
