import Mathlib.Data.List.TakeWhile
import Mathlib.Data.Set.Insert
import Mathlib.Order.BooleanAlgebra.Set

/-!
# Ordered maps over a comparator

A map kept as the list of its entries in the order of a user-supplied comparator `lt`, with the
search such maps make: descend to the first key that is not below the wanted one, and answer it
unless the wanted key is below it (`lowerBound`, `find`). Nothing is assumed of the comparator by
the operations. The laws ask for irreflexivity and transitivity only, so they also hold where
incomparable keys need not be equal: there the search answers the first entry incomparable with the
key. Trichotomy, where it holds, makes that entry the key's own (`find_key`).
-/

namespace Verif

/-- The entries of an ordered map, in the comparator's order. -/
abbrev OrdMap (κ ν : Type*) := List (κ × ν)

namespace OrdMap

variable {κ ν : Type*} (lt : κ → κ → Bool)

/-- The entries whose key is below `k`. -/
def below (m : OrdMap κ ν) (k : κ) : OrdMap κ ν := m.takeWhile fun e => lt e.1 k

/-- The entries from the first key that is not below `k`. -/
def lowerBound (m : OrdMap κ ν) (k : κ) : OrdMap κ ν := m.dropWhile fun e => lt e.1 k

/-- The entry the search for `k` ends at, if it is not above `k`. -/
def find (m : OrdMap κ ν) (k : κ) : Option (κ × ν) :=
  match lowerBound lt m k with
  | [] => none
  | e :: _ => if lt k e.1 then none else some e

/-- Insertion at the key's place; an entry already found for the key is kept. -/
def insert (m : OrdMap κ ν) (k : κ) (v : ν) : OrdMap κ ν :=
  match find lt m k with
  | some _ => m
  | none => below lt m k ++ (k, v) :: lowerBound lt m k

/-- The map with the value found for `k` changed in place. -/
def modify (m : OrdMap κ ν) (k : κ) (f : ν → ν) : OrdMap κ ν :=
  match lowerBound lt m k with
  | [] => m
  | e :: rest => if lt k e.1 then m else below lt m k ++ (e.1, f e.2) :: rest

/-- The map without the entry found for `k`. -/
def erase (m : OrdMap κ ν) (k : κ) : OrdMap κ ν :=
  match lowerBound lt m k with
  | [] => m
  | e :: rest => if lt k e.1 then m else below lt m k ++ rest

/-- The entries stand in strictly ascending order. -/
def Sorted (m : OrdMap κ ν) : Prop := m.Pairwise fun a b => lt a.1 b.1 = true

variable {lt} {m : OrdMap κ ν} {k : κ} {v : ν} {e : κ × ν}

theorem below_append_lowerBound (lt : κ → κ → Bool) (m : OrdMap κ ν) (k : κ) :
    below lt m k ++ lowerBound lt m k = m := List.takeWhile_append_dropWhile

theorem lt_of_mem_below (h : e ∈ below lt m k) : lt e.1 k = true :=
  List.mem_takeWhile_imp (p := fun e : κ × ν => lt e.1 k) h

theorem mem_iff_below_or (lt : κ → κ → Bool) (m : OrdMap κ ν) (k : κ) :
    e ∈ m ↔ e ∈ below lt m k ∨ e ∈ lowerBound lt m k := by
  rw [← List.mem_append, below_append_lowerBound]

/-- What the search ends at: the entry it stops before, and what stands on both sides of it. -/
theorem find_eq_some_iff : find lt m k = some e ↔
    ∃ rest, lowerBound lt m k = e :: rest ∧ lt k e.1 = false := by
  unfold find
  split
  · next h => simp [h]
  · next e' rest h =>
    rw [h]
    cases hlt : lt k e'.1 with
    | true =>
      simp only [if_true, reduceCtorEq, List.cons.injEq, false_iff, not_exists]
      rintro _ ⟨⟨rfl, _⟩, hf⟩
      rw [hlt] at hf
      cases hf
    | false =>
      simp only [Bool.false_eq_true, if_false, Option.some.injEq, List.cons.injEq]
      constructor
      · rintro rfl
        exact ⟨rest, ⟨rfl, rfl⟩, hlt⟩
      · rintro ⟨_, ⟨he, _⟩, _⟩
        exact he

theorem head_lowerBound {rest : OrdMap κ ν} (h : lowerBound lt m k = e :: rest) :
    lt e.1 k = false := by
  unfold lowerBound at h
  have hne : m.dropWhile (fun e => lt e.1 k) ≠ [] := by
    rw [h]
    exact List.cons_ne_nil _ _
  have hhead := List.head_dropWhile_not (fun e : κ × ν => lt e.1 k) hne
  simp only [h, List.head_cons] at hhead
  exact hhead

/-- A found entry is in the map, and neither key is below the other. -/
theorem find_some (h : find lt m k = some e) :
    e ∈ m ∧ lt e.1 k = false ∧ lt k e.1 = false := by
  obtain ⟨rest, hl, hk⟩ := find_eq_some_iff.mp h
  refine ⟨?_, head_lowerBound hl, hk⟩
  rw [← below_append_lowerBound lt m k, hl]
  exact List.mem_append_right _ List.mem_cons_self

theorem mem_insert_of_none (h : find lt m k = none) :
    e ∈ insert lt m k v ↔ e = (k, v) ∨ e ∈ m := by
  rw [mem_iff_below_or lt m k]
  simp only [insert, h, List.mem_append, List.mem_cons]
  constructor
  · rintro (hb | rfl | hl)
    · exact .inr (.inl hb)
    · exact .inl rfl
    · exact .inr (.inr hl)
  · rintro (rfl | hb | hl)
    · exact .inr (.inl rfl)
    · exact .inl hb
    · exact .inr (.inr hl)

theorem insert_of_some (h : find lt m k = some e) : insert lt m k v = m := by
  simp only [insert, h]

/-- Erasing takes the found entry out and nothing else. -/
theorem erase_of_some (h : find lt m k = some e) :
    ∃ pre post, m = pre ++ e :: post ∧ erase lt m k = pre ++ post := by
  obtain ⟨rest, hl, hk⟩ := find_eq_some_iff.mp h
  refine ⟨below lt m k, rest, ?_, ?_⟩
  · rw [← hl, below_append_lowerBound]
  · simp only [erase, hl, hk, Bool.false_eq_true, if_false]

theorem erase_of_none (h : find lt m k = none) : erase lt m k = m := by
  unfold erase
  unfold find at h
  cases hl : lowerBound lt m k with
  | nil => rfl
  | cons e rest =>
    rw [hl] at h
    cases hlt : lt k e.1 with
    | true => simp only [hlt, if_true]
    | false => simp only [hlt, Bool.false_eq_true, if_false, reduceCtorEq] at h

/-- An in-place change rewrites the found entry and nothing else. -/
theorem modify_of_some {f : ν → ν} (h : find lt m k = some e) :
    ∃ pre post, m = pre ++ e :: post ∧ modify lt m k f = pre ++ (e.1, f e.2) :: post := by
  obtain ⟨rest, hl, hk⟩ := find_eq_some_iff.mp h
  refine ⟨below lt m k, rest, ?_, ?_⟩
  · rw [← hl, below_append_lowerBound]
  · simp only [modify, hl, hk, Bool.false_eq_true, if_false]

/-- The entries of a changed map. -/
theorem mem_modify {f : ν → ν} {d : κ × ν} (h : find lt m k = some e) :
    (e.1, f e.2) ∈ modify lt m k f ∧ (d ∈ m → d ≠ e → d ∈ modify lt m k f) := by
  obtain ⟨pre, post, hm, hmod⟩ := modify_of_some (f := f) h
  rw [hmod, hm]
  refine ⟨List.mem_append_right _ List.mem_cons_self, ?_⟩
  intro hd hne
  rcases List.mem_append.mp hd with hd | hd
  · exact List.mem_append_left _ hd
  · rcases List.mem_cons.mp hd with hd | hd
    · exact absurd hd hne
    · exact List.mem_append_right _ (List.mem_cons_of_mem _ hd)

/-- Insertion keeps every entry. -/
theorem mem_insert_of_mem (h : e ∈ m) : e ∈ insert lt m k v := by
  cases hf : find lt m k with
  | none => exact (mem_insert_of_none hf).mpr (.inr h)
  | some d => rwa [insert_of_some hf]

/-- The changed entry is found where the old one was. -/
theorem find_modify {f : ν → ν} (h : find lt m k = some e) :
    find lt (modify lt m k f) k = some (e.1, f e.2) := by
  obtain ⟨rest, hl, hk⟩ := find_eq_some_iff.mp h
  have hmod : modify lt m k f = below lt m k ++ (e.1, f e.2) :: rest := by
    simp only [modify, hl, hk, Bool.false_eq_true, if_false]
  refine find_eq_some_iff.mpr ⟨rest, ?_, hk⟩
  rw [hmod, lowerBound, List.dropWhile_append_of_pos fun e he => lt_of_mem_below he,
    List.dropWhile_cons_of_neg]
  rw [head_lowerBound hl]
  exact Bool.false_ne_true

theorem mem_of_mem_erase (h : e ∈ erase lt m k) : e ∈ m := by
  cases hf : find lt m k with
  | none => rwa [erase_of_none hf] at h
  | some d =>
    obtain ⟨pre, post, hm, he⟩ := erase_of_some hf
    rw [he] at h
    rw [hm]
    rcases List.mem_append.mp h with h | h
    · exact List.mem_append_left _ h
    · exact List.mem_append_right _ (List.mem_cons_of_mem _ h)

theorem Sorted.erase (hs : Sorted lt m) (k : κ) : Sorted lt (erase lt m k) := by
  cases hf : find lt m k with
  | none => rwa [erase_of_none hf]
  | some d =>
    obtain ⟨pre, post, hm, he⟩ := erase_of_some hf
    rw [he]
    rw [hm] at hs
    exact List.Pairwise.sublist (List.Sublist.append_left (List.sublist_cons_self _ _) pre) hs

theorem Sorted.modify (hs : Sorted lt m) (k : κ) (f : ν → ν) : Sorted lt (modify lt m k f) := by
  unfold OrdMap.modify
  split
  · exact hs
  · next e rest hl =>
    split
    · exact hs
    · rw [← below_append_lowerBound lt m k, hl] at hs
      simp only [Sorted, List.pairwise_append, List.pairwise_cons, List.mem_cons,
        forall_eq_or_imp] at hs ⊢
      exact hs

section Laws

variable (irrefl : ∀ a, lt a a = false)
include irrefl

/-- In a sorted map every entry is found under its own key. -/
theorem find_of_mem (hs : Sorted lt m) (h : (k, v) ∈ m) : find lt m k = some (k, v) := by
  obtain ⟨pre, post, rfl⟩ := List.append_of_mem h
  have hpre : ∀ e ∈ pre, lt e.1 k = true := by
    intro e he
    exact (List.pairwise_append.mp hs).2.2 e he _ List.mem_cons_self
  refine find_eq_some_iff.mpr ⟨post, ?_, irrefl k⟩
  rw [lowerBound, List.dropWhile_append_of_pos hpre, List.dropWhile_cons_of_neg]
  rw [irrefl k]
  exact Bool.false_ne_true

theorem value_unique {w : ν} (hs : Sorted lt m) (hv : (k, v) ∈ m) (hw : (k, w) ∈ m) : v = w := by
  have h := (find_of_mem irrefl hs hv).symm.trans (find_of_mem irrefl hs hw)
  simpa only [Option.some.injEq, Prod.mk.injEq, true_and] using h

/-- Erasing removes the found entry: it does not stand elsewhere in a sorted map. -/
theorem mem_erase_iff {d : κ × ν} (hs : Sorted lt m) (hf : find lt m k = some d) :
    e ∈ erase lt m k ↔ e ∈ m ∧ e ≠ d := by
  obtain ⟨pre, post, hm, he⟩ := erase_of_some hf
  rw [he]
  subst hm
  have hnot : d ∉ pre ++ post := by
    intro hd
    rcases List.mem_append.mp hd with hd | hd
    · have := (List.pairwise_append.mp hs).2.2 d hd d List.mem_cons_self
      rw [irrefl] at this
      cases this
    · have := (List.pairwise_cons.mp (List.pairwise_append.mp hs).2.1).1 d hd
      rw [irrefl] at this
      cases this
  constructor
  · intro hmem
    refine ⟨?_, fun heq => hnot (heq ▸ hmem)⟩
    rcases List.mem_append.mp hmem with h | h
    · exact List.mem_append_left _ h
    · exact List.mem_append_right _ (List.mem_cons_of_mem _ h)
  · rintro ⟨hmem, hne⟩
    rcases List.mem_append.mp hmem with h | h
    · exact List.mem_append_left _ h
    · rcases List.mem_cons.mp h with h | h
      · exact absurd h hne
      · exact List.mem_append_right _ h

omit irrefl in
/-- Insertion of a key the search does not find keeps the order. -/
theorem Sorted.insert_of_find_none (trans : ∀ a b c, lt a b = true → lt b c = true → lt a c = true)
    (hs : Sorted lt m) (hf : find lt m k = none) (v : ν) : Sorted lt (insert lt m k v) := by
  have hsplit := hs
  rw [← below_append_lowerBound lt m k] at hsplit
  obtain ⟨hb, hl, hbl⟩ := List.pairwise_append.mp hsplit
  have hk : ∀ e ∈ lowerBound lt m k, lt k e.1 = true := by
    intro e he
    unfold find at hf
    split at hf
    · next hnil => rw [hnil] at he; cases he
    · next d rest hcons =>
      rw [hcons] at he hl
      have hd : lt k d.1 = true := by
        cases hlt : lt k d.1 with
        | true => rfl
        | false => rw [hlt] at hf; cases hf
      rcases List.mem_cons.mp he with rfl | he
      · exact hd
      · exact trans _ _ _ hd ((List.pairwise_cons.mp hl).1 e he)
  simp only [OrdMap.insert, hf]
  refine List.pairwise_append.mpr ⟨hb, List.pairwise_cons.mpr ⟨hk, hl⟩, ?_⟩
  intro a ha b hbmem
  rcases List.mem_cons.mp hbmem with rfl | hbmem
  · exact lt_of_mem_below ha
  · exact hbl a ha b hbmem

omit irrefl in
/-- Insertion keeps the order. -/
theorem Sorted.insert (trans : ∀ a b c, lt a b = true → lt b c = true → lt a c = true)
    (hs : Sorted lt m) (k : κ) (v : ν) : Sorted lt (OrdMap.insert lt m k v) := by
  cases hf : find lt m k with
  | none => exact hs.insert_of_find_none trans hf v
  | some d => rwa [insert_of_some hf]

omit irrefl in
/-- Where the comparator is trichotomous a found entry carries the key itself. -/
theorem find_key (tri : ∀ a b, lt a b = false → lt b a = false → a = b)
    (h : find lt m k = some e) : e.1 = k := by
  obtain ⟨_, h₁, h₂⟩ := find_some h
  exact tri _ _ h₁ h₂

end Laws

/-! ## Runs -/

/-- The keys that have an entry. -/
def keys (m : OrdMap κ ν) : Set κ := {k | ∃ v, (k, v) ∈ m}

theorem mem_keys : k ∈ keys m ↔ ∃ v, (k, v) ∈ m := Iff.rfl

/-- The operations that change which keys there are. -/
inductive Op (κ ν : Type*) where
  | insert (k : κ) (v : ν)
  | erase (k : κ)

/-- The key an operation is about. -/
def Op.key : Op κ ν → κ
  | .insert k _ => k
  | .erase k => k

variable (lt) in
/-- The map after an operation. -/
def apply (m : OrdMap κ ν) : Op κ ν → OrdMap κ ν
  | .insert k v => insert lt m k v
  | .erase k => erase lt m k

/-- The keys inserted and not erased since. -/
def Op.present (ks : Set κ) : Op κ ν → Set κ
  | .insert k _ => Insert.insert k ks
  | .erase k => ks \ {k}

/-- The comparator tells the keys of a set apart. -/
def Separates (lt : κ → κ → Bool) (S : Set κ) : Prop :=
  ∀ a ∈ S, ∀ b ∈ S, lt a b = false → lt b a = false → a = b

section Separated

variable {S : Set κ} (irrefl : ∀ a, lt a a = false) (sep : Separates lt S)
include sep

omit irrefl in
/-- A found entry is the key's own. -/
theorem key_of_find (hm : keys m ⊆ S) (hk : k ∈ S) (h : find lt m k = some e) : e.1 = k := by
  obtain ⟨hmem, h₁, h₂⟩ := find_some h
  exact sep e.1 (hm ⟨e.2, hmem⟩) k hk h₁ h₂

theorem keys_insert (hm : keys m ⊆ S) (hk : k ∈ S) (v : ν) :
    keys (insert lt m k v) = Insert.insert k (keys m) := by
  cases hf : find lt m k with
  | none =>
    ext k'
    simp only [mem_keys, mem_insert_of_none hf, Set.mem_insert_iff, Prod.mk.injEq]
    constructor
    · rintro ⟨w, ⟨rfl, -⟩ | hw⟩
      · exact .inl rfl
      · exact .inr ⟨w, hw⟩
    · rintro (rfl | ⟨w, hw⟩)
      · exact ⟨v, .inl ⟨rfl, rfl⟩⟩
      · exact ⟨w, .inr hw⟩
  | some e =>
    have hkey := key_of_find sep hm hk hf
    have hmem : k ∈ keys m := ⟨e.2, hkey ▸ (find_some hf).1⟩
    rw [insert_of_some hf, Set.insert_eq_of_mem hmem]

include irrefl

theorem find_isSome_iff (hs : Sorted lt m) (hm : keys m ⊆ S) (hk : k ∈ S) :
    (find lt m k).isSome ↔ k ∈ keys m := by
  constructor
  · intro h
    obtain ⟨e, he⟩ := Option.isSome_iff_exists.mp h
    exact ⟨e.2, key_of_find sep hm hk he ▸ (find_some he).1⟩
  · rintro ⟨v, hv⟩
    rw [find_of_mem irrefl hs hv]
    rfl

theorem keys_erase (hs : Sorted lt m) (hm : keys m ⊆ S) (hk : k ∈ S) :
    keys (erase lt m k) = keys m \ {k} := by
  cases hf : find lt m k with
  | none =>
    have hnot : k ∉ keys m := by
      rw [← find_isSome_iff irrefl sep hs hm hk, hf]
      exact Bool.false_ne_true
    rw [erase_of_none hf, Set.sdiff_singleton_eq_self hnot]
  | some e =>
    have hkey := key_of_find sep hm hk hf
    ext k'
    simp only [mem_keys, mem_erase_iff irrefl hs hf, Set.mem_sdiff, Set.mem_singleton_iff]
    constructor
    · rintro ⟨v, hv, hne⟩
      refine ⟨⟨v, hv⟩, fun heq => hne ?_⟩
      -- the key has one entry in a sorted map
      have hown : (k', e.2) ∈ m := by
        rw [heq, ← hkey]
        exact (find_some hf).1
      rw [value_unique irrefl hs hv hown, heq, ← hkey]
    · rintro ⟨⟨v, hv⟩, hne⟩
      exact ⟨v, hv, fun heq => hne ((congrArg Prod.fst heq).trans hkey)⟩

/-- A run of insertions and erasures of separated keys keeps the order, and the keys that have an
entry are those inserted and not erased since. -/
theorem keys_run (trans : ∀ a b c, lt a b = true → lt b c = true → lt a c = true) :
    ∀ {ops : List (Op κ ν)} {m : OrdMap κ ν}, (∀ op ∈ ops, op.key ∈ S) → Sorted lt m →
      keys m ⊆ S → Sorted lt (ops.foldl (apply lt) m) ∧ keys (ops.foldl (apply lt) m) ⊆ S ∧
        keys (ops.foldl (apply lt) m) = ops.foldl Op.present (keys m)
  | [], m, _, hs, hm => ⟨hs, hm, rfl⟩
  | op :: ops, m, hops, hs, hm => by
    obtain ⟨hk, hops⟩ := List.forall_mem_cons.mp hops
    have hstep : Sorted lt (apply lt m op) ∧ keys (apply lt m op) = op.present (keys m) := by
      cases op with
      | insert k v => exact ⟨hs.insert trans k v, keys_insert sep hm hk v⟩
      | erase k => exact ⟨hs.erase k, keys_erase irrefl sep hs hm hk⟩
    obtain ⟨hsorted, hkeys⟩ := hstep
    have hsub : keys (apply lt m op) ⊆ S := by
      rw [hkeys]
      cases op with
      | insert k v => exact Set.insert_subset hk hm
      | erase k => exact Set.sdiff_subset.trans hm
    have hrun := keys_run trans hops hsorted hsub
    rwa [hkeys] at hrun

/-- The search finds exactly the keys inserted and not erased since. -/
theorem find_run_iff (trans : ∀ a b c, lt a b = true → lt b c = true → lt a c = true)
    {ops : List (Op κ ν)} (hops : ∀ op ∈ ops, op.key ∈ S) (hk : k ∈ S) :
    (find lt (ops.foldl (apply lt) []) k).isSome ↔ k ∈ ops.foldl Op.present ∅ := by
  have hempty : keys ([] : OrdMap κ ν) = ∅ := by
    ext k
    simp only [mem_keys, List.not_mem_nil, exists_false, Set.mem_empty_iff_false]
  have hsub : keys ([] : OrdMap κ ν) ⊆ S := by
    rw [hempty]
    exact Set.empty_subset S
  obtain ⟨hs, hm, hkeys⟩ := keys_run irrefl sep trans hops List.Pairwise.nil hsub
  rw [find_isSome_iff irrefl sep hs hm hk, hkeys, hempty]

end Separated

end OrdMap

end Verif
