import ProjectE.Lib.OrdMap
import ProjectE.Net.SocketAddr

/-!
# Socket addresses as keys

Whether `operator<` of `SocketAddr` makes a map of it. Among addresses of one family it is a strict
total order whose incomparability is `operator==`. Between the families it answers false both ways:
an IPv4 and an IPv6 address are incomparable without being equal, incomparability is not
transitive, and a map that holds one of them finds it under the other.

The laws are stated of a set of addresses, so that the condition is one on the addresses in use:
they hold of exactly the sets that lie within one family (`orderLaws_iff`).
-/

namespace ProjectE.Net

open Verif

namespace SocketAddr

/-- Neither is below the other. -/
def Incomparable (a b : SocketAddr) : Prop := a.lt b = false ∧ b.lt a = false

/-- `operator<` is a strict weak order on the set whose incomparability is `operator==`, and the
other comparisons agree with both. -/
structure OrderLaws (S : Set SocketAddr) : Prop where
  irrefl : ∀ a ∈ S, a.lt a = false
  trans : ∀ a ∈ S, ∀ b ∈ S, ∀ c ∈ S, a.lt b = true → b.lt c = true → a.lt c = true
  incomparable_trans : ∀ a ∈ S, ∀ b ∈ S, ∀ c ∈ S,
    Incomparable a b → Incomparable b c → Incomparable a c
  incomparable_iff : ∀ a ∈ S, ∀ b ∈ S, Incomparable a b ↔ a.eq b = true
  gt_iff : ∀ a ∈ S, ∀ b ∈ S, a.gt b = true ↔ b.lt a = true
  le_iff : ∀ a ∈ S, ∀ b ∈ S, a.le b = true ↔ a.lt b = true ∨ a.eq b = true
  ge_iff : ∀ a ∈ S, ∀ b ∈ S, a.ge b = true ↔ b.lt a = true ∨ a.eq b = true

/-- A map keyed by addresses of the set finds exactly those inserted and not erased since. -/
def MapLaw (S : Set SocketAddr) : Prop :=
  ∀ ops : List (OrdMap.Op SocketAddr UInt64), (∀ op ∈ ops, op.key ∈ S) → ∀ addr ∈ S,
    ((OrdMap.find lt (ops.foldl (OrdMap.apply lt) []) addr).isSome ↔
      addr ∈ ops.foldl OrdMap.Op.present ∅)

/-- All addresses of the set are IPv4, or all are IPv6. -/
def OneFamily (S : Set SocketAddr) : Prop := ∀ a ∈ S, ∀ b ∈ S, a.isIpv4 = b.isIpv4

end SocketAddr

/-! ## Within a family -/

/-- Lists of one length of which neither is below the other are equal. -/
theorem Ipv6Addr.segmentsLt_tri : ∀ {ls rs : List UInt16}, ls.length = rs.length →
    segmentsLt ls rs = false → segmentsLt rs ls = false → ls = rs
  | [], [], _, _, _ => rfl
  | l :: ls, r :: rs, hlength, h₁, h₂ => by
    have ih := @segmentsLt_tri ls rs (by simpa using hlength)
    simp only [segmentsLt, gt_iff_lt, UInt16.lt_iff_toNat_lt] at h₁ h₂
    have hhead : l = r := UInt16.toNat_inj.mp (by grind)
    subst hhead
    simp only [Nat.lt_irrefl, if_false] at h₁ h₂
    rw [ih h₁ h₂]

/-- Within IPv6 incomparable addresses are equal. -/
theorem Ipv6Addr.lt_tri {a b : Ipv6Addr} (h₁ : a.lt b = false) (h₂ : b.lt a = false) : a = b := by
  obtain ⟨s⟩ := a
  obtain ⟨t⟩ := b
  rw [mk.injEq, ← Vector.toList_inj]
  exact segmentsLt_tri (by simp) h₁ h₂

/-- Within IPv4 they are, too. -/
theorem Ipv4Addr.lt_tri {a b : Ipv4Addr} (h₁ : a.lt b = false) (h₂ : b.lt a = false) : a = b := by
  apply toUInt32_inj.mp
  apply UInt32.toNat_inj.mp
  simp only [lt, decide_eq_false_iff_not, UInt32.lt_iff_toNat_lt] at h₁ h₂
  omega

/-- And so are incomparable IPv4 socket addresses, -/
theorem SocketAddrV4.lt_tri {a b : SocketAddrV4} (h₁ : a.lt b = false) (h₂ : b.lt a = false) :
    a = b := by
  simp only [lt, Bool.or_eq_false_iff] at h₁ h₂
  obtain ⟨hip, hport⟩ := h₁
  obtain ⟨hip', hport'⟩ := h₂
  have hipEq := Ipv4Addr.lt_tri hip hip'
  have hself : a.ip.eq a.ip = true := Ipv4Addr.eq_iff.mpr rfl
  rw [← hipEq, hself, Bool.true_and, decide_eq_false_iff_not] at hport hport'
  have hportEq : a.port = b.port := UInt16.toNat_inj.mp (by
    rw [UInt16.lt_iff_toNat_lt] at hport hport'
    omega)
  obtain ⟨ip, port⟩ := a
  obtain ⟨ip', port'⟩ := b
  rw [mk.injEq]
  exact ⟨hipEq, hportEq⟩

/-- and IPv6 socket addresses, where all four parts are compared. -/
theorem SocketAddrV6.lt_tri {a b : SocketAddrV6} (h₁ : a.lt b = false) (h₂ : b.lt a = false) :
    a = b := by
  obtain ⟨ip, port, flowinfo, scopeId⟩ := a
  obtain ⟨ip', port', flowinfo', scopeId'⟩ := b
  have hip : ip = ip' := by
    simp only [lt, Bool.or_eq_false_iff] at h₁ h₂
    exact Ipv6Addr.lt_tri h₁.1.1.1 h₂.1.1.1
  subst hip
  have hself : ip.eq ip = true := Ipv6Addr.eq_iff.mpr rfl
  simp only [lt, hself, Bool.true_and, Bool.or_eq_false_iff, Bool.and_eq_false_iff,
    decide_eq_false_iff_not, UInt16.lt_iff_toNat_lt, UInt32.lt_iff_toNat_lt, beq_eq_false_iff_ne,
    ne_eq, ← UInt16.toNat_inj, ← UInt32.toNat_inj] at h₁ h₂
  simp only [mk.injEq, true_and, ← UInt16.toNat_inj, ← UInt32.toNat_inj]
  omega

/-- `operator==` is equality. -/
theorem SocketAddrV4.eq_iff {a b : SocketAddrV4} : a.eq b = true ↔ a = b := by
  obtain ⟨ip, port⟩ := a
  obtain ⟨ip', port'⟩ := b
  simp only [eq, Bool.and_eq_true, Ipv4Addr.eq_iff, beq_iff_eq, mk.injEq]

/-- `operator==` is equality. -/
theorem SocketAddrV6.eq_iff {a b : SocketAddrV6} : a.eq b = true ↔ a = b := by
  obtain ⟨ip, port, flowinfo, scopeId⟩ := a
  obtain ⟨ip', port', flowinfo', scopeId'⟩ := b
  simp only [eq, Bool.and_eq_true, Ipv6Addr.eq_iff, beq_iff_eq, mk.injEq, and_assoc]

namespace SocketAddr

/-- `operator==` is equality, in both families and between them. -/
theorem eq_iff {a b : SocketAddr} : a.eq b = true ↔ a = b := by
  cases a with
  | v4 a =>
    cases b with
    | v4 b => rw [eq, SocketAddrV4.eq_iff, v4.injEq]
    | v6 b => simp only [eq, Bool.false_eq_true, reduceCtorEq]
  | v6 a =>
    cases b with
    | v4 b => simp only [eq, Bool.false_eq_true, reduceCtorEq]
    | v6 b => rw [eq, SocketAddrV6.eq_iff, v6.injEq]

/-- Addresses of one family are told apart. -/
theorem lt_tri {a b : SocketAddr} (hfamily : a.isIpv4 = b.isIpv4) (h : Incomparable a b) :
    a = b := by
  cases a with
  | v4 a =>
    cases b with
    | v4 b => exact congrArg v4 (SocketAddrV4.lt_tri h.1 h.2)
    | v6 b => cases hfamily
  | v6 a =>
    cases b with
    | v4 b => cases hfamily
    | v6 b => exact congrArg v6 (SocketAddrV6.lt_tri h.1 h.2)

/-- Addresses of different families never are. -/
theorem incomparable_of_ne {a b : SocketAddr} (hfamily : a.isIpv4 ≠ b.isIpv4) :
    Incomparable a b := by
  cases a with
  | v4 a =>
    cases b with
    | v4 b => exact absurd rfl hfamily
    | v6 b => exact ⟨rfl, rfl⟩
  | v6 a =>
    cases b with
    | v4 b => exact ⟨rfl, rfl⟩
    | v6 b => exact absurd rfl hfamily

variable {S : Set SocketAddr}

/-- Within one family `operator<` tells any two addresses apart, as a map needs it. -/
theorem OneFamily.separates (h : OneFamily S) : OrdMap.Separates lt S :=
  fun a ha b hb h₁ h₂ => lt_tri (h a ha b hb) ⟨h₁, h₂⟩

/-- Within one family only equal addresses are incomparable. -/
theorem OneFamily.incomparable_iff (h : OneFamily S) {a b : SocketAddr} (ha : a ∈ S)
    (hb : b ∈ S) : Incomparable a b ↔ a = b := by
  constructor
  · exact lt_tri (h a ha b hb)
  · rintro rfl
    exact ⟨lt_irrefl a, lt_irrefl a⟩

/-- Not both of two addresses are below the other. -/
theorem lt_asymm {a b : SocketAddr} (h : a.lt b = true) : b.lt a = false := by
  by_contra hba
  have hself := lt_trans a b a h (Bool.not_eq_false _ ▸ hba)
  rw [lt_irrefl] at hself
  exact Bool.false_ne_true hself

/-- Within one family `operator<=` is below or equal; across families it is true both ways. -/
theorem OneFamily.le_iff (h : OneFamily S) {a b : SocketAddr} (ha : a ∈ S) (hb : b ∈ S) :
    a.le b = true ↔ a.lt b = true ∨ a.eq b = true := by
  have htri := h.incomparable_iff ha hb
  rw [le, gt, Bool.not_eq_true', eq_iff, ← htri, Incomparable]
  constructor
  · intro hle
    cases hlt : a.lt b with
    | true => exact .inl rfl
    | false => exact .inr ⟨rfl, hle⟩
  · rintro (hlt | ⟨-, hle⟩)
    · exact lt_asymm hlt
    · exact hle

/-- The order laws hold within a family. -/
theorem OneFamily.orderLaws (h : OneFamily S) : OrderLaws S where
  irrefl a _ := lt_irrefl a
  trans a _ b _ c _ := lt_trans a b c
  incomparable_trans a ha b hb c hc hab hbc := by
    rw [h.incomparable_iff ha hb] at hab
    rwa [hab]
  incomparable_iff a ha b hb := by rw [h.incomparable_iff ha hb, eq_iff]
  gt_iff _ _ _ _ := Iff.rfl
  le_iff a ha b hb := h.le_iff ha hb
  ge_iff a ha b hb := by
    have hle := h.le_iff hb ha
    rw [le, gt] at hle
    rw [ge, hle, eq_iff, eq_iff]
    exact or_congr_right eq_comm

/-- A map whose addresses are of one family has an entry for exactly the addresses put in and not
taken out. -/
theorem OneFamily.mapLaw (h : OneFamily S) : MapLaw S := fun _ hops _ haddr =>
  OrdMap.find_run_iff lt_irrefl h.separates lt_trans hops haddr

/-! ## Across the families -/

/-- Incomparable addresses of two families would have to be equal. -/
theorem OrderLaws.oneFamily (h : OrderLaws S) : OneFamily S := by
  intro a ha b hb
  by_contra hfamily
  have heq := eq_iff.mp ((h.incomparable_iff a ha b hb).mp (incomparable_of_ne hfamily))
  exact hfamily (congrArg isIpv4 heq)

/-- A map that holds an address finds it under one of the other family. -/
theorem MapLaw.oneFamily (h : MapLaw S) : OneFamily S := by
  intro a ha b hb
  by_contra hfamily
  obtain ⟨-, hba⟩ := incomparable_of_ne hfamily
  have hkeys : ∀ op ∈ [OrdMap.Op.insert a (0 : UInt64)], op.key ∈ S := by
    intro op hop
    rw [List.mem_singleton.mp hop]
    exact ha
  have hlaw := h [.insert a 0] hkeys b hb
  have hfound : (OrdMap.find lt ([OrdMap.Op.insert a (0 : UInt64)].foldl (OrdMap.apply lt) [])
      b).isSome = true := by
    obtain ⟨hab, -⟩ := incomparable_of_ne hfamily
    simp only [List.foldl_cons, List.foldl_nil, OrdMap.apply, OrdMap.insert, OrdMap.find,
      OrdMap.lowerBound, OrdMap.below, List.dropWhile_nil, List.takeWhile_nil, List.nil_append,
      List.dropWhile_cons, hab, hba, Bool.false_eq_true, if_false, Option.isSome_some]
  have hpresent := hlaw.mp hfound
  simp only [List.foldl_cons, List.foldl_nil, OrdMap.Op.present, Set.mem_insert_iff,
    Set.mem_empty_iff_false, or_false] at hpresent
  exact hfamily (congrArg isIpv4 hpresent.symm)

/-- **`SocketAddr` is a key of an ordered map exactly within one family**: the order laws hold of a
set of addresses, and a map keyed by them finds what was inserted and not erased, if and only if all
are IPv4 or all are IPv6. -/
theorem orderLaws_iff (S : Set SocketAddr) :
    (OrderLaws S ↔ OneFamily S) ∧ (MapLaw S ↔ OneFamily S) :=
  ⟨⟨OrderLaws.oneFamily, OneFamily.orderLaws⟩, ⟨MapLaw.oneFamily, OneFamily.mapLaw⟩⟩

/-- The unspecified addresses of the two families. -/
theorem not_orderLaws : ¬ OrderLaws Set.univ ∧ ¬ MapLaw Set.univ := by
  have hmixed : ¬ OneFamily Set.univ := by
    intro h
    have hfamily := h default trivial (.v6 ⟨⟨Vector.replicate 8 0⟩, 0, 0, 0⟩) trivial
    exact absurd hfamily (by decide)
  exact ⟨fun h => hmixed h.oneFamily, fun h => hmixed h.oneFamily⟩

end SocketAddr

end ProjectE.Net
