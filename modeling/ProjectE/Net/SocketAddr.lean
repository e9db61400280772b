import Mathlib.Algebra.Group.Nat.Defs

/-!
# Socket addresses

Addresses with the comparisons the source gives them. `operator<` compares two IPv4 or two IPv6
addresses; between the two families it answers false both ways, so an IPv4 and an IPv6 address are
incomparable without being equal. It is irreflexive and transitive all the same, which is what an
ordered map needs for its entries to stay in order.
-/

namespace ProjectE.Net

/-- `Ipv4Addr`: the four octets, the first of them the most significant in every comparison. -/
structure Ipv4Addr where
  octets : Vector UInt8 4
deriving DecidableEq, Repr

namespace Ipv4Addr

/-- `Ipv4Addr(uint32_t)`: the lowest byte is the first octet, as in an `s_addr` that a machine with
the low byte first holds. -/
def ofUInt32 (addr : UInt32) : Ipv4Addr :=
  ⟨#v[addr.toUInt8, (addr >>> 8).toUInt8, (addr >>> 16).toUInt8, (addr >>> 24).toUInt8]⟩

/-- `to_uint32_t`: the octets as one number, the first one the highest. The constructor from a
number puts them the other way round. -/
def toUInt32 (a : Ipv4Addr) : UInt32 :=
  a.octets.toList.foldl (fun acc octet => acc <<< 8 ||| octet.toUInt32) 0

/-- `operator==`: the addresses are compared as numbers. -/
def eq (lhs rhs : Ipv4Addr) : Bool := lhs.toUInt32 == rhs.toUInt32

/-- `operator<`: the addresses are compared as numbers. -/
def lt (lhs rhs : Ipv4Addr) : Bool := lhs.toUInt32 < rhs.toUInt32

end Ipv4Addr

/-- `Ipv6Addr`: eight segments, compared from the first on. -/
structure Ipv6Addr where
  segments : Vector UInt16 8
deriving DecidableEq, Repr

namespace Ipv6Addr

/-- The loop of `operator==`: it leaves at the first pair that differs. -/
def segmentsEq : List UInt16 → List UInt16 → Bool
  | l :: ls, r :: rs => if l ≠ r then false else segmentsEq ls rs
  | _, _ => true

/-- The loop of `operator<`: the first pair that differs decides, and equal addresses are
not less. -/
def segmentsLt : List UInt16 → List UInt16 → Bool
  | l :: ls, r :: rs => if l < r then true else if l > r then false else segmentsLt ls rs
  | _, _ => false

/-- `operator==`: by the loop over the segments. -/
def eq (lhs rhs : Ipv6Addr) : Bool := segmentsEq lhs.segments.toList rhs.segments.toList

/-- `operator<`: by the loop over the segments. -/
def lt (lhs rhs : Ipv6Addr) : Bool := segmentsLt lhs.segments.toList rhs.segments.toList

end Ipv6Addr

/-- `SocketAddrV4`: an address with its port. -/
structure SocketAddrV4 where
  ip : Ipv4Addr
  port : UInt16
deriving DecidableEq, Repr

/-- `operator==`: both parts are equal. -/
def SocketAddrV4.eq (lhs rhs : SocketAddrV4) : Bool := lhs.ip.eq rhs.ip && lhs.port == rhs.port

/-- `operator<`: the address decides, and the port between equal addresses. -/
def SocketAddrV4.lt (lhs rhs : SocketAddrV4) : Bool :=
  lhs.ip.lt rhs.ip || (lhs.ip.eq rhs.ip && decide (lhs.port < rhs.port))

/-- `SocketAddrV6`: the flow label and the scope belong to the address too. -/
structure SocketAddrV6 where
  ip : Ipv6Addr
  port : UInt16
  flowinfo : UInt32
  scopeId : UInt32
deriving DecidableEq, Repr

/-- `operator==`: all four parts are equal. -/
def SocketAddrV6.eq (lhs rhs : SocketAddrV6) : Bool :=
  lhs.ip.eq rhs.ip && lhs.port == rhs.port && lhs.flowinfo == rhs.flowinfo &&
    lhs.scopeId == rhs.scopeId

/-- `operator<`: lexicographic in the four parts, each disjunct with the equalities of the parts
before it. -/
def SocketAddrV6.lt (lhs rhs : SocketAddrV6) : Bool :=
  lhs.ip.lt rhs.ip || (lhs.ip.eq rhs.ip && decide (lhs.port < rhs.port)) ||
    (lhs.ip.eq rhs.ip && lhs.port == rhs.port && decide (lhs.flowinfo < rhs.flowinfo)) ||
    (lhs.ip.eq rhs.ip && lhs.port == rhs.port && lhs.flowinfo == rhs.flowinfo &&
      decide (lhs.scopeId < rhs.scopeId))

/-- `SocketAddr`: an address of either family. -/
inductive SocketAddr where
  | v4 (addr : SocketAddrV4)
  | v6 (addr : SocketAddrV6)
deriving DecidableEq, Repr

namespace SocketAddr

/-- `SocketAddr()`: the IPv4 address 0.0.0.0 with port 0. -/
def default : SocketAddr := .v4 ⟨⟨#v[0, 0, 0, 0]⟩, 0⟩

/-- `is_ipv4`: which of the two variants it holds. -/
def isIpv4 : SocketAddr → Bool
  | .v4 _ => true
  | .v6 _ => false

/-- `operator==`: addresses of different families differ. -/
def eq : SocketAddr → SocketAddr → Bool
  | .v4 lhs, .v4 rhs => lhs.eq rhs
  | .v6 lhs, .v6 rhs => lhs.eq rhs
  | _, _ => false

/-- `operator<`: of two addresses of different families none is below the other. -/
def lt : SocketAddr → SocketAddr → Bool
  | .v4 lhs, .v4 rhs => lhs.lt rhs
  | .v6 lhs, .v6 rhs => lhs.lt rhs
  | _, _ => false

/-- `operator>`: `operator<` the other way round. -/
def gt (lhs rhs : SocketAddr) : Bool := rhs.lt lhs

/-- `operator<=`: not above; so it holds between any two addresses of different families. -/
def le (lhs rhs : SocketAddr) : Bool := !lhs.gt rhs

/-- `operator>=`: not below; so it does too. -/
def ge (lhs rhs : SocketAddr) : Bool := !lhs.lt rhs

end SocketAddr

/-! ## Octets -/

namespace Ipv4Addr

/-- One turn of the fold: the octet goes behind what there is. -/
theorem toNat_shiftIn (acc : UInt32) (octet : UInt8) (h : acc.toNat < 2 ^ 24) :
    (acc <<< 8 ||| octet.toUInt32).toNat = acc.toNat * 256 + octet.toNat := by
  have hoctet := octet.toNat_lt
  have hfits : acc.toNat <<< 8 < 2 ^ 32 := by
    rw [Nat.shiftLeft_eq]
    omega
  rw [UInt32.toNat_or, UInt32.toNat_shiftLeft, UInt8.toNat_toUInt32]
  show (acc.toNat <<< 8) % 2 ^ 32 ||| octet.toNat = _
  rw [Nat.mod_eq_of_lt hfits, ← Nat.shiftLeft_add_eq_or_of_lt hoctet, Nat.shiftLeft_eq]

/-- An address is its four octets. -/
theorem exists_octets (ip : Ipv4Addr) : ∃ a b c d, ip = ⟨#v[a, b, c, d]⟩ := by
  match ip with
  | ⟨⟨⟨[a, b, c, d]⟩, _⟩⟩ => exact ⟨a, b, c, d, rfl⟩

/-- The first octet is the highest. -/
theorem toNat_toUInt32 (a b c d : UInt8) : (⟨#v[a, b, c, d]⟩ : Ipv4Addr).toUInt32.toNat =
    ((a.toNat * 256 + b.toNat) * 256 + c.toNat) * 256 + d.toNat := by
  have ha := a.toNat_lt
  have hb := b.toNat_lt
  have hc := c.toNat_lt
  have h₁ : ((0 : UInt32) <<< 8 ||| a.toUInt32).toNat = a.toNat := by
    rw [toNat_shiftIn 0 a (by decide), UInt32.toNat_zero, Nat.zero_mul, Nat.zero_add]
  have h₂ := toNat_shiftIn _ b (by rw [h₁]; omega)
  have h₃ := toNat_shiftIn _ c (by rw [h₂]; omega)
  have h₄ := toNat_shiftIn _ d (by rw [h₃]; omega)
  rw [h₃, h₂, h₁] at h₄
  exact h₄

/-- No two addresses are the same number, so the comparisons by number are comparisons
of addresses. -/
theorem toUInt32_inj {lhs rhs : Ipv4Addr} : lhs.toUInt32 = rhs.toUInt32 ↔ lhs = rhs := by
  refine ⟨fun h => ?_, fun h => h ▸ rfl⟩
  obtain ⟨a, b, c, d, rfl⟩ := lhs.exists_octets
  obtain ⟨a', b', c', d', rfl⟩ := rhs.exists_octets
  have hvalue := congrArg UInt32.toNat h
  rw [toNat_toUInt32, toNat_toUInt32] at hvalue
  have hb := b.toNat_lt
  have hc := c.toNat_lt
  have hd := d.toNat_lt
  have hb' := b'.toNat_lt
  have hc' := c'.toNat_lt
  have hd' := d'.toNat_lt
  have h₁ : a = a' := UInt8.toNat_inj.mp (by omega)
  have h₂ : b = b' := UInt8.toNat_inj.mp (by omega)
  have h₃ : c = c' := UInt8.toNat_inj.mp (by omega)
  have h₄ : d = d' := UInt8.toNat_inj.mp (by omega)
  rw [h₁, h₂, h₃, h₄]

/-- `operator==` is equality. -/
theorem eq_iff {lhs rhs : Ipv4Addr} : lhs.eq rhs = true ↔ lhs = rhs := by
  rw [eq, beq_iff_eq, toUInt32_inj]

end Ipv4Addr

/-! ## The order -/

/-- No list of segments is below itself. -/
theorem Ipv6Addr.segmentsLt_irrefl : ∀ ls : List UInt16, segmentsLt ls ls = false
  | [] => rfl
  | l :: ls => by
    have hl : ¬ l < l := UInt16.lt_irrefl l
    simp only [segmentsLt, gt_iff_lt, if_neg hl, segmentsLt_irrefl ls]

/-- The lexicographic order of segments is transitive, also for lists of different lengths: where
one is a prefix of the other, neither is below. -/
theorem Ipv6Addr.segmentsLt_trans : ∀ {ls ms rs : List UInt16},
    segmentsLt ls ms = true → segmentsLt ms rs = true → segmentsLt ls rs = true
  | l :: ls, m :: ms, r :: rs, h₁, h₂ => by
    have ih := @segmentsLt_trans ls ms rs
    simp only [segmentsLt, gt_iff_lt, UInt16.lt_iff_toNat_lt] at h₁ h₂ ⊢
    grind
  | [], _, _, h₁, _ => by simp only [segmentsLt, Bool.false_eq_true] at h₁
  | _ :: _, [], _, h₁, _ => by simp only [segmentsLt, Bool.false_eq_true] at h₁
  | _ :: _, _ :: _, [], _, h₂ => by simp only [segmentsLt, Bool.false_eq_true] at h₂

/-- For lists of one length the loop of `operator==` decides equality. -/
theorem Ipv6Addr.segmentsEq_iff : ∀ {ls rs : List UInt16}, ls.length = rs.length →
    (segmentsEq ls rs = true ↔ ls = rs)
  | [], [], _ => by simp only [segmentsEq]
  | l :: ls, r :: rs, h => by
    have ih := @segmentsEq_iff ls rs (by simpa using h)
    simp only [segmentsEq, List.cons.injEq]
    grind

/-- `operator==` is equality. -/
theorem Ipv6Addr.eq_iff {a b : Ipv6Addr} : a.eq b = true ↔ a = b := by
  rw [eq, segmentsEq_iff (by simp)]
  cases a with | mk s =>
  cases b with | mk t =>
  simp only [mk.injEq, Vector.toList_inj]

/-- No IPv4 socket address is below itself. -/
theorem SocketAddrV4.lt_irrefl (a : SocketAddrV4) : a.lt a = false := by
  simp only [lt, Ipv4Addr.lt, UInt32.lt_irrefl, UInt16.lt_irrefl, decide_false, Bool.and_false,
    Bool.or_false]

/-- No IPv6 socket address is below itself. -/
theorem SocketAddrV6.lt_irrefl (a : SocketAddrV6) : a.lt a = false := by
  simp only [lt, Ipv6Addr.lt, Ipv6Addr.segmentsLt_irrefl, UInt32.lt_irrefl, UInt16.lt_irrefl,
    decide_false, Bool.and_false, Bool.or_false]

/-- The order of the IPv4 socket addresses is transitive. -/
theorem SocketAddrV4.lt_trans {a b c : SocketAddrV4} (h₁ : a.lt b = true) (h₂ : b.lt c = true) :
    a.lt c = true := by
  simp only [lt, Ipv4Addr.lt, Ipv4Addr.eq, Bool.or_eq_true, Bool.and_eq_true, beq_iff_eq,
    decide_eq_true_eq, UInt32.lt_iff_toNat_lt, UInt16.lt_iff_toNat_lt, ← UInt32.toNat_inj]
    at h₁ h₂ ⊢
  omega

/-- The order of the IPv6 socket addresses is transitive: the first part in which the outer two
differ decides. -/
theorem SocketAddrV6.lt_trans {a b c : SocketAddrV6} (h₁ : a.lt b = true) (h₂ : b.lt c = true) :
    a.lt c = true := by
  have hip := @Ipv6Addr.segmentsLt_trans a.ip.segments.toList b.ip.segments.toList
    c.ip.segments.toList
  simp only [lt, Ipv6Addr.lt, Bool.or_eq_true, Bool.and_eq_true, beq_iff_eq, Ipv6Addr.eq_iff,
    decide_eq_true_eq, UInt32.lt_iff_toNat_lt, UInt16.lt_iff_toNat_lt] at h₁ h₂ ⊢
  grind

namespace SocketAddr

/-- `operator<` is irreflexive: within a family by that family's order. -/
theorem lt_irrefl (a : SocketAddr) : a.lt a = false := by
  cases a with
  | v4 a => exact a.lt_irrefl
  | v6 a => exact a.lt_irrefl

/-- `operator<` is transitive: it never leads from one family to the other, so three addresses in a
row are of one. -/
theorem lt_trans (a b c : SocketAddr) (h₁ : a.lt b = true) (h₂ : b.lt c = true) :
    a.lt c = true := by
  cases a with
  | v4 a =>
    cases b with
    | v4 b =>
      cases c with
      | v4 c => exact SocketAddrV4.lt_trans h₁ h₂
      | v6 c => cases h₂
    | v6 b => cases h₁
  | v6 a =>
    cases b with
    | v4 b => cases h₁
    | v6 b =>
      cases c with
      | v4 c => cases h₂
      | v6 c => exact SocketAddrV6.lt_trans h₁ h₂

end SocketAddr

end ProjectE.Net
