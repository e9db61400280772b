import ProjectE.Io.Buffer
import ProjectE.Net.SocketAddr

/-!
# Addresses as the system sees them

`initialize_address` writes an address into a zeroed `sockaddr_storage`, and `address_from_sockaddr`
reads one back. A storage is its bytes, and the host is little-endian: a field of a `sockaddr_in` or
a `sockaddr_in6` is the image of a number at the offset the system gives it, and `htons` and `htonl`
turn the image around.

An IPv4 address comes back as it was: `to_uint32_t` puts the first octet highest, `htonl` puts the
highest byte first, and the constructor from a word takes the lowest byte, which is the first in
memory, for the first octet. The segments of an IPv6 address are copied as they lie in memory, both
ways. Its flow information and its scope are in neither direction (`addressFromSockaddr_iff`).
-/

namespace ProjectE.Net

open Verif

/-- The family of IPv4, as Linux numbers it. -/
def AF_INET : UInt16 := 2

/-- The family of IPv6. -/
def AF_INET6 : UInt16 := 10

/-- `htons` on a machine that puts the low byte first. -/
def htons (hostshort : UInt16) : UInt16 := .ofNat (swapBytes 2 hostshort.toNat)

/-- `ntohs`: the same swap. -/
def ntohs (netshort : UInt16) : UInt16 := .ofNat (swapBytes 2 netshort.toNat)

/-- `htonl`: the four bytes the other way round. -/
def htonl (hostlong : UInt32) : UInt32 := .ofNat (swapBytes 4 hostlong.toNat)

/-! ## Fields -/

/-- The bytes of a field. -/
def field (bytes : List UInt8) (offset size : Nat) : List UInt8 := (bytes.drop offset).take size

/-- A field of two bytes, as the machine reads it. -/
def loadU16 (bytes : List UInt8) (offset : Nat) : UInt16 := .ofNat (leNat (field bytes offset 2))

/-- A field of four bytes. -/
def loadU32 (bytes : List UInt8) (offset : Nat) : UInt32 := .ofNat (leNat (field bytes offset 4))

/-- A field of two bytes is written; the bytes around it stay. -/
def storeU16 (bytes : List UInt8) (offset : Nat) (x : UInt16) : List UInt8 :=
  overwrite bytes offset (leBytes 2 x.toNat)

/-- A field of four bytes is written. -/
def storeU32 (bytes : List UInt8) (offset : Nat) (x : UInt32) : List UInt8 :=
  overwrite bytes offset (leBytes 4 x.toNat)

/-- `initialize_address`: a `sockaddr_storage` and the part of it that is the address. -/
def initializeAddress : SocketAddr → List UInt8 × Nat
  | .v4 addr =>
    let address := List.replicate 128 0
    let address := storeU16 address 0 AF_INET
    let address := storeU16 address 2 (htons addr.port)
    let address := storeU32 address 4 (htonl addr.ip.toUInt32)
    (address, 16)
  | .v6 addr =>
    let address := List.replicate 128 0
    let address := storeU16 address 0 AF_INET6
    let address := storeU16 address 2 (htons addr.port)
    let address := overwrite address 8 (addr.ip.segments.toList.flatMap fun x => leBytes 2 x.toNat)
    (address, 28)

/-- `address_from_sockaddr`: a family that is not `AF_INET` is read as IPv6, and the flow
information and the scope are left at zero. -/
def addressFromSockaddr (address : List UInt8) : SocketAddr :=
  if loadU16 address 0 = AF_INET then
    .v4 ⟨.ofUInt32 (loadU32 address 4), ntohs (loadU16 address 2)⟩
  else
    .v6 ⟨⟨Vector.ofFn fun i : Fin 8 => loadU16 address (8 + 2 * i)⟩,
      ntohs (loadU16 address 2), 0, 0⟩

/-- What the storage has no trace of is zero. -/
def SocketAddr.Plain : SocketAddr → Prop
  | v4 _ => True
  | v6 addr => addr.flowinfo = 0 ∧ addr.scopeId = 0

/-! ## A field after a write -/

section Fields

variable {bytes bs : List UInt8} {i j size : Nat}

/-- What was written over a field is read back. -/
theorem field_overwrite_self (hsize : bs.length = size) (h : i + size ≤ bytes.length) :
    field (overwrite bytes i bs) i size = bs := by
  have hi : (bytes.take i).length = i := by
    rw [List.length_take]
    omega
  rw [field, overwrite, List.append_assoc, List.drop_left' hi, ← hsize, List.take_left]

/-- A field that ends before the written bytes is as it was. -/
theorem field_overwrite_before (hj : j + size ≤ i) (hi : i ≤ bytes.length) :
    field (overwrite bytes i bs) j size = field bytes j size := by
  have htake : (bytes.take i).length = i := by
    rw [List.length_take]
    omega
  have hroom : size ≤ ((bytes.take i).drop j).length := by
    rw [List.length_drop]
    omega
  rw [field, field, overwrite, List.append_assoc, List.drop_append_of_le_length (by omega),
    List.take_append_of_le_length hroom, List.drop_take, List.take_take, Nat.min_eq_left (by omega)]

/-- A field within the written bytes. -/
theorem field_overwrite_within (hj : j + size ≤ bs.length) (h : i + bs.length ≤ bytes.length) :
    field (overwrite bytes i bs) (i + j) size = field bs j size := by
  have hi : (bytes.take i).length = i := by
    rw [List.length_take]
    omega
  have hroom : size ≤ (bs.drop j).length := by
    rw [List.length_drop]
    omega
  rw [field, field, overwrite, List.append_assoc, ← List.drop_drop, List.drop_left' hi,
    List.drop_append_of_le_length (by omega), List.take_append_of_le_length hroom]

/-- A store within the memory does not move its end. -/
theorem length_storeU16 {x : UInt16} (h : i + 2 ≤ bytes.length) :
    (storeU16 bytes i x).length = bytes.length :=
  length_overwrite (by rwa [length_leBytes])

/-- A field of two bytes is read back as it was stored. -/
theorem loadU16_storeU16_self {x : UInt16} (h : i + 2 ≤ bytes.length) :
    loadU16 (storeU16 bytes i x) i = x := by
  rw [loadU16, storeU16, field_overwrite_self (length_leBytes 2 _) h, leNat_leBytes x.toNat_lt,
    UInt16.ofNat_toNat]

/-- And so is one of four. -/
theorem loadU32_storeU32_self (h : i + 4 ≤ bytes.length) (x : UInt32) :
    loadU32 (storeU32 bytes i x) i = x := by
  rw [loadU32, storeU32, field_overwrite_self (length_leBytes 4 _) h, leNat_leBytes x.toNat_lt,
    UInt32.ofNat_toNat]

/-- A field that ends before the place written keeps its value. -/
theorem loadU16_overwrite_before (hj : j + 2 ≤ i) (hi : i ≤ bytes.length) :
    loadU16 (overwrite bytes i bs) j = loadU16 bytes j := by
  rw [loadU16, loadU16, field_overwrite_before hj hi]

end Fields

/-! ## There and back -/

/-- The port comes back from the network's byte order. -/
theorem ntohs_htons (x : UInt16) : ntohs (htons x) = x := by
  have hx : x.toNat < 256 ^ 2 := x.toNat_lt
  have hswap : swapBytes 2 x.toNat % 2 ^ 16 = swapBytes 2 x.toNat :=
    Nat.mod_eq_of_lt (swapBytes_lt 2 x.toNat)
  rw [ntohs, htons, UInt16.toNat_ofNat', hswap, swapBytes_swapBytes hx, UInt16.ofNat_toNat]

/-- Shifted, a word gives one of its bytes. -/
theorem Ipv4Addr.toNat_octet (addr k : UInt32) (n : Nat) (hk : k.toNat = n) (hn : n < 32) :
    (addr >>> k).toUInt8.toNat = addr.toNat / 2 ^ n % 256 := by
  rw [UInt32.toNat_toUInt8, UInt32.toNat_shiftRight, hk, Nat.mod_eq_of_lt hn,
    Nat.shiftRight_eq_div_pow]

/-- The constructor takes the octets in the order in which they lie in memory. -/
theorem Ipv4Addr.ofUInt32_leNat (a b c d : UInt8) :
    ofUInt32 (.ofNat (leNat [a, b, c, d])) = ⟨#v[a, b, c, d]⟩ := by
  have ha := a.toNat_lt
  have hb := b.toNat_lt
  have hc := c.toNat_lt
  have hd := d.toNat_lt
  have hvalue : (UInt32.ofNat (leNat [a, b, c, d])).toNat =
      a.toNat + 256 * (b.toNat + 256 * (c.toNat + 256 * d.toNat)) := by
    rw [UInt32.toNat_ofNat']
    simp only [leNat]
    omega
  generalize UInt32.ofNat (leNat [a, b, c, d]) = addr at hvalue
  have h₀ := UInt32.toNat_toUInt8 addr
  have h₁ := toNat_octet addr 8 8 rfl (by decide)
  have h₂ := toNat_octet addr 16 16 rfl (by decide)
  have h₃ := toNat_octet addr 24 24 rfl (by decide)
  rw [hvalue] at h₀ h₁ h₂ h₃
  have hoctet₀ : addr.toUInt8 = a := UInt8.toNat_inj.mp (by omega)
  have hoctet₁ : (addr >>> 8).toUInt8 = b := UInt8.toNat_inj.mp (by omega)
  have hoctet₂ : (addr >>> 16).toUInt8 = c := UInt8.toNat_inj.mp (by omega)
  have hoctet₃ : (addr >>> 24).toUInt8 = d := UInt8.toNat_inj.mp (by omega)
  simp only [ofUInt32, hoctet₀, hoctet₁, hoctet₂, hoctet₃]

/-- Turning a word around cancels against the two orders of the octets. -/
theorem Ipv4Addr.ofUInt32_htonl (ip : Ipv4Addr) : ofUInt32 (htonl ip.toUInt32) = ip := by
  obtain ⟨a, b, c, d, rfl⟩ := ip.exists_octets
  have hvalue : (⟨#v[a, b, c, d]⟩ : Ipv4Addr).toUInt32.toNat = leNat [d, c, b, a] := by
    rw [toNat_toUInt32]
    simp only [leNat]
    ring
  have hbytes : leBytes 4 (leNat [d, c, b, a]) = [d, c, b, a] := leBytes_leNat rfl
  rw [htonl, hvalue, swapBytes, hbytes]
  exact ofUInt32_leNat a b c d

/-- A storage that begins with this family and this port. The address behind them is at another
place for each family. -/
structure Begins (bytes : List UInt8) (family port : UInt16) : Prop where
  length_eq : bytes.length = 128
  family_eq : loadU16 bytes 0 = family
  port_eq : loadU16 bytes 2 = htons port

/-- The two fields both families have, after `initialize_address` has stored them. -/
theorem begins_initial (family port : UInt16) :
    Begins (storeU16 (storeU16 (List.replicate 128 0) 0 family) 2 (htons port)) family port := by
  have hzeros : (List.replicate 128 (0 : UInt8)).length = 128 := List.length_replicate
  generalize List.replicate 128 (0 : UInt8) = zeros at hzeros
  have hlength : (storeU16 zeros 0 family).length = 128 := by
    rw [length_storeU16 (by omega), hzeros]
  refine ⟨?_, ?_, ?_⟩
  · rw [length_storeU16 (by omega), hlength]
  · rw [storeU16, loadU16_overwrite_before (by omega) (by omega)]
    exact loadU16_storeU16_self (by omega)
  · exact loadU16_storeU16_self (by omega)

/-- What is written behind the port leaves family and port. -/
theorem Begins.overwrite {bytes bs : List UInt8} {family port : UInt16} {i : Nat}
    (h : Begins bytes family port) (hi : 4 ≤ i) (hfits : i + bs.length ≤ 128) :
    Begins (overwrite bytes i bs) family port := by
  have hlength := h.length_eq
  refine ⟨?_, ?_, ?_⟩
  · rw [length_overwrite (by omega), hlength]
  · rw [loadU16_overwrite_before (by omega) (by omega), h.family_eq]
  · rw [loadU16_overwrite_before (by omega) (by omega), h.port_eq]

/-- An IPv4 address comes back whole. -/
theorem addressFromSockaddr_v4 (addr : SocketAddrV4) :
    addressFromSockaddr (initializeAddress (.v4 addr)).1 = .v4 addr := by
  have hbegun := begins_initial AF_INET addr.port
  simp only [initializeAddress]
  generalize storeU16 (storeU16 (List.replicate 128 0) 0 AF_INET) 2 (htons addr.port) = begun
    at hbegun
  have hlength := hbegun.length_eq
  have hbegins : Begins (storeU32 begun 4 (htonl addr.ip.toUInt32)) AF_INET addr.port :=
    hbegun.overwrite (Nat.le_refl 4) (by rw [length_leBytes]; omega)
  have hip := loadU32_storeU32_self (by omega : 4 + 4 ≤ begun.length) (htonl addr.ip.toUInt32)
  rw [addressFromSockaddr, if_pos hbegins.family_eq, hip, hbegins.port_eq, Ipv4Addr.ofUInt32_htonl,
    ntohs_htons]

/-- A segment among the segments as they lie in memory. -/
theorem leNat_field_segments (segments : Vector UInt16 8) (i : Fin 8) :
    leNat (field (segments.toList.flatMap fun x => leBytes 2 x.toNat) (2 * i) 2) =
      segments[i].toNat := by
  have hi : i < (segments.toList.map UInt16.toNat).length := by
    rw [List.length_map, Vector.length_toList]
    exact i.isLt
  have himage := take_drop_flatMap_leBytes 2 (segments.toList.map UInt16.toNat) i hi
  rw [List.flatMap_map, List.getElem_map, Vector.getElem_toList] at himage
  rw [field, himage, leNat_leBytes (UInt16.toNat_lt _)]
  rfl

/-- An IPv6 address comes back without its flow label and its scope, which are not stored. -/
theorem addressFromSockaddr_v6 (addr : SocketAddrV6) :
    addressFromSockaddr (initializeAddress (.v6 addr)).1 =
      .v6 { addr with flowinfo := 0, scopeId := 0 } := by
  have hbegun := begins_initial AF_INET6 addr.port
  have hfamily : AF_INET6 ≠ AF_INET := by decide
  have hsegment := leNat_field_segments addr.ip.segments
  have hsize : (addr.ip.segments.toList.flatMap fun x => leBytes 2 x.toNat).length = 16 := by
    simp only [List.length_flatMap, length_leBytes, List.map_const', Vector.length_toList]
    rfl
  simp only [initializeAddress]
  generalize storeU16 (storeU16 (List.replicate 128 0) 0 AF_INET6) 2 (htons addr.port) = begun
    at hbegun
  generalize (addr.ip.segments.toList.flatMap fun x => leBytes 2 x.toNat) = bs at hsegment hsize
  have hlength := hbegun.length_eq
  have hbegins : Begins (overwrite begun 8 bs) AF_INET6 addr.port :=
    hbegun.overwrite (by decide) (by omega)
  have hload : (Vector.ofFn fun i : Fin 8 => loadU16 (overwrite begun 8 bs) (8 + 2 * i)) =
      addr.ip.segments := by
    ext i hi
    have hnat : leNat (field bs (2 * i) 2) = (addr.ip.segments[i]).toNat := hsegment ⟨i, hi⟩
    rw [Vector.getElem_ofFn, loadU16, field_overwrite_within (by omega) (by omega), hnat,
      UInt16.ofNat_toNat]
  rw [addressFromSockaddr, hbegins.family_eq, if_neg hfamily, hload, hbegins.port_eq, ntohs_htons]

/-- **The conversion keeps exactly the plain addresses**: all IPv4 addresses, and the IPv6 ones
without flow information and scope. -/
theorem addressFromSockaddr_iff (addr : SocketAddr) :
    addressFromSockaddr (initializeAddress addr).1 = addr ↔ addr.Plain := by
  cases addr with
  | v4 addr => exact ⟨fun _ => trivial, fun _ => addressFromSockaddr_v4 addr⟩
  | v6 addr =>
    rw [addressFromSockaddr_v6]
    obtain ⟨ip, port, flowinfo, scopeId⟩ := addr
    constructor
    · intro h
      cases h
      exact ⟨rfl, rfl⟩
    · rintro ⟨rfl, rfl⟩
      rfl

/-- An address with a scope. -/
theorem not_addressFromSockaddr :
    ¬ ∀ addr, addressFromSockaddr (initializeAddress addr).1 = addr := by
  intro h
  have hread := h (.v6 ⟨⟨#v[0xfe80, 0, 0, 0, 0, 0, 0, 1]⟩, 80, 0, 1⟩)
  rw [addressFromSockaddr_v6] at hread
  injection hread with haddr
  injection haddr with _ _ _ hscope
  exact absurd hscope (by decide)

end ProjectE.Net
