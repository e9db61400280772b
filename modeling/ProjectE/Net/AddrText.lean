import ProjectE.Net.AddrParse

/-!
# Addresses to text and back

`to_string` of the address classes, and what `parse_ascii` makes of what it writes. A number is
written in base ten. `Ipv6Addr::parse_ascii` reads its groups in base sixteen, so a segment of two
digits comes back as another one, and a segment of five is refused; `SocketAddr::to_string` puts an
IPv6 address in brackets, which no parser here knows (`text_roundTrip_iff`).

That the system finds the octets of a dotted quad is a hypothesis about `getaddrinfo`
(`ResolvesQuads`); `resolveQuad` is a resolver of nothing else that meets it.
-/

namespace ProjectE.Net

open Verif

/-- `std::to_string`: the digits of a number without leading zeros. -/
def decimal (n : Nat) : List Char := Nat.toDigits 10 n

/-- `Ipv4Addr::to_string`: four decimal numbers with dots between them. -/
def Ipv4Addr.toString (a : Ipv4Addr) : List Char :=
  decimal a.octets[0].toNat ++ ['.'] ++ decimal a.octets[1].toNat ++ ['.'] ++
    decimal a.octets[2].toNat ++ ['.'] ++ decimal a.octets[3].toNat

/-- `Ipv6Addr::to_string`: eight groups with colons between them. They are written in decimal. -/
def Ipv6Addr.toString (a : Ipv6Addr) : List Char :=
  a.segments.toList.zipIdx.foldl
    (fun result x => result ++ ((if x.2 = 0 then [] else [':']) ++ decimal x.1.toNat)) []

/-- `SocketAddrV4::to_string`: the address, a colon, and the port. -/
def SocketAddrV4.toString (a : SocketAddrV4) : List Char :=
  a.ip.toString ++ [':'] ++ decimal a.port.toNat

/-- `SocketAddrV6::to_string`: the address is put in brackets. -/
def SocketAddrV6.toString (a : SocketAddrV6) : List Char :=
  ['['] ++ a.ip.toString ++ [']', ':'] ++ decimal a.port.toNat

/-- `SocketAddr::to_string`, by the family. -/
def SocketAddr.toString : SocketAddr → List Char
  | v4 addr => addr.toString
  | v6 addr => addr.toString

/-- The system finds the octets of a dotted quad, in the order in which they lie in memory. -/
def ResolvesQuads (getaddrinfo : Resolver) : Prop :=
  ∀ ip : Ipv4Addr, getaddrinfo ip.toString = .ok (.ofNat (leNat ip.octets.toList))

/-! ## Decimals -/

theorem not_mem_decimal {c : Char} (hc : c.isDigit = false) (n : Nat) : c ∉ decimal n := by
  intro hmem
  rw [Nat.isDigit_of_mem_toDigits (by decide) (by decide) hmem] at hc
  cases hc

theorem colon_not_mem_decimal (n : Nat) : ':' ∉ decimal n := not_mem_decimal (by decide) n

/-- What was written of a port is read back. -/
theorem stoi_decimal (port : UInt16) : stoi (decimal port.toNat) 10 = .ok port.toNat := by
  have hdigits : AllDigits 10 (decimal port.toNat) := allDigits_toDigits (Nat.le_refl 10) _
  have hvalue : value 10 (decimal port.toNat) = port.toNat := value_toDigits _
  have hport := port.toNat_lt
  rw [stoi_of_allDigits hdigits (by omega), hvalue]

/-- A segment of one digit is read back, and no other. -/
theorem readsAs_decimal_iff (segment : UInt16) :
    Ipv6Addr.ReadsAs (decimal segment.toNat) segment ↔ segment < 10 := by
  have hdigits : AllDigits 16 (decimal segment.toNat) := allDigits_toDigits (by decide) _
  have hsame : value 16 (decimal segment.toNat) = segment.toNat ↔ segment.toNat < 10 :=
    value_toDigits_eq_iff (by decide) _
  have hshort : (decimal segment.toNat).length ≤ 4 → value 16 (decimal segment.toNat) < 65536 := by
    intro hlength
    exact Nat.lt_of_lt_of_le (value_lt hdigits.digit) (Nat.pow_le_pow_right (by decide) hlength)
  constructor
  · rintro ⟨hlength, n, hn, hsegment⟩
    have hlt := hshort hlength
    rw [stoul_of_allDigits hdigits (by omega), Except.ok.injEq] at hn
    have htoNat : value 16 (decimal segment.toNat) = segment.toNat := by
      have hcongr := congrArg UInt16.toNat hsegment
      rw [← hn, UInt16.toNat_ofNat', Nat.mod_eq_of_lt hlt] at hcongr
      exact hcongr.symm
    exact UInt16.lt_iff_toNat_lt.mpr (hsame.mp htoNat)
  · intro hsegment
    have hten : segment.toNat < 10 := UInt16.lt_iff_toNat_lt.mp hsegment
    have hlength : (decimal segment.toNat).length ≤ 1 :=
      (Nat.length_toDigits_le_iff (by decide) (by decide)).mpr hten
    have hvalue := hsame.mpr hten
    refine ⟨by omega, segment.toNat, ?_, UInt16.ofNat_toNat.symm⟩
    rw [stoul_of_allDigits hdigits (by omega), hvalue]

/-! ## IPv6 -/

namespace Ipv6Addr

theorem exists_segments (a : Ipv6Addr) : ∃ s₀ s₁ s₂ s₃ s₄ s₅ s₆ s₇,
    a = ⟨#v[s₀, s₁, s₂, s₃, s₄, s₅, s₆, s₇]⟩ := by
  match a with
  | ⟨⟨⟨[s₀, s₁, s₂, s₃, s₄, s₅, s₆, s₇]⟩, _⟩⟩ => exact ⟨s₀, s₁, s₂, s₃, s₄, s₅, s₆, s₇, rfl⟩

/-- What is written are the decimals of the segments, with single colons between them. -/
theorem toString_eq (a : Ipv6Addr) :
    a.toString = [':'].intercalate (a.segments.toList.map fun s => decimal s.toNat) := by
  obtain ⟨s₀, s₁, s₂, s₃, s₄, s₅, s₆, s₇, rfl⟩ := a.exists_segments
  simp [toString, List.intercalate, List.zipIdx]

theorem groups_toString (a : Ipv6Addr) :
    groups a.toString = a.segments.toList.map fun s => decimal s.toNat := by
  have hne : (a.segments.toList.map fun s => decimal s.toNat) ≠ [] := by
    intro hnil
    have hlength := congrArg List.length hnil
    simp at hlength
  rw [toString_eq]
  refine groups_intercalate hne fun g hg => ?_
  obtain ⟨s, -, rfl⟩ := List.mem_map.mp hg
  exact ⟨Nat.toDigits_ne_nil, colon_not_mem_decimal s.toNat⟩

/-- An address of eight segments of one digit comes back, and no other. -/
theorem parseAscii_toString_iff (a : Ipv6Addr) :
    parseAscii a.toString = .ok (.ok a) ↔ ∀ segment ∈ a.segments.toList, segment < 10 := by
  have hlength : (a.segments.toList.map fun s => decimal s.toNat).length ≤ 8 := by
    rw [List.length_map, Vector.length_toList]
  rw [parseAscii_eq_ok_iff, groups_toString, List.take_of_length_le hlength,
    List.forall₂_map_left_iff, List.forall₂_same]
  exact forall₂_congr fun segment _ => readsAs_decimal_iff segment

/-- No address comes of a text that begins with a bracket. -/
theorem parseAscii_bracket_ne (str : List Char) (a : Ipv6Addr) :
    parseAscii ('[' :: str) ≠ .ok (.ok a) := by
  intro h
  have hread := forall_of_forall₂_readsAs (parseAscii_eq_ok_iff.mp h)
  have hfirst : ('[' :: str).takeWhile (· ≠ ':') = '[' :: str.takeWhile (· ≠ ':') :=
    List.takeWhile_cons_of_pos (by decide)
  rw [groups_eq_cons (List.cons_ne_nil '[' str), hfirst, List.take_succ_cons,
    List.forall_mem_cons] at hread
  obtain ⟨⟨-, c, rest, hsplit, hdigit⟩, -⟩ := hread
  cases hsplit
  exact absurd hdigit (by decide)

end Ipv6Addr

/-! ## Socket addresses -/

theorem Ipv4Addr.toString_ne_nil (a : Ipv4Addr) : a.toString ≠ [] := by
  simp [toString]

theorem Ipv4Addr.colon_not_mem_toString (a : Ipv4Addr) : ':' ∉ a.toString := by
  simp [toString, colon_not_mem_decimal]

/-- An IPv6 address comes only of a text that has one. -/
theorem IpAddr.parseAscii_eq_v6 {getaddrinfo : Resolver} {host : List Char} {a : Ipv6Addr}
    (h : parseAscii getaddrinfo host = .ok (.ok (.v6 a))) :
    Ipv6Addr.parseAscii host = .ok (.ok a) := by
  unfold parseAscii at h
  split at h
  next => cases h
  next =>
    split at h
    next =>
      rcases hparsed : Ipv6Addr.parseAscii host with e | (e | b)
      · rw [hparsed] at h
        cases h
      · rw [hparsed] at h
        cases h
      · rw [hparsed] at h
        cases h
        rfl
    next =>
      rcases hparsed : Ipv4Addr.parseAsciiWith getaddrinfo host with e | b
      · rw [hparsed] at h
        cases h
      · rw [hparsed] at h
        cases h

namespace SocketAddr

variable {getaddrinfo : Resolver}

/-- A port that was written is read back. -/
theorem withPort_decimal (ip : IpAddr) (port : UInt16) :
    withPort ip (decimal port.toNat) = .ok (.ok (ofIp ip port)) := by
  have hport := port.toNat_lt
  have hrange : ¬ ((port.toNat : Int) < 0 ∨ (port.toNat : Int) > 65535) := by omega
  rw [withPort, stoi_decimal]
  simp only [if_neg hrange, Int.toNat_natCast, UInt16.ofNat_toNat]

/-- An IPv4 address comes back. -/
theorem parseAscii_toString_v4 (hquad : ResolvesQuads getaddrinfo) (addr : SocketAddrV4) :
    parseAscii getaddrinfo (SocketAddr.v4 addr).toString = .ok (.ok (.v4 addr)) := by
  have htext : (SocketAddr.v4 addr).toString =
      addr.ip.toString ++ ':' :: decimal addr.port.toNat := by
    simp [toString, SocketAddrV4.toString]
  have hip : Ipv4Addr.ofUInt32 (.ofNat (leNat addr.ip.octets.toList)) = addr.ip := by
    obtain ⟨a, b, c, d, hoctets⟩ := addr.ip.exists_octets
    rw [hoctets]
    exact Ipv4Addr.ofUInt32_leNat a b c d
  have hhost : IpAddr.parseAscii getaddrinfo addr.ip.toString = .ok (.ok (.v4 addr.ip)) := by
    rw [IpAddr.parseAscii, if_neg addr.ip.toString_ne_nil, if_neg addr.ip.colon_not_mem_toString,
      Ipv4Addr.parseAsciiWith, if_neg addr.ip.toString_ne_nil, hquad addr.ip]
    simp only [Except.map, hip]
  rw [htext, parseAscii_append_cons (colon_not_mem_decimal _), hhost]
  exact withPort_decimal _ _

/-- No IPv6 address comes back: it stands in brackets. -/
theorem parseAscii_toString_v6_ne (addr : SocketAddrV6) :
    parseAscii getaddrinfo (SocketAddr.v6 addr).toString ≠ .ok (.ok (.v6 addr)) := by
  have htext : (SocketAddr.v6 addr).toString =
      ('[' :: (addr.ip.toString ++ [']'])) ++ ':' :: decimal addr.port.toNat := by
    simp [toString, SocketAddrV6.toString]
  intro h
  rw [htext, parseAscii_append_cons (colon_not_mem_decimal _)] at h
  rcases hip : IpAddr.parseAscii getaddrinfo ('[' :: (addr.ip.toString ++ [']'])) with
    e | (e | (ip | ip))
  · rw [hip] at h
    cases h
  · rw [hip] at h
    cases h
  · rw [hip] at h
    cases (withPort_decimal _ _).symm.trans h
  · exact Ipv6Addr.parseAscii_bracket_ne _ ip (IpAddr.parseAscii_eq_v6 hip)

end SocketAddr

/-- **Addresses to text and back**: of the IPv6 addresses come back those all of whose segments are
single digits; of the socket addresses with no flow information and no scope, the IPv4 ones. -/
theorem text_roundTrip_iff (getaddrinfo : Resolver) (hquad : ResolvesQuads getaddrinfo) :
    (∀ a : Ipv6Addr, Ipv6Addr.parseAscii a.toString = .ok (.ok a) ↔
      ∀ segment ∈ a.segments.toList, segment < 10) ∧
    ∀ s : SocketAddr, s.Plain →
      (SocketAddr.parseAscii getaddrinfo s.toString = .ok (.ok s) ↔ s.isIpv4 = true) := by
  refine ⟨Ipv6Addr.parseAscii_toString_iff, fun s _ => ?_⟩
  cases s with
  | v4 addr => exact ⟨fun _ => rfl, fun _ => SocketAddr.parseAscii_toString_v4 hquad addr⟩
  | v6 addr =>
    refine ⟨fun h => absurd h (SocketAddr.parseAscii_toString_v6_ne addr), fun h => ?_⟩
    cases h

/-! ## A resolver -/

/-- The octets of a dotted quad, and nothing for any other host. -/
def resolveQuad : Resolver := fun host =>
  match host.splitOn '.' with
  | [a, b, c, d] =>
    if ∀ part ∈ [a, b, c, d], AllDigits 10 part ∧ value 10 part < 256 then
      .ok (.ofNat (leNat ([a, b, c, d].map fun part => .ofNat (value 10 part))))
    else .error (-2)
  | _ => .error (-2)

theorem resolvesQuads_resolveQuad : ResolvesQuads resolveQuad := by
  intro ip
  obtain ⟨a, b, c, d, rfl⟩ := ip.exists_octets
  have htext : (⟨#v[a, b, c, d]⟩ : Ipv4Addr).toString =
      ['.'].intercalate ([a, b, c, d].map fun octet => decimal octet.toNat) := by
    simp [Ipv4Addr.toString, List.intercalate]
  have hsplit : (⟨#v[a, b, c, d]⟩ : Ipv4Addr).toString.splitOn '.' =
      [decimal a.toNat, decimal b.toNat, decimal c.toNat, decimal d.toNat] := by
    rw [htext]
    refine List.splitOn_intercalate '.' (fun part hpart => ?_) (List.cons_ne_nil _ _)
    obtain ⟨octet, -, rfl⟩ := List.mem_map.mp hpart
    exact not_mem_decimal (by decide) octet.toNat
  have hoctet : ∀ octet : UInt8, AllDigits 10 (decimal octet.toNat) ∧
      value 10 (decimal octet.toNat) = octet.toNat :=
    fun octet => ⟨allDigits_toDigits (Nat.le_refl 10) _, value_toDigits _⟩
  have hall : ∀ part ∈ [decimal a.toNat, decimal b.toNat, decimal c.toNat, decimal d.toNat],
      AllDigits 10 part ∧ value 10 part < 256 := by
    simp only [List.forall_mem_cons, (hoctet _).2, (hoctet _).1, true_and]
    exact ⟨a.toNat_lt, b.toNat_lt, c.toNat_lt, d.toNat_lt, fun _ h => absurd h List.not_mem_nil⟩
  simp only [resolveQuad, hsplit, if_pos hall, List.map_cons, List.map_nil, (hoctet _).2,
    UInt8.ofNat_toNat]
  rfl

/-- The unspecified IPv4 address and the IPv6 loopback. -/
theorem text_roundTrip_default :
    SocketAddr.parseAscii resolveQuad SocketAddr.default.toString = .ok (.ok .default) ∧
      Ipv6Addr.parseAscii (Ipv6Addr.toString ⟨#v[0, 0, 0, 0, 0, 0, 0, 1]⟩) =
        .ok (.ok ⟨#v[0, 0, 0, 0, 0, 0, 0, 1]⟩) :=
  have h := text_roundTrip_iff resolveQuad resolvesQuads_resolveQuad
  ⟨(h.2 .default trivial).mpr rfl, (h.1 _).mpr (by simp)⟩

/-- A segment of two digits. -/
theorem not_text_roundTrip : ¬ ∀ getaddrinfo : Resolver, ResolvesQuads getaddrinfo →
    (∀ a : Ipv6Addr, Ipv6Addr.parseAscii a.toString = .ok (.ok a)) ∧
    ∀ s : SocketAddr, s.Plain →
      SocketAddr.parseAscii getaddrinfo s.toString = .ok (.ok s) := by
  intro h
  have hsame := (h resolveQuad resolvesQuads_resolveQuad).1 ⟨#v[10, 0, 0, 0, 0, 0, 0, 1]⟩
  have hdigits := (Ipv6Addr.parseAscii_toString_iff _).mp hsame
  exact absurd (hdigits 10 (by decide)) (by decide)

end ProjectE.Net
