import Mathlib.Data.List.Forall2
import ProjectE.Lib.Numeral
import ProjectE.Net.Sockaddr

/-!
# Addresses from text

`parse_ascii` of the address classes, on texts of any length. `Ipv6Addr::parse_ascii` scans up to
eight groups, each up to the next colon, and leaves the digits to `std::stoul`;
`SocketAddr::parse_ascii` takes what is behind the last colon for the port and leaves it to
`std::stoi`. Neither looks at how far these read, and neither catches what they throw.
`getaddrinfo` is a parameter: the word of the first address it finds, if it finds one.

A call comes to an exception or to a result, which is an error or an address. `parsers_exact_iff`
says of which texts the two parsers throw nothing and accept nothing but addresses.
-/

namespace ProjectE.Net

open Verif

/-- `AddrParseError::Kind`: what the parsers answer where they do not throw. -/
inductive AddrParseError where
  | emptyString
  | invalidIpv4Address
  | invalidIpv6Address
  | missingPort
  | invalidPort
  | invalidIp
deriving DecidableEq, Repr

/-- What a call that parses comes to. -/
abbrev Parsed (α : Type) := Except NumError (Except AddrParseError α)

/-- What the system finds for a host: the `s_addr` of the first address. -/
abbrev Resolver := List Char → Except ErrorCode UInt32

/-- `Ipv4Addr::parse_ascii`: the text goes to the resolver as it is, so host names are accepted as
well as numbers. -/
def Ipv4Addr.parseAsciiWith (getaddrinfo : Resolver) (str : List Char) :
    Except AddrParseError Ipv4Addr :=
  if str = [] then .error .emptyString
  else
    match getaddrinfo str with
    | .error _ => .error .invalidIpv4Address
    | .ok addr => .ok (.ofUInt32 addr)

namespace Ipv6Addr

/-- The loop of `parse_ascii`: at most so many groups of what is left of the text. -/
def scanGroups : Nat → List Char → Parsed (List UInt16)
  | 0, _ => .ok (.ok [])
  | left + 1, str =>
    if str = [] then .ok (.ok [])
    else
      let group := str.takeWhile (· ≠ ':')
      if group.length > 4 then .ok (.error .invalidIpv6Address)
      else
        match stoul group 16 with
        | .error e => .error e
        | .ok n => (scanGroups left (str.drop (group.length + 1))).map (.map (.ofNat n :: ·))

/-- `Ipv6Addr::parse_ascii`: eight groups or an error. An exception of `std::stoul` goes through. -/
def parseAscii (str : List Char) : Parsed Ipv6Addr :=
  if str = [] then .ok (.error .emptyString)
  else
    match scanGroups 8 str with
    | .error e => .error e
    | .ok (.error e) => .ok (.error e)
    | .ok (.ok addr) =>
      if h : addr.length = 8 then .ok (.ok ⟨⟨⟨addr⟩, h⟩⟩) else .ok (.error .invalidIpv6Address)

end Ipv6Addr

/-- `IpAddr`: an address of either family, without a port. -/
inductive IpAddr where
  | v4 (addr : Ipv4Addr)
  | v6 (addr : Ipv6Addr)
deriving DecidableEq, Repr

/-- `IpAddr::parse_ascii`: a colon makes it an IPv6 address, and everything else is left to the IPv4
parser. -/
def IpAddr.parseAscii (getaddrinfo : Resolver) (str : List Char) : Parsed IpAddr :=
  if str = [] then .ok (.error .emptyString)
  else if ':' ∈ str then (Ipv6Addr.parseAscii str).map (.map .v6)
  else .ok ((Ipv4Addr.parseAsciiWith getaddrinfo str).map .v4)

/-- `find_last_of`: the colon before the port is the last one, since an IPv6 address has colons of
its own. -/
def findLastOf (c : Char) : List Char → Option Nat
  | [] => none
  | x :: xs =>
    match findLastOf c xs with
    | some i => some (i + 1)
    | none => if x = c then some 0 else none

namespace SocketAddr

/-- `SocketAddr(ip, port)`: an IPv6 address gets no flow information and no scope. -/
def ofIp (ip : IpAddr) (port : UInt16) : SocketAddr :=
  match ip with
  | .v4 ip => .v4 ⟨ip, port⟩
  | .v6 ip => .v6 ⟨ip, port, 0, 0⟩

/-- `SocketAddr::parse_ascii`: what stands before the last colon is the address, and what stands
behind it the port. Brackets are not known to it. -/
def parseAscii (getaddrinfo : Resolver) (str : List Char) : Parsed SocketAddr :=
  if str = [] then .ok (.error .emptyString)
  else
    match findLastOf ':' str with
    | none => .ok (.error .missingPort)
    | some colon =>
      match IpAddr.parseAscii getaddrinfo (str.take colon) with
      | .error e => .error e
      | .ok (.error e) => .ok (.error e)
      | .ok (.ok ip) =>
        match stoi (str.drop (colon + 1)) 10 with
        | .error e => .error e
        | .ok port =>
          if port < 0 ∨ port > 65535 then .ok (.error .invalidPort)
          else .ok (.ok (ofIp ip (.ofNat port.toNat)))

end SocketAddr

/-! ## What is to be accepted -/

/-- A parser throws nothing, and accepts nothing else. -/
structure ParserLaw {α : Type} (parsed : Parsed α) (Accepted : Prop) : Prop where
  returns : ∃ r, parsed = .ok r
  exact : (∃ a, parsed = .ok (.ok a)) → Accepted

/-- Eight groups of one to four hexadecimal digits, with single colons between them. -/
def EightGroups (str : List Char) : Prop :=
  ∃ gs : List (List Char), gs.length = 8 ∧ (∀ g ∈ gs, g.length ≤ 4 ∧ AllDigits 16 g) ∧
    str = [':'].intercalate gs

/-- What is behind the last colon is a decimal number of sixteen bits. -/
def EndsInPort (str : List Char) : Prop :=
  ∃ host port, str = host ++ ':' :: port ∧ ':' ∉ port ∧ AllDigits 10 port ∧ value 10 port ≤ 65535

/-- The parts between the colons; nothing comes of an empty part at the end. -/
def groups (str : List Char) : List (List Char) :=
  let parts := str.splitOn ':'
  if parts.getLast? = some [] then parts.dropLast else parts

/-- The groups that are converted: the first eight, up to one that is too long. -/
def readGroups (str : List Char) : List (List Char) :=
  ((groups str).take 8).takeWhile (·.length ≤ 4)

/-- Every group that is converted begins with a digit behind space and sign, and where there are
eight of them, they are digits and all of the text. -/
structure Ipv6Addr.ReadsExactly (str : List Char) : Prop where
  converts : ∀ g ∈ readGroups str, StartsNumeral 16 g
  whole : (readGroups str).length = 8 →
    (∀ g ∈ readGroups str, AllDigits 16 g) ∧ (str.splitOn ':').length = 8

/-- Parsing the host throws nothing. -/
def IpAddr.Converts (host : List Char) : Prop :=
  ':' ∈ host → ∀ g ∈ readGroups host, StartsNumeral 16 g

/-- The host is an address, or the system finds one for it. -/
def IpAddr.Found (getaddrinfo : Resolver) (host : List Char) : Prop :=
  if ':' ∈ host then (readGroups host).length = 8
  else host ≠ [] ∧ ∃ addr, getaddrinfo host = .ok addr

/-- Where the text has a port, the host throws nothing; and where an address comes of the host, the
port converts, and is digits alone if its number is one of sixteen bits. -/
def SocketAddr.ReadsExactly (getaddrinfo : Resolver) (str : List Char) : Prop :=
  ∀ host port, str = host ++ ':' :: port → ':' ∉ port → IpAddr.Converts host ∧
    (IpAddr.Found getaddrinfo host →
      ∃ i, stoi port 10 = .ok i ∧ (0 ≤ i → i ≤ 65535 → AllDigits 10 port))

/-! ## The two ways to end without an address -/

theorem not_parserLaw_throw {α : Type} {e : NumError} {Accepted : Prop} :
    ¬ ParserLaw (.error e : Parsed α) Accepted := by
  rintro ⟨⟨r, hr⟩, -⟩
  cases hr

theorem parserLaw_refuse {α : Type} {e : AddrParseError} {Accepted : Prop} :
    ParserLaw (.ok (.error e) : Parsed α) Accepted := by
  refine ⟨⟨_, rfl⟩, ?_⟩
  rintro ⟨a, ha⟩
  cases ha

/-! ## The groups of a text -/

theorem groups_nil : groups [] = [] := by
  rw [groups, List.splitOn_nil]
  rfl

theorem groups_of_not_mem {group : List Char} (hne : group ≠ []) (hcolon : ':' ∉ group) :
    groups group = [group] := by
  have hlast : [group].getLast? ≠ some [] := by
    rw [List.getLast?_singleton, ne_eq, Option.some.injEq]
    exact hne
  rw [groups, List.splitOn_eq_singleton hcolon]
  exact if_neg hlast

theorem groups_append_cons {group : List Char} (hcolon : ':' ∉ group) (rest : List Char) :
    groups (group ++ ':' :: rest) = group :: groups rest := by
  have hparts : rest.splitOn ':' ≠ [] := List.splitOn_ne_nil ':' rest
  have hlast : (group :: rest.splitOn ':').getLast? = (rest.splitOn ':').getLast? := by
    rw [List.getLast?_cons, List.getLast?_eq_some_getLast hparts]
    rfl
  rw [groups, groups, List.splitOn_append_cons_self_of_not_mem hcolon]
  simp only [hlast]
  split
  · exact List.dropLast_cons_of_ne_nil hparts
  · rfl

/-- The groups of a text made of groups. -/
theorem groups_intercalate {gs : List (List Char)} (hne : gs ≠ [])
    (hgs : ∀ g ∈ gs, g ≠ [] ∧ ':' ∉ g) : groups ([':'].intercalate gs) = gs := by
  have hlast : gs.getLast? ≠ some [] := by
    rw [List.getLast?_eq_some_getLast hne, ne_eq, Option.some.injEq]
    exact (hgs _ (List.getLast_mem hne)).1
  rw [groups, List.splitOn_intercalate ':' (fun g hg => (hgs g hg).2) hne]
  exact if_neg hlast

theorem takeWhile_append_cons {group : List Char} (hcolon : ':' ∉ group) (rest : List Char) :
    (group ++ ':' :: rest).takeWhile (· ≠ ':') = group := by
  have hgroup : ∀ c ∈ group, decide (c ≠ ':') = true := by
    intro c hc
    exact decide_eq_true fun heq => hcolon (heq ▸ hc)
  rw [List.takeWhile_append_of_pos hgroup, List.takeWhile_cons_of_neg (by decide),
    List.append_nil]

theorem takeWhile_of_not_mem {group : List Char} (hcolon : ':' ∉ group) :
    group.takeWhile (· ≠ ':') = group := by
  rw [List.takeWhile_eq_self_iff]
  intro c hc
  exact decide_eq_true fun heq => hcolon (heq ▸ hc)

/-- A text that is not empty begins with a group. -/
theorem groups_eq_cons {str : List Char} (hne : str ≠ []) : groups str =
    str.takeWhile (· ≠ ':') :: groups (str.drop ((str.takeWhile (· ≠ ':')).length + 1)) := by
  by_cases hmem : ':' ∈ str
  · obtain ⟨group, rest, rfl, hcolon⟩ := List.eq_append_cons_of_mem hmem
    have hskip : (group ++ ':' :: rest).drop (group.length + 1) = rest := by
      rw [← List.drop_drop, List.drop_left]
      rfl
    rw [takeWhile_append_cons hcolon, hskip, groups_append_cons hcolon]
  · have hskip : str.drop (str.length + 1) = [] := List.drop_eq_nil_of_le (Nat.le_succ _)
    rw [takeWhile_of_not_mem hmem, hskip, groups_nil, groups_of_not_mem hne hmem]

theorem length_le_of_mem_readGroups {str group : List Char} (h : group ∈ readGroups str) :
    group.length ≤ 4 := by
  unfold readGroups at h
  simpa using List.mem_takeWhile_imp h

/-- Where eight groups are converted, none of the first eight is too long. -/
theorem readGroups_of_length {str : List Char} (h : (readGroups str).length = 8) :
    readGroups str = (groups str).take 8 := by
  have hprefix : readGroups str <+: (groups str).take 8 := List.takeWhile_prefix _
  refine hprefix.eq_of_length_le ?_
  rw [h]
  exact List.length_take_le 8 (groups str)

namespace Ipv6Addr

/-- The loop over groups that are there already. -/
def convertGroups : List (List Char) → Parsed (List UInt16)
  | [] => .ok (.ok [])
  | group :: rest =>
    if group.length > 4 then .ok (.error .invalidIpv6Address)
    else
      match stoul group 16 with
      | .error e => .error e
      | .ok n => (convertGroups rest).map (.map (.ofNat n :: ·))

/-- The scanner converts the first groups of the text. -/
theorem scanGroups_eq (left : Nat) (str : List Char) :
    scanGroups left str = convertGroups ((groups str).take left) := by
  induction left generalizing str with
  | zero => rfl
  | succ left ih =>
    unfold scanGroups
    by_cases hnil : str = []
    · rw [if_pos hnil, hnil, groups_nil]
      rfl
    · rw [if_neg hnil, groups_eq_cons hnil, List.take_succ_cons]
      simp only [convertGroups, ih]

/-- The group is no longer than four characters, and this is what is read of it. -/
def ReadsAs (group : List Char) (segment : UInt16) : Prop :=
  group.length ≤ 4 ∧ ∃ n, stoul group 16 = .ok n ∧ segment = .ofNat n

/-- The groups give addresses, where every one of them is read. -/
theorem convertGroups_eq_ok_iff {gs : List (List Char)} {addr : List UInt16} :
    convertGroups gs = .ok (.ok addr) ↔ List.Forall₂ ReadsAs gs addr := by
  induction gs generalizing addr with
  | nil =>
    rw [List.forall₂_nil_left_iff]
    constructor
    · intro h
      cases h
      rfl
    · rintro rfl
      rfl
  | cons group gs ih =>
    rw [List.forall₂_cons_left_iff]
    unfold convertGroups
    constructor
    · intro h
      split at h
      next => cases h
      next hshort =>
        split at h
        next => cases h
        next n hn =>
          rcases hrest : convertGroups gs with e | (e | rest)
          · rw [hrest] at h
            cases h
          · rw [hrest] at h
            cases h
          · rw [hrest] at h
            cases h
            exact ⟨_, rest, ⟨Nat.not_lt.mp hshort, n, hn, rfl⟩, ih.mp hrest, rfl⟩
    · rintro ⟨segment, rest, ⟨hshort, n, hn, rfl⟩, hrest, rfl⟩
      rw [if_neg (Nat.not_lt.mpr hshort), hn, ih.mpr hrest]
      rfl

/-- Nothing is thrown where every group before the first long one converts. -/
theorem convertGroups_eq_ok {gs : List (List Char)} : (∃ r, convertGroups gs = .ok r) ↔
    ∀ group ∈ gs.takeWhile (·.length ≤ 4), ∃ n, stoul group 16 = .ok n := by
  induction gs with
  | nil => exact ⟨fun _ _ h => absurd h List.not_mem_nil, fun _ => ⟨_, rfl⟩⟩
  | cons group gs ih =>
    unfold convertGroups
    by_cases hlong : group.length > 4
    · rw [if_pos hlong, List.takeWhile_cons_of_neg (by simpa using hlong)]
      exact ⟨fun _ _ h => absurd h List.not_mem_nil, fun _ => ⟨_, rfl⟩⟩
    · rw [if_neg hlong, List.takeWhile_cons_of_pos (by simpa using hlong), List.forall_mem_cons,
        ← ih]
      cases hn : stoul group 16 with
      | error e => simp
      | ok n =>
        rcases convertGroups gs with e | r
        · simp [Except.map]
        · simp [Except.map]

/-- What the parser makes of a text is what the loop makes of its first groups. -/
theorem parseAscii_eq (str : List Char) : parseAscii str =
    if str = [] then .ok (.error .emptyString)
    else
      match convertGroups ((groups str).take 8) with
      | .error e => .error e
      | .ok (.error e) => .ok (.error e)
      | .ok (.ok addr) =>
        if h : addr.length = 8 then .ok (.ok ⟨⟨⟨addr⟩, h⟩⟩)
        else .ok (.error .invalidIpv6Address) := by
  rw [parseAscii, scanGroups_eq]

theorem parseAscii_eq_ok_iff {str : List Char} {a : Ipv6Addr} : parseAscii str = .ok (.ok a) ↔
    List.Forall₂ ReadsAs ((groups str).take 8) a.segments.toList := by
  rw [parseAscii_eq, ← convertGroups_eq_ok_iff]
  by_cases hnil : str = []
  · rw [if_pos hnil, hnil, groups_nil]
    constructor
    · intro h
      cases h
    · intro h
      have hlength := congrArg List.length (Except.ok.inj (Except.ok.inj h))
      simp at hlength
  · rw [if_neg hnil]
    rcases convertGroups ((groups str).take 8) with e | (e | addr)
    · simp
    · simp
    · simp only [Except.ok.injEq]
      constructor
      · intro h
        split at h
        next => cases h; rfl
        next => cases h
      · rintro rfl
        rw [dif_pos a.segments.length_toList]
        rfl

theorem stoul_group {group : List Char} (h : group.length ≤ 4) :
    (∃ n, stoul group 16 = .ok n) ↔ StartsNumeral 16 group := by
  refine stoul_eq_ok_iff (by decide) ?_
  exact Nat.le_trans (Nat.pow_le_pow_right (by decide) h) (by decide)

/-- Nothing is thrown where every group that is converted begins with a digit. -/
theorem parseAscii_returns_iff {str : List Char} :
    (∃ r, parseAscii str = .ok r) ↔ ∀ g ∈ readGroups str, StartsNumeral 16 g := by
  have hconverts : (∀ g ∈ readGroups str, ∃ n, stoul g 16 = .ok n) ↔
      ∀ g ∈ readGroups str, StartsNumeral 16 g := by
    exact forall₂_congr fun g hg => stoul_group (length_le_of_mem_readGroups hg)
  rw [← hconverts, readGroups, ← convertGroups_eq_ok, parseAscii_eq]
  by_cases hnil : str = []
  · rw [if_pos hnil, hnil, groups_nil]
    exact ⟨fun _ => ⟨_, rfl⟩, fun _ => ⟨_, rfl⟩⟩
  · rw [if_neg hnil]
    rcases convertGroups ((groups str).take 8) with e | (e | addr)
    · simp
    · simp
    · refine ⟨fun _ => ⟨_, rfl⟩, fun _ => ?_⟩
      simp only
      split
      · exact ⟨_, rfl⟩
      · exact ⟨_, rfl⟩

theorem exists_forall₂_readsAs {gs : List (List Char)}
    (h : ∀ g ∈ gs, g.length ≤ 4 ∧ StartsNumeral 16 g) :
    ∃ addr, List.Forall₂ ReadsAs gs addr := by
  induction gs with
  | nil => exact ⟨[], .nil⟩
  | cons group gs ih =>
    rw [List.forall_mem_cons] at h
    obtain ⟨⟨hshort, hstarts⟩, hrest⟩ := h
    obtain ⟨n, hn⟩ := (stoul_group hshort).mpr hstarts
    obtain ⟨addr, haddr⟩ := ih hrest
    exact ⟨_, .cons ⟨hshort, n, hn, rfl⟩ haddr⟩

theorem forall_of_forall₂_readsAs {gs : List (List Char)} {addr : List UInt16}
    (h : List.Forall₂ ReadsAs gs addr) : ∀ g ∈ gs, g.length ≤ 4 ∧ StartsNumeral 16 g := by
  induction h with
  | nil => exact fun _ hg => absurd hg List.not_mem_nil
  | cons hread _ ih =>
    obtain ⟨hshort, n, hn, -⟩ := hread
    exact List.forall_mem_cons.mpr ⟨⟨hshort, (stoul_group hshort).mp ⟨n, hn⟩⟩, ih⟩

/-- An address comes of the text where nothing is thrown and eight groups are converted. -/
theorem parseAscii_ok_iff (str : List Char) : (∃ a, parseAscii str = .ok (.ok a)) ↔
    (∀ g ∈ readGroups str, StartsNumeral 16 g) ∧ (readGroups str).length = 8 := by
  constructor
  · rintro ⟨a, ha⟩
    have hread := parseAscii_eq_ok_iff.mp ha
    have hgroups := forall_of_forall₂_readsAs hread
    have hall : readGroups str = (groups str).take 8 :=
      List.takeWhile_eq_self_iff.mpr fun g hg => decide_eq_true (hgroups g hg).1
    rw [hall]
    refine ⟨fun g hg => (hgroups g hg).2, ?_⟩
    rw [hread.length_eq, Vector.length_toList]
  · rintro ⟨hstarts, hlength⟩
    have hall := readGroups_of_length hlength
    have hread : ∀ g ∈ (groups str).take 8, g.length ≤ 4 ∧ StartsNumeral 16 g := fun g hg =>
      ⟨length_le_of_mem_readGroups (hall ▸ hg), hstarts g (hall ▸ hg)⟩
    obtain ⟨addr, haddr⟩ := exists_forall₂_readsAs hread
    have hsize : addr.length = 8 := by rw [← haddr.length_eq, ← hall, hlength]
    exact ⟨⟨⟨⟨addr⟩, hsize⟩⟩, parseAscii_eq_ok_iff.mpr haddr⟩

/-- The groups of a text of eight groups of digits are these. -/
theorem readGroups_intercalate {gs : List (List Char)} (hlength : gs.length = 8)
    (hgs : ∀ g ∈ gs, g.length ≤ 4 ∧ AllDigits 16 g) :
    ([':'].intercalate gs).splitOn ':' = gs ∧ readGroups ([':'].intercalate gs) = gs := by
  have hcolon : ∀ g ∈ gs, ':' ∉ g := fun g hg hmem =>
    absurd ((hgs g hg).2.digit ':' hmem) (by decide)
  have hne : gs ≠ [] := by
    rintro rfl
    cases hlength
  have hgroups : groups ([':'].intercalate gs) = gs :=
    groups_intercalate hne fun g hg => ⟨(hgs g hg).2.ne_nil, hcolon g hg⟩
  refine ⟨List.splitOn_intercalate ':' hcolon hne, ?_⟩
  rw [readGroups, hgroups, List.take_of_length_le (Nat.le_of_eq hlength)]
  exact List.takeWhile_eq_self_iff.mpr fun g hg => decide_eq_true (hgs g hg).1

/-- Eight groups and not one part more: nothing was dropped at the end. -/
theorem readGroups_eq_splitOn {str : List Char} (hread : (readGroups str).length = 8)
    (hparts : (str.splitOn ':').length = 8) : readGroups str = str.splitOn ':' := by
  have hall := readGroups_of_length hread
  have hgroups : groups str = str.splitOn ':' := by
    unfold groups
    simp only
    split
    next hlast =>
      -- One part fewer than eight cannot give eight groups.
      have hfew : (groups str).length = 7 := by
        rw [groups]
        simp only [hlast, if_true, List.length_dropLast, hparts]
      rw [hall, List.length_take, hfew] at hread
      cases hread
    next => rfl
  rw [hall, hgroups]
  exact List.take_of_length_le (Nat.le_of_eq hparts)

theorem parserLaw_iff (str : List Char) :
    ParserLaw (parseAscii str) (EightGroups str) ↔ ReadsExactly str := by
  constructor
  · rintro ⟨hreturns, hexact⟩
    have hstarts := parseAscii_returns_iff.mp hreturns
    refine ⟨hstarts, fun hlength => ?_⟩
    obtain ⟨gs, hsize, hgs, rfl⟩ := hexact ((parseAscii_ok_iff _).mpr ⟨hstarts, hlength⟩)
    obtain ⟨hsplit, hread⟩ := readGroups_intercalate hsize hgs
    rw [hread, hsplit]
    exact ⟨fun g hg => (hgs g hg).2, hsize⟩
  · rintro ⟨hstarts, hwhole⟩
    refine ⟨parseAscii_returns_iff.mpr hstarts, fun hok => ?_⟩
    have hlength := ((parseAscii_ok_iff str).mp hok).2
    obtain ⟨hdigits, hparts⟩ := hwhole hlength
    have hsplit := readGroups_eq_splitOn hlength hparts
    refine ⟨readGroups str, hlength, fun g hg => ?_, ?_⟩
    · exact ⟨length_le_of_mem_readGroups hg, hdigits g hg⟩
    · rw [hsplit, List.intercalate_splitOn]

end Ipv6Addr

/-! ## Hosts and ports -/

theorem findLastOf_append_cons {c : Char} {after : List Char} (h : findLastOf c after = none)
    (before : List Char) : findLastOf c (before ++ c :: after) = some before.length := by
  induction before with
  | nil => simp only [List.nil_append, findLastOf, h, if_true, List.length_nil]
  | cons x before ih => simp only [List.cons_append, findLastOf, ih, List.length_cons]

theorem findLastOf_eq_none_iff {c : Char} {cs : List Char} : findLastOf c cs = none ↔ c ∉ cs := by
  induction cs with
  | nil => simp [findLastOf]
  | cons x cs ih =>
    simp only [findLastOf]
    rcases hrest : findLastOf c cs with _ | i
    · simp [ih.mp hrest, eq_comm]
    · have hmem : c ∈ cs := by
        by_contra hnot
        rw [ih.mpr hnot] at hrest
        cases hrest
      simp [hmem]

namespace IpAddr

variable {getaddrinfo : Resolver} {host : List Char}

theorem parseAscii_returns_iff (getaddrinfo : Resolver) (host : List Char) :
    (∃ r, parseAscii getaddrinfo host = .ok r) ↔ Converts host := by
  unfold parseAscii Converts
  by_cases hnil : host = []
  · rw [if_pos hnil, hnil]
    exact ⟨fun _ h => absurd h List.not_mem_nil, fun _ => ⟨_, rfl⟩⟩
  · rw [if_neg hnil]
    by_cases hcolon : ':' ∈ host
    · rw [if_pos hcolon, ← Ipv6Addr.parseAscii_returns_iff]
      rcases Ipv6Addr.parseAscii host with e | r
      · simp [Except.map, hcolon]
      · simp [Except.map]
    · rw [if_neg hcolon]
      exact ⟨fun _ h => absurd h hcolon, fun _ => ⟨_, rfl⟩⟩

theorem parseAscii_ok_iff (hconverts : Converts host) :
    (∃ ip, parseAscii getaddrinfo host = .ok (.ok ip)) ↔ Found getaddrinfo host := by
  unfold parseAscii Found
  by_cases hnil : host = []
  · simp [hnil]
  · rw [if_neg hnil]
    by_cases hcolon : ':' ∈ host
    · have hstarts := hconverts hcolon
      have hread := Ipv6Addr.parseAscii_ok_iff host
      rw [if_pos hcolon, if_pos hcolon]
      constructor
      · rintro ⟨ip, hip⟩
        rcases hparsed : Ipv6Addr.parseAscii host with e | (e | a)
        · rw [hparsed] at hip
          cases hip
        · rw [hparsed] at hip
          cases hip
        · exact (hread.mp ⟨a, hparsed⟩).2
      · intro hlength
        obtain ⟨a, ha⟩ := hread.mpr ⟨hstarts, hlength⟩
        rw [ha]
        exact ⟨_, rfl⟩
    · rw [if_neg hcolon, if_neg hcolon, Ipv4Addr.parseAsciiWith, if_neg hnil]
      rcases getaddrinfo host with e | addr
      · simp [Except.map]
      · simp [Except.map, hnil]

end IpAddr

namespace SocketAddr

variable {getaddrinfo : Resolver} {host port str : List Char}

theorem parseAscii_of_not_mem (getaddrinfo : Resolver) (h : ':' ∉ str) :
    ∃ e, parseAscii getaddrinfo str = .ok (.error e) := by
  rw [parseAscii, findLastOf_eq_none_iff.mpr h]
  split
  · exact ⟨_, rfl⟩
  · exact ⟨_, rfl⟩

/-- What is made of an address and the text of its port. -/
def withPort (ip : IpAddr) (port : List Char) : Parsed SocketAddr :=
  match stoi port 10 with
  | .error e => .error e
  | .ok n =>
    if n < 0 ∨ n > 65535 then .ok (.error .invalidPort)
    else .ok (.ok (ofIp ip (.ofNat n.toNat)))

/-- The last colon divides the text. -/
theorem parseAscii_append_cons (hport : ':' ∉ port) :
    parseAscii getaddrinfo (host ++ ':' :: port) =
      match IpAddr.parseAscii getaddrinfo host with
      | .error e => .error e
      | .ok (.error e) => .ok (.error e)
      | .ok (.ok ip) => withPort ip port := by
  have hne : host ++ ':' :: port ≠ [] := by simp
  have hlast := findLastOf_append_cons (findLastOf_eq_none_iff.mpr hport) host
  have hskip : (host ++ ':' :: port).drop (host.length + 1) = port := by
    rw [← List.drop_drop, List.drop_left]
    rfl
  rw [parseAscii, if_neg hne, hlast]
  simp only [List.take_left, hskip, withPort]

theorem exists_last_colon (h : ':' ∈ str) :
    ∃ host port, str = host ++ ':' :: port ∧ ':' ∉ port := by
  obtain ⟨before, after, hsplit, hcolon⟩ := List.eq_append_cons_of_mem (List.mem_reverse.mpr h)
  refine ⟨after.reverse, before.reverse, ?_, fun hmem => hcolon (List.mem_reverse.mp hmem)⟩
  rw [← List.reverse_reverse str, hsplit, List.reverse_append, List.reverse_cons, List.append_assoc]
  rfl

theorem last_colon_unique {host' port' : List Char} (hport : ':' ∉ port) (hport' : ':' ∉ port')
    (h : host ++ ':' :: port = host' ++ ':' :: port') : host = host' ∧ port = port' := by
  have hlength : host.length = host'.length := by
    have hlast := findLastOf_append_cons (findLastOf_eq_none_iff.mpr hport) host
    rw [h, findLastOf_append_cons (findLastOf_eq_none_iff.mpr hport') host'] at hlast
    exact (Option.some.inj hlast).symm
  obtain ⟨hhost, hrest⟩ := List.append_inj h hlength
  exact ⟨hhost, (List.cons.inj hrest).2⟩

theorem endsInPort_append_cons_iff (hport : ':' ∉ port) :
    EndsInPort (host ++ ':' :: port) ↔ AllDigits 10 port ∧ value 10 port ≤ 65535 := by
  constructor
  · rintro ⟨host', port', hsplit, hport', hdigits, hvalue⟩
    obtain ⟨-, rfl⟩ := last_colon_unique hport hport' hsplit
    exact ⟨hdigits, hvalue⟩
  · rintro ⟨hdigits, hvalue⟩
    exact ⟨host, port, rfl, hport, hdigits, hvalue⟩

/-- A port that is read to its end where its number is one. -/
theorem parserLaw_withPort_iff (ip : IpAddr) (port : List Char) :
    ParserLaw (withPort ip port) (AllDigits 10 port ∧ value 10 port ≤ 65535) ↔
      ∃ i, stoi port 10 = .ok i ∧ (0 ≤ i → i ≤ 65535 → AllDigits 10 port) := by
  unfold withPort
  rcases hi : stoi port 10 with e | i
  · refine iff_of_false not_parserLaw_throw ?_
    rintro ⟨i, hok, -⟩
    cases hok
  · by_cases hrange : i < 0 ∨ i > 65535
    · simp only [if_pos hrange]
      refine iff_of_true parserLaw_refuse ⟨i, rfl, fun h₀ h₁ => ?_⟩
      omega
    · simp only [if_neg hrange]
      constructor
      · rintro ⟨-, hexact⟩
        exact ⟨i, rfl, fun _ _ => (hexact ⟨_, rfl⟩).1⟩
      · rintro ⟨i', hi', hdigits⟩
        cases hi'
        have hall := hdigits (by omega) (by omega)
        have hvalue := stoi_eq_value hall hi
        exact ⟨⟨_, rfl⟩, fun _ => ⟨hall, by omega⟩⟩

/-- The law, at a text whose last colon is this one. -/
theorem parserLaw_append_cons_iff (hport : ':' ∉ port) :
    ParserLaw (parseAscii getaddrinfo (host ++ ':' :: port)) (EndsInPort (host ++ ':' :: port)) ↔
      IpAddr.Converts host ∧ (IpAddr.Found getaddrinfo host →
        ∃ i, stoi port 10 = .ok i ∧ (0 ≤ i → i ≤ 65535 → AllDigits 10 port)) := by
  have hhost := IpAddr.parseAscii_returns_iff getaddrinfo host
  rw [endsInPort_append_cons_iff hport, parseAscii_append_cons hport]
  rcases hip : IpAddr.parseAscii getaddrinfo host with e | (e | ip)
  · refine iff_of_false not_parserLaw_throw ?_
    rintro ⟨hconverts, -⟩
    obtain ⟨r, hr⟩ := hhost.mpr hconverts
    rw [hip] at hr
    cases hr
  · have hconverts := hhost.mp ⟨_, hip⟩
    refine iff_of_true parserLaw_refuse ⟨hconverts, fun hfound => ?_⟩
    obtain ⟨ip, hok⟩ := (IpAddr.parseAscii_ok_iff hconverts).mpr hfound
    rw [hip] at hok
    cases hok
  · have hconverts := hhost.mp ⟨_, hip⟩
    have hfound := (IpAddr.parseAscii_ok_iff hconverts).mp ⟨ip, hip⟩
    rw [parserLaw_withPort_iff]
    exact ⟨fun hread => ⟨hconverts, fun _ => hread⟩, fun hreads => hreads.2 hfound⟩

theorem parserLaw_iff (getaddrinfo : Resolver) (str : List Char) :
    ParserLaw (parseAscii getaddrinfo str) (EndsInPort str) ↔ ReadsExactly getaddrinfo str := by
  by_cases hcolon : ':' ∈ str
  · obtain ⟨host, port, rfl, hport⟩ := exists_last_colon hcolon
    rw [parserLaw_append_cons_iff hport]
    constructor
    · rintro hlaw host' port' hsplit hport'
      obtain ⟨rfl, rfl⟩ := last_colon_unique hport hport' hsplit
      exact hlaw
    · intro hreads
      exact hreads host port rfl hport
  · obtain ⟨e, he⟩ := parseAscii_of_not_mem getaddrinfo hcolon
    rw [he]
    refine iff_of_true parserLaw_refuse fun host port hsplit => ?_
    rw [hsplit] at hcolon
    exact absurd List.mem_append_cons_self hcolon

end SocketAddr

/-- **Parsers that are total and exact**: the texts of which the two parsers throw nothing and
accept nothing but what they should are these. -/
theorem parsers_exact_iff (getaddrinfo : Resolver) (str : List Char) :
    (ParserLaw (Ipv6Addr.parseAscii str) (EightGroups str) ↔ Ipv6Addr.ReadsExactly str) ∧
      (ParserLaw (SocketAddr.parseAscii getaddrinfo str) (EndsInPort str) ↔
        SocketAddr.ReadsExactly getaddrinfo str) :=
  ⟨Ipv6Addr.parserLaw_iff str, SocketAddr.parserLaw_iff getaddrinfo str⟩

/-- Two colons, where the first group is empty. -/
theorem not_parsers_exact : ¬ ∀ (getaddrinfo : Resolver) (str : List Char),
    ParserLaw (Ipv6Addr.parseAscii str) (EightGroups str) ∧
      ParserLaw (SocketAddr.parseAscii getaddrinfo str) (EndsInPort str) := by
  intro h
  obtain ⟨r, hr⟩ := (h (fun _ => .error 1) [':', ':']).1.returns
  cases hr

end ProjectE.Net
