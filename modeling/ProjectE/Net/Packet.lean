import ProjectE.Lib.Word
import ProjectE.Lib.Framing

/-!
# Packets

A packet is a header and a body. On the wire the header is the memory of `Packet::Header`, eight
bytes on the usual layout: the type (4), the size (2), and two bytes of padding that no statement
writes. `Packet::deserialize(type, data)` declares an uninitialised packet and fills type, size and
body in, so the padding is whatever the memory held: its model takes that as an argument. The size
field has 16 bits and takes the body's length by assignment, modulo `2 ^ 16`.

The two readers, over a vector and over a span, are the same text, written twice. The reader is a
framing (`Packet.framing`), so everything said of framed streams holds of the parse-and-consume
loop.
-/

namespace ProjectE.Net

open Verif

/-- `Packet::MsgType`. -/
abbrev MsgType := UInt32

/-- `Packet::SystemTypes`: the two types of the handshake, of which the server sends the first and
the client the second. -/
def SystemTypes.ASKUDP_NUMBER : MsgType := 1
/-- The type of the answer. -/
def SystemTypes.ASKUDP_RESPONSE : MsgType := 2

/-- `Packet::Header`, with the two bytes the layout adds at its end. They are sent with it, and hold
whatever was there. -/
structure Header where
  type : MsgType
  size : UInt16
  padding : UInt16
deriving DecidableEq, Repr

namespace Header

/-- `sizeof(Header)`. -/
def sizeof : Nat := 8

/-- The header's memory. -/
def bytes (h : Header) : List UInt8 :=
  leBytes 4 h.type.toNat ++ (leBytes 2 h.size.toNat ++ leBytes 2 h.padding.toNat)

/-- A header whose memory is copied from eight bytes. -/
def ofBytes (bs : List UInt8) : Header where
  type := UInt32.ofNat (leNat (bs.take 4))
  size := UInt16.ofNat (leNat ((bs.drop 4).take 2))
  padding := UInt16.ofNat (leNat (bs.drop 6))

@[simp] theorem length_bytes (h : Header) : h.bytes.length = sizeof := by
  simp only [bytes, List.length_append, length_leBytes, sizeof]

theorem ofBytes_bytes (h : Header) : ofBytes h.bytes = h := by
  have ht : h.type.toNat < 256 ^ 4 := h.type.toNat_lt
  have hs : h.size.toNat < 256 ^ 2 := h.size.toNat_lt
  have hp : h.padding.toNat < 256 ^ 2 := h.padding.toNat_lt
  have h4 : h.bytes.take 4 = leBytes 4 h.type.toNat := List.take_left' (length_leBytes 4 _)
  have hdrop4 : h.bytes.drop 4 = leBytes 2 h.size.toNat ++ leBytes 2 h.padding.toNat :=
    List.drop_left' (length_leBytes 4 _)
  have h2 : (h.bytes.drop 4).take 2 = leBytes 2 h.size.toNat := by
    rw [hdrop4]
    exact List.take_left' (length_leBytes 2 _)
  have hdrop6 : h.bytes.drop 6 = leBytes 2 h.padding.toNat := by
    rw [show (6 : Nat) = 4 + 2 from rfl, ← List.drop_drop, hdrop4]
    exact List.drop_left' (length_leBytes 2 _)
  simp only [ofBytes, h4, h2, hdrop6, leNat_leBytes ht, leNat_leBytes hs, leNat_leBytes hp,
    UInt32.ofNat_toNat, UInt16.ofNat_toNat]

theorem bytes_ofBytes {bs : List UInt8} (h : bs.length = sizeof) : (ofBytes bs).bytes = bs := by
  have hsize : sizeof = 8 := rfl
  have l4 : (bs.take 4).length = 4 := by rw [List.length_take]; omega
  have l2 : ((bs.drop 4).take 2).length = 2 := by rw [List.length_take, List.length_drop]; omega
  have lp : (bs.drop 6).length = 2 := by rw [List.length_drop]; omega
  have b4 := leNat_lt (bs.take 4)
  have b2 := leNat_lt ((bs.drop 4).take 2)
  have bp := leNat_lt (bs.drop 6)
  rw [l4] at b4
  rw [l2] at b2
  rw [lp] at bp
  have hrest : (bs.drop 4).take 2 ++ bs.drop 6 = bs.drop 4 := by
    rw [show (6 : Nat) = 4 + 2 from rfl, ← List.drop_drop, List.take_append_drop]
  simp only [bytes, ofBytes]
  rw [UInt32.toNat_ofNat_of_lt' b4, UInt16.toNat_ofNat_of_lt' b2, UInt16.toNat_ofNat_of_lt' bp,
    leBytes_leNat l4, leBytes_leNat l2, leBytes_leNat lp, hrest, List.take_append_drop]

end Header

/-- `Packet`: a header, and the bytes behind it. Nothing in the type keeps the size of the header
that of the bytes. -/
structure Packet where
  header : Header
  data : List UInt8
deriving DecidableEq, Repr

namespace Packet

/-- `size()`: the bytes of the image, by the data there are. -/
def size (p : Packet) : Nat := Header.sizeof + p.data.length

/-- `serialize()`: the memory of the header, and the data. -/
def serialize (p : Packet) : List UInt8 := p.header.bytes ++ p.data

/-- `Packet::deserialize(type, data)`: `garbage` is what the padding of the uninitialised packet
holds. -/
def deserializeTyped (garbage : UInt16) (type : MsgType) (data : List UInt8) : Packet where
  header := { type := type, size := UInt16.ofNat data.length, padding := garbage }
  data := data

/-- `Packet::deserialize(span)`: the first packet of the bytes, if it is there to its end. What
comes behind it is left alone. -/
def deserialize (data : List UInt8) : Option Packet :=
  if data.length < Header.sizeof then none
  else
    let header := Header.ofBytes (data.take Header.sizeof)
    if data.length < Header.sizeof + header.size.toNat then none
    else some ⟨header, (data.drop Header.sizeof).take header.size.toNat⟩

/-- `Packet::deserialize(vector)`: the same test of the length, written out again. -/
def deserializeVector (data : List UInt8) : Option Packet :=
  if data.length < Header.sizeof then none
  else
    let header := Header.ofBytes (data.take Header.sizeof)
    if data.length < Header.sizeof + header.size.toNat then none
    else some ⟨header, (data.drop Header.sizeof).take header.size.toNat⟩

/-- The header tells the body's length. -/
def WF (p : Packet) : Prop := p.header.size.toNat = p.data.length

@[simp] theorem length_serialize (p : Packet) : p.serialize.length = p.size := by
  simp only [serialize, List.length_append, Header.length_bytes, size]

theorem size_pos (p : Packet) : 0 < p.size := Nat.lt_of_lt_of_le (by decide) (Nat.le_add_right _ _)

theorem deserializeTyped_wf_iff (garbage : UInt16) (type : MsgType) (data : List UInt8) :
    (deserializeTyped garbage type data).WF ↔ data.length < 2 ^ 16 := by
  have hlt := (UInt16.ofNat data.length).toNat_lt
  simp only [WF, deserializeTyped]
  constructor
  · intro h
    rwa [h] at hlt
  · exact UInt16.toNat_ofNat_of_lt'

/-! ## Reading -/

/-- The header is read, and as much of the body as it announces. -/
theorem deserialize_header (h : Header) (body : List UInt8) (hb : h.size.toNat ≤ body.length) :
    deserialize (h.bytes ++ body) = some ⟨h, body.take h.size.toNat⟩ := by
  have hlen : (h.bytes ++ body).length = Header.sizeof + body.length := by
    rw [List.length_append, Header.length_bytes]
  have htake : (h.bytes ++ body).take Header.sizeof = h.bytes :=
    List.take_left' (Header.length_bytes h)
  have hdrop : (h.bytes ++ body).drop Header.sizeof = body :=
    List.drop_left' (Header.length_bytes h)
  have hnot : ¬ (h.bytes ++ body).length < Header.sizeof := by omega
  have hnot' : ¬ (h.bytes ++ body).length < Header.sizeof + h.size.toNat := by omega
  simp only [deserialize, if_neg hnot, htake, Header.ofBytes_bytes, if_neg hnot', hdrop]

/-- A packet whose header tells its length is read back from its own image, whatever follows. -/
theorem deserialize_serialize_append {p : Packet} (hp : p.WF) (rest : List UInt8) :
    deserialize (p.serialize ++ rest) = some p := by
  have hb : p.header.size.toNat ≤ (p.data ++ rest).length := by
    rw [hp, List.length_append]
    exact Nat.le_add_right _ _
  rw [serialize, List.append_assoc, deserialize_header p.header _ hb, hp, List.take_left]

/-- What was read: the packet's header tells its length, and its image is the front of the input. -/
theorem deserialize_some {bs : List UInt8} {p : Packet} (h : deserialize bs = some p) :
    p.WF ∧ p.size ≤ bs.length ∧ p.serialize = bs.take p.size := by
  unfold deserialize at h
  split at h
  · cases h
  next hlen =>
  simp only at h
  split at h
  · cases h
  next hsize =>
  cases h
  have hl : (bs.take Header.sizeof).length = Header.sizeof := by rw [List.length_take]; omega
  have hd : ((bs.drop Header.sizeof).take
      (Header.ofBytes (bs.take Header.sizeof)).size.toNat).length =
      (Header.ofBytes (bs.take Header.sizeof)).size.toNat := by
    rw [List.length_take, List.length_drop]
    omega
  refine ⟨hd.symm, ?_, ?_⟩
  · simp only [size, hd]
    omega
  · simp only [serialize, size, hd, Header.bytes_ofBytes hl, List.take_add]

theorem deserialize_append {bs : List UInt8} {p : Packet} (h : deserialize bs = some p)
    (more : List UInt8) : deserialize (bs ++ more) = some p := by
  obtain ⟨hwf, hle, himg⟩ := deserialize_some h
  have hsplit : bs ++ more = p.serialize ++ (bs.drop p.size ++ more) := by
    rw [himg, ← List.append_assoc, List.take_append_drop]
  rw [hsplit, deserialize_serialize_append hwf]

/-- The reader as a framing of byte streams. -/
def framing : Framing UInt8 Packet where
  decode := deserialize
  size := size
  size_pos := fun {_ p} _ => p.size_pos
  size_le := fun h => (deserialize_some h).2.1
  decode_append := fun h => deserialize_append h

theorem deserializeVector_eq (data : List UInt8) : deserializeVector data = deserialize data := rfl

theorem sizeof_le_size (p : Packet) : Header.sizeof ≤ p.size := Nat.le_add_right _ _

/-- **Packets can be parsed as they arrive.** Both readers take a packet off the front of its image,
whatever follows, and off no shorter front; they agree on every input, what they read is within it
and has a header at least, and so the parse-and-consume loop ends. -/
theorem deserialize_incremental :
    (∀ p : Packet, p.WF →
      (∀ rest, deserialize (p.serialize ++ rest) = some p ∧
        deserializeVector (p.serialize ++ rest) = some p) ∧
      ∀ n < p.serialize.length, deserialize (p.serialize.take n) = none ∧
        deserializeVector (p.serialize.take n) = none) ∧
    ∀ data : List UInt8, deserializeVector data = deserialize data ∧
      (∀ q, deserialize data = some q → q.size ≤ data.length ∧ 8 ≤ q.size) ∧
      ∃ packets rest, framing.splitWithin (data.length / 8) data = some (packets, rest) ∧
        deserialize rest = none := by
  refine ⟨fun p hp => ⟨fun rest => ?_, fun n hn => ?_⟩,
    fun data => ⟨deserializeVector_eq data, fun q hq => ?_, ?_⟩⟩
  · have hread := deserialize_serialize_append hp rest
    exact ⟨hread, (deserializeVector_eq _).trans hread⟩
  · have hwhole : framing.decode p.serialize = some p := by
      have hread := deserialize_serialize_append hp []
      rwa [List.append_nil] at hread
    rw [length_serialize] at hn
    have hcut := Framing.decode_take_of_lt hwhole hn
    exact ⟨hcut, (deserializeVector_eq _).trans hcut⟩
  · exact ⟨(deserialize_some hq).2.1, q.sizeof_le_size⟩
  · have hturns : data.length < 8 * (data.length / 8 + 1) := by omega
    exact ⟨_, _, framing.splitWithin_eq (fun {_ p} _ => p.sizeof_le_size) hturns,
      framing.decode_splitAll_snd data⟩

/-- Nine of the ten bytes of a packet are not read. -/
theorem deserialize_incremental_ten :
    deserialize ((⟨⟨1, 2, 0⟩, [7, 9]⟩ : Packet).serialize.take 9) = none :=
  ((deserialize_incremental.1 ⟨⟨1, 2, 0⟩, [7, 9]⟩ rfl).2 9 (by decide)).1

/-- Well-formed packets sent one after the other are taken out one after the other. -/
theorem splits_serialize {ps : List Packet} (h : ∀ p ∈ ps, p.WF) (rest : List UInt8) :
    framing.Splits (ps.flatMap serialize ++ rest) ps rest :=
  Framing.splits_flatMap (fun p hp more => deserialize_serialize_append (h p hp) more)
    (fun p _ => (length_serialize p).symm) rest

/-- A span too short for a header holds no packet. -/
theorem deserialize_short {bs : List UInt8} (h : bs.length < Header.sizeof) :
    deserialize bs = none := by
  rw [deserialize, if_pos h]

theorem deserialize_nil : deserialize [] = none := rfl

/-! ## Structs -/

/-- A plain struct and its memory: a fixed number of bytes, in bijection with its values. -/
class Pod (T : Type) where
  sizeof : Nat
  toBytes : T → List UInt8
  ofBytes : List UInt8 → T
  length_toBytes : ∀ t, (toBytes t).length = sizeof
  ofBytes_toBytes : ∀ t, ofBytes (toBytes t) = t
  toBytes_ofBytes : ∀ bs, bs.length = sizeof → toBytes (ofBytes bs) = bs

/-- `serialize(T)`: the memory of a struct. -/
def serializeStruct {T : Type} [Pod T] (data : T) : List UInt8 := Pod.toBytes data

/-- `deserialize<T>`: exactly as many bytes as the struct has. -/
def deserializeStruct {T : Type} [Pod T] (data : List UInt8) : Option T :=
  if data.length ≠ Pod.sizeof T then none else some (Pod.ofBytes data)

/-- A struct is read from exactly its own image. -/
theorem deserializeStruct_eq_some_iff {T : Type} [Pod T] {data : List UInt8} {t : T} :
    deserializeStruct data = some t ↔ data = serializeStruct t := by
  unfold deserializeStruct serializeStruct
  constructor
  · intro h
    split at h
    · cases h
    next hlen =>
    cases h
    exact (Pod.toBytes_ofBytes data (not_not.mp hlen)).symm
  · rintro rfl
    rw [if_neg (not_not.mpr (Pod.length_toBytes t)), Pod.ofBytes_toBytes]

end Packet

/-! ## Messages on a stream -/

/-- A message as the callers of `Packet::deserialize(type, data)` give it. -/
structure Message where
  type : MsgType
  data : List UInt8
deriving DecidableEq, Repr

/-- The message a packet carries. -/
def Packet.message (p : Packet) : Message := ⟨p.header.type, p.data⟩

/-- The packets built from a sequence of messages; `garbage` is the padding of each. -/
def packetsOf : (garbage : Nat → UInt16) → List Message → List Packet
  | _, [] => []
  | g, m :: ms => Packet.deserializeTyped (g 0) m.type m.data :: packetsOf (fun i => g (i + 1)) ms

/-- The stream their images make. -/
def wireOf (garbage : Nat → UInt16) (ms : List Message) : List UInt8 :=
  (packetsOf garbage ms).flatMap Packet.serialize

theorem packetsOf_message : ∀ (g : Nat → UInt16) (ms : List Message),
    (packetsOf g ms).map Packet.message = ms
  | _, [] => rfl
  | g, m :: ms => by
    rw [packetsOf, List.map_cons, packetsOf_message]
    rfl

theorem packetsOf_wf : ∀ {ms : List Message}, (∀ m ∈ ms, m.data.length < 2 ^ 16) →
    ∀ (g : Nat → UInt16), ∀ p ∈ packetsOf g ms, p.WF
  | [], _, _, p, hp => absurd hp List.not_mem_nil
  | m :: ms, h, g, p, hp => by
    rcases List.mem_cons.mp hp with rfl | hp
    · exact (Packet.deserializeTyped_wf_iff _ _ _).mpr (h m List.mem_cons_self)
    · exact packetsOf_wf (fun m' hm' => h m' (List.mem_cons_of_mem _ hm')) _ p hp

/-- Read back from the stream: the same messages, and nothing left over. -/
def ReadsBack (garbage : Nat → UInt16) (ms : List Message) : Prop :=
  (Packet.framing.splitAll (wireOf garbage ms)).1.map Packet.message = ms ∧
    (Packet.framing.splitAll (wireOf garbage ms)).2 = []

/-- The image of a message is read as its first `length % 2 ^ 16` bytes. -/
theorem splitAll_wireOf_cons (g : Nat → UInt16) (m : Message) (ms : List Message) :
    ∃ p, p.message = ⟨m.type, m.data.take (m.data.length % 2 ^ 16)⟩ ∧
      (Packet.framing.splitAll (wireOf g (m :: ms))).1 =
        p :: (Packet.framing.splitAll ((wireOf g (m :: ms)).drop p.size)).1 ∧
      (Packet.framing.splitAll (wireOf g (m :: ms))).2 =
        (Packet.framing.splitAll ((wireOf g (m :: ms)).drop p.size)).2 := by
  let built := Packet.deserializeTyped (g 0) m.type m.data
  have hsize : built.header.size.toNat = m.data.length % 2 ^ 16 := UInt16.toNat_ofNat'
  have hle : built.header.size.toNat ≤
      (m.data ++ (packetsOf (fun i => g (i + 1)) ms).flatMap Packet.serialize).length := by
    rw [hsize, List.length_append]
    exact Nat.le_add_right_of_le (Nat.mod_le _ _)
  have hwire : wireOf g (m :: ms) = built.header.bytes ++
      (m.data ++ (packetsOf (fun i => g (i + 1)) ms).flatMap Packet.serialize) := by
    rw [wireOf, packetsOf, List.flatMap_cons, Packet.serialize, List.append_assoc]
    rfl
  have hdec : Packet.framing.decode (wireOf g (m :: ms)) =
      some ⟨built.header, m.data.take (m.data.length % 2 ^ 16)⟩ := by
    rw [hwire, ← List.take_append_of_le_length (Nat.mod_le _ _), ← hsize]
    exact Packet.deserialize_header built.header _ hle
  refine ⟨⟨built.header, m.data.take (m.data.length % 2 ^ 16)⟩, rfl, ?_, ?_⟩
  · rw [Packet.framing.splitAll_of_some hdec]
    rfl
  · rw [Packet.framing.splitAll_of_some hdec]
    rfl

/-- A body read back whole fits the size field, and the rest of the stream is read back too. -/
theorem ReadsBack.cons {g : Nat → UInt16} {m : Message} {ms : List Message}
    (h : ReadsBack g (m :: ms)) :
    m.data.length < 2 ^ 16 ∧ ReadsBack (fun i => g (i + 1)) ms := by
  obtain ⟨p, hp, hfst, hsnd⟩ := splitAll_wireOf_cons g m ms
  obtain ⟨hread, hrest⟩ := h
  rw [hfst, List.map_cons] at hread
  obtain ⟨hhead, htail⟩ := List.cons.inj hread
  have hmod := Nat.mod_le m.data.length (2 ^ 16)
  -- the first body was read whole, so its length survived the size field
  have hlen : m.data.length % 2 ^ 16 = m.data.length := by
    have hdata : m.data.take (m.data.length % 2 ^ 16) = m.data :=
      congrArg Message.data (hp.symm.trans hhead)
    have := congrArg List.length hdata
    rw [List.length_take] at this
    omega
  have hdrop : (wireOf g (m :: ms)).drop p.size = wireOf (fun i => g (i + 1)) ms := by
    have hpsize : p.size = (Packet.deserializeTyped (g 0) m.type m.data).size := by
      have hd : p.data = m.data := congrArg Message.data hhead
      simp only [Packet.size, hd, Packet.deserializeTyped]
    rw [hpsize, ← Packet.length_serialize, wireOf, packetsOf, List.flatMap_cons, List.drop_left]
    rfl
  rw [hdrop] at htail hsnd
  refine ⟨?_, htail, hsnd.symm.trans hrest⟩
  rw [← hlen]
  exact Nat.mod_lt _ (by decide)

/-- **The framing round trip, exactly where it holds**: a sequence of messages is read back from the
stream of their packets if and only if every body's length fits the 16-bit size field. -/
theorem readsBack_iff (garbage : Nat → UInt16) (ms : List Message) :
    ReadsBack garbage ms ↔ ∀ m ∈ ms, m.data.length < 2 ^ 16 := by
  constructor
  · intro h
    induction ms generalizing garbage with
    | nil => exact fun m hm => absurd hm List.not_mem_nil
    | cons m ms ih =>
      obtain ⟨hlt, hrest⟩ := h.cons
      intro m' hm'
      rcases List.mem_cons.mp hm' with rfl | hm'
      · exact hlt
      · exact ih _ hrest m' hm'
  · intro h
    have hsplits := Packet.splits_serialize (packetsOf_wf h garbage) []
    rw [List.append_nil] at hsplits
    have hall := hsplits.eq_splitAll Packet.deserialize_nil
    unfold ReadsBack wireOf
    rw [hall]
    exact ⟨packetsOf_message garbage ms, rfl⟩

/-- One body of `2 ^ 16` bytes is announced as empty: it is not read back. -/
theorem not_readsBack_long_body :
    ¬ ∀ ms : List Message, ReadsBack (fun _ => 0) ms := by
  intro h
  have hlong := (h [⟨256, List.replicate (2 ^ 16) 0⟩]).cons.1
  rw [List.length_replicate] at hlong
  exact absurd hlong (Nat.lt_irrefl _)

/-! ## The wire image -/

/-- The layout of `protocol.md`: type (4 bytes), size of the body (4 bytes), body. -/
def documentedImage (type : MsgType) (data : List UInt8) : List UInt8 :=
  leBytes 4 type.toNat ++ (leBytes 4 data.length ++ data)

/-- The image of the packet built for a message is one, whatever the memory held, and has that
layout. -/
structure WireImage (type : MsgType) (data : List UInt8) : Prop where
  determined : ∀ garbage garbage' : UInt16,
    (Packet.deserializeTyped garbage type data).serialize =
      (Packet.deserializeTyped garbage' type data).serialize
  documented : ∀ garbage : UInt16,
    (Packet.deserializeTyped garbage type data).serialize = documentedImage type data

/-- The four bytes where the size is expected: the low half of the length, and what the memory
held. -/
theorem serialize_deserializeTyped (garbage : UInt16) (type : MsgType) (data : List UInt8) :
    (Packet.deserializeTyped garbage type data).serialize =
      leBytes 4 type.toNat ++ (leBytes 2 data.length ++ (leBytes 2 garbage.toNat ++ data)) := by
  have hlow : leBytes 2 (UInt16.ofNat data.length).toNat = leBytes 2 data.length := by
    rw [UInt16.toNat_ofNat', leBytes_inj]
    exact Nat.mod_mod _ _
  simp only [Packet.serialize, Packet.deserializeTyped, Header.bytes, hlow, List.append_assoc]

/-- Two packets of one message have one image only if their padding is the same. -/
theorem serialize_garbage_iff (garbage garbage' : UInt16) (type : MsgType) (data : List UInt8) :
    (Packet.deserializeTyped garbage type data).serialize =
      (Packet.deserializeTyped garbage' type data).serialize ↔ garbage = garbage' := by
  have hg : garbage.toNat % 256 ^ 2 = garbage.toNat := Nat.mod_eq_of_lt garbage.toNat_lt
  have hg' : garbage'.toNat % 256 ^ 2 = garbage'.toNat := Nat.mod_eq_of_lt garbage'.toNat_lt
  rw [serialize_deserializeTyped, serialize_deserializeTyped, List.append_cancel_left_eq,
    List.append_cancel_left_eq, List.append_cancel_right_eq, leBytes_inj, hg, hg', UInt16.toNat_inj]

/-- The padding stands where the layout has the high half of the length. -/
theorem serialize_documented_iff (garbage : UInt16) (type : MsgType) (data : List UInt8) :
    (Packet.deserializeTyped garbage type data).serialize = documentedImage type data ↔
      garbage.toNat = data.length / 2 ^ 16 % 2 ^ 16 := by
  have hg : garbage.toNat % 256 ^ 2 = garbage.toNat := Nat.mod_eq_of_lt garbage.toNat_lt
  have hlength : leBytes 4 data.length =
      leBytes 2 data.length ++ leBytes 2 (data.length / 256 ^ 2) := leBytes_add 2 2 data.length
  rw [serialize_deserializeTyped, documentedImage, hlength, List.append_cancel_left_eq,
    List.append_assoc, List.append_cancel_left_eq, List.append_cancel_right_eq, leBytes_inj, hg]
  norm_num

/-- **No message has a wire image**: the bytes sent depend on what the memory held, and are those of
the documented layout exactly if it held the high half of the body's length. -/
theorem not_wireImage (type : MsgType) (data : List UInt8) :
    ¬ WireImage type data ∧
    (∀ garbage garbage' : UInt16,
      (Packet.deserializeTyped garbage type data).serialize =
        (Packet.deserializeTyped garbage' type data).serialize ↔ garbage = garbage') ∧
    ∀ garbage : UInt16,
      (Packet.deserializeTyped garbage type data).serialize = documentedImage type data ↔
        garbage.toNat = data.length / 2 ^ 16 % 2 ^ 16 := by
  refine ⟨fun h => ?_, fun garbage garbage' => serialize_garbage_iff garbage garbage' type data,
    fun garbage => serialize_documented_iff garbage type data⟩
  have hsame : (0 : UInt16) = 1 := (serialize_garbage_iff 0 1 type data).mp (h.determined 0 1)
  exact absurd hsame (by decide)

/-- Two packets for a ping without a body, made where the memory held 0 and where it held 1. -/
theorem not_wireImage_ping : ¬ ∀ (type : MsgType) (data : List UInt8), WireImage type data := by
  intro h
  exact absurd ((h 3 []).determined 0 1) (by decide)

end ProjectE.Net
