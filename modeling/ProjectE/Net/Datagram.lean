import ProjectE.Net.Server

/-!
# The judgement of a datagram

`handle_udp_read_event` receives into a fresh buffer of `MAX_BUFFER_SIZE` zeros, asks
`is_valid_udp_message` about the whole buffer, and queues the bytes received. The judgement
therefore sees the datagram with zeros behind it: a header is completed with zeros, and a body the
header announces is found complete wherever the buffer has room for it.

The datagram's own bytes decide exactly where the size its header announces is zero, within the
datagram, or more than the buffer holds (`judged_by_own_bytes_iff`).
-/

namespace ProjectE.Net

open Verif

/-- `Server::is_valid_udp_message`: the bytes begin with a packet that is complete and whose size is
not zero. It is asked about the whole receive buffer. -/
def Server.isValidUdpMessage (data : List UInt8) : Bool :=
  match Packet.deserializeVector data with
  | some packet => packet.header.size ≠ 0
  | none => false

namespace Datagram

/-- The bytes begin with a complete packet whose body is not empty. -/
def BeginsWithPacket (bs : List UInt8) : Prop :=
  ∃ (packet : Packet) (rest : List UInt8),
    packet.WF ∧ packet.data ≠ [] ∧ bs = packet.serialize ++ rest

/-- The size that bytes 4 and 5 announce, with 0 for a byte behind the end. -/
def announced (bs : List UInt8) : Nat := (bs[4]?.getD 0).toNat + 256 * (bs[5]?.getD 0).toNat

/-- The receive buffer once `bs` was received. -/
def received (bs : List UInt8) : List UInt8 := overwrite (List.replicate MAX_BUFFER_SIZE 0) 0 bs

theorem received_eq (bs : List UInt8) :
    received bs = bs ++ List.replicate (MAX_BUFFER_SIZE - bs.length) 0 := by
  rw [received, overwrite, List.take_zero, List.nil_append, Nat.zero_add, List.drop_replicate]

theorem length_received {bs : List UInt8} (h : bs.length ≤ MAX_BUFFER_SIZE) :
    (received bs).length = MAX_BUFFER_SIZE := by
  rw [received_eq, List.length_append, List.length_replicate]
  omega

theorem take_received (bs : List UInt8) : (received bs).take bs.length = bs := by
  rw [received_eq, List.take_left]

/-- The zeros behind the datagram are read as zeros. -/
theorem announced_received (bs : List UInt8) : announced (received bs) = announced bs := by
  have hbyte : ∀ i : Nat, (received bs)[i]?.getD 0 = bs[i]?.getD 0 := by
    intro i
    rw [received_eq]
    by_cases hi : i < bs.length
    · rw [List.getElem?_append_left hi]
    · rw [List.getElem?_append_right (Nat.not_lt.mp hi), List.getElem?_replicate,
        List.getElem?_eq_none (Nat.not_lt.mp hi)]
      split <;> rfl
  rw [announced, announced, hbyte, hbyte]

/-- The header's size field is what bytes 4 and 5 announce. -/
theorem size_ofBytes {bs : List UInt8} (h : Header.sizeof ≤ bs.length) :
    (Header.ofBytes (bs.take Header.sizeof)).size.toNat = announced bs := by
  match bs, h with
  | b₀ :: b₁ :: b₂ :: b₃ :: b₄ :: b₅ :: b₆ :: b₇ :: rest, _ =>
    have hfield : ((b₀ :: b₁ :: b₂ :: b₃ :: b₄ :: b₅ :: b₆ :: b₇ :: rest).take
        Header.sizeof |>.drop 4).take 2 = [b₄, b₅] := rfl
    have hvalue : leNat [b₄, b₅] = b₄.toNat + 256 * b₅.toNat := by
      simp only [leNat, Nat.mul_zero, Nat.add_zero]
    have hlt : leNat [b₄, b₅] < 2 ^ 16 := by
      have h₄ := b₄.toNat_lt
      have h₅ := b₅.toNat_lt
      omega
    simp only [Header.ofBytes, hfield, hvalue] at hlt ⊢
    exact UInt16.toNat_ofNat_of_lt' hlt

/-- Bytes are valid if their header announces a body, and all of it is there. -/
theorem isValidUdpMessage_iff {bs : List UInt8} (h : Header.sizeof ≤ bs.length) :
    Server.isValidUdpMessage bs = true ↔
      announced bs ≠ 0 ∧ Header.sizeof + announced bs ≤ bs.length := by
  have hsize := size_ofBytes h
  have hzero : (Header.ofBytes (bs.take Header.sizeof)).size = 0 ↔ announced bs = 0 := by
    rw [← hsize, ← UInt16.toNat_inj]
    rfl
  simp only [Server.isValidUdpMessage, Packet.deserializeVector, if_neg (Nat.not_lt.mpr h), hsize]
  by_cases hfit : bs.length < Header.sizeof + announced bs
  · simp only [if_pos hfit, Bool.false_eq_true, false_iff]
    omega
  · simp only [if_neg hfit, decide_eq_true_eq, hzero, ne_eq]
    omega

/-- Received bytes are valid if the buffer has room for the body they announce. -/
theorem isValidUdpMessage_received {bs : List UInt8} (h : bs.length ≤ MAX_BUFFER_SIZE) :
    Server.isValidUdpMessage (received bs) = true ↔
      announced bs ≠ 0 ∧ Header.sizeof + announced bs ≤ MAX_BUFFER_SIZE := by
  have hlength := length_received h
  have hfits : Header.sizeof ≤ (received bs).length := by
    rw [hlength]
    decide
  have hvalid := isValidUdpMessage_iff hfits
  rwa [announced_received, hlength] at hvalid

/-- A serialized packet announces its own body, whatever follows. -/
theorem announced_serialize {packet : Packet} (hwf : packet.WF) (rest : List UInt8) :
    Header.sizeof ≤ (packet.serialize ++ rest).length ∧
      announced (packet.serialize ++ rest) = packet.data.length := by
  have hheader : Header.sizeof ≤ (packet.serialize ++ rest).length := by
    rw [List.length_append, Packet.length_serialize]
    exact Nat.le_add_right_of_le packet.sizeof_le_size
  have hfront : (packet.serialize ++ rest).take Header.sizeof = packet.header.bytes := by
    rw [Packet.serialize, List.append_assoc, List.take_left' (Header.length_bytes _)]
  have hannounced := size_ofBytes hheader
  rw [hfront, Header.ofBytes_bytes, hwf] at hannounced
  exact ⟨hheader, hannounced.symm⟩

theorem beginsWithPacket_iff (bs : List UInt8) : BeginsWithPacket bs ↔
    Header.sizeof ≤ bs.length ∧ announced bs ≠ 0 ∧ Header.sizeof + announced bs ≤ bs.length := by
  constructor
  · rintro ⟨packet, rest, hwf, hdata, rfl⟩
    obtain ⟨hheader, hannounced⟩ := announced_serialize hwf rest
    refine ⟨hheader, ?_, ?_⟩
    · rw [hannounced]
      exact mt List.length_eq_zero_iff.mp hdata
    · rw [hannounced, List.length_append, Packet.length_serialize, Packet.size]
      exact Nat.le_add_right _ _
  · rintro ⟨hheader, hannounced, hfit⟩
    have hsize := size_ofBytes hheader
    have hread : ∃ packet, Packet.deserialize bs = some packet ∧
        packet.header.size.toNat = announced bs := by
      simp only [Packet.deserialize, if_neg (Nat.not_lt.mpr hheader), hsize,
        if_neg (Nat.not_lt.mpr hfit)]
      exact ⟨_, rfl, hsize⟩
    obtain ⟨packet, hpacket, hheaderSize⟩ := hread
    obtain ⟨hwf, -, himage⟩ := Packet.deserialize_some hpacket
    refine ⟨packet, bs.drop packet.size, hwf, ?_, ?_⟩
    · rintro hnil
      rw [Packet.WF, hnil, hheaderSize] at hwf
      exact hannounced hwf
    · rw [himage, List.take_append_drop]

/-- What the event does with what `recv_from` gives. -/
theorem recvUdpQueue_handleUdpReadEvent (s : BaseServer) (os : OsAnswers) (datagram : List UInt8)
    (addr : SocketAddr) :
    (s.handleUdpReadEvent Server.isValidUdpMessage
      { os with recvFrom := .ok (datagram, addr) }).recvUdpQueue =
      if (datagram.take MAX_BUFFER_SIZE).length ≠ 0 ∧
          Server.isValidUdpMessage (received (datagram.take MAX_BUFFER_SIZE)) = true then
        s.recvUdpQueue ++ [(addr, datagram.take MAX_BUFFER_SIZE)]
      else s.recvUdpQueue := by
  unfold BaseServer.handleUdpReadEvent
  simp only
  rw [← received, take_received]
  by_cases hempty : (datagram.take MAX_BUFFER_SIZE).length = 0
  · rw [if_pos hempty, if_neg fun h => h.1 hempty]
  · rw [if_neg hempty]
    cases hvalid : Server.isValidUdpMessage (received (datagram.take MAX_BUFFER_SIZE)) with
    | true =>
      rw [Bool.not_true, if_neg Bool.false_ne_true, if_pos]
      exact ⟨hempty, rfl⟩
    | false =>
      rw [Bool.not_false, if_pos rfl, if_neg]
      exact fun h => Bool.false_ne_true h.2

/-- The datagram is queued if and only if its own bytes begin with a packet that has a body, and
what is queued is these bytes. -/
def JudgedByOwnBytes (s : BaseServer) (os : OsAnswers) (datagram : List UInt8)
    (addr : SocketAddr) : Prop :=
  let queue := (s.handleUdpReadEvent Server.isValidUdpMessage
    { os with recvFrom := .ok (datagram, addr) }).recvUdpQueue
  (BeginsWithPacket (datagram.take MAX_BUFFER_SIZE) →
    queue = s.recvUdpQueue ++ [(addr, datagram.take MAX_BUFFER_SIZE)]) ∧
  (¬ BeginsWithPacket (datagram.take MAX_BUFFER_SIZE) → queue = s.recvUdpQueue)

/-- **A datagram is judged by its own bytes exactly where the size it announces is zero, within it,
or too large for the buffer.** -/
theorem judged_by_own_bytes_iff (s : BaseServer) (os : OsAnswers) (datagram : List UInt8)
    (addr : SocketAddr) :
    JudgedByOwnBytes s os datagram addr ↔
      announced (datagram.take MAX_BUFFER_SIZE) = 0 ∨
      8 + announced (datagram.take MAX_BUFFER_SIZE) ≤ (datagram.take MAX_BUFFER_SIZE).length ∨
      MAX_BUFFER_SIZE < 8 + announced (datagram.take MAX_BUFFER_SIZE) := by
  have hle : (datagram.take MAX_BUFFER_SIZE).length ≤ MAX_BUFFER_SIZE := by
    rw [List.length_take]
    exact Nat.min_le_left _ _
  have hqueue := recvUdpQueue_handleUdpReadEvent s os datagram addr
  unfold JudgedByOwnBytes
  generalize datagram.take MAX_BUFFER_SIZE = bs at *
  have hsizeof : Header.sizeof = 8 := rfl
  have hvalid := isValidUdpMessage_received hle
  -- an empty datagram announces nothing
  have hshort : bs.length = 0 → announced bs = 0 := by
    intro h
    rw [List.length_eq_zero_iff.mp h]
    rfl
  simp only [hqueue, hvalid, beginsWithPacket_iff]
  by_cases hjudged : bs.length ≠ 0 ∧ announced bs ≠ 0 ∧ Header.sizeof + announced bs ≤
      MAX_BUFFER_SIZE
  · simp only [if_pos hjudged, implies_true, true_and, List.append_right_eq_self, reduceCtorEq,
      imp_false, not_not]
    omega
  · simp only [if_neg hjudged, implies_true, and_true, List.self_eq_append_right, reduceCtorEq,
      imp_false]
    omega

/-- Five bytes, the last of which announces a body of one: the zeros behind them are its body. -/
theorem not_judged_by_own_bytes_short : ¬ ∀ (s : BaseServer) (os : OsAnswers)
    (datagram : List UInt8) (addr : SocketAddr), JudgedByOwnBytes s os datagram addr := by
  intro h
  let os : OsAnswers := ⟨.error 0, .ok (), 0, .error 0, .error 0, .error 0⟩
  obtain ⟨-, hdropped⟩ := h .new os [0, 0, 0, 0, 1] .default
  have hbegins : ¬ BeginsWithPacket [0, 0, 0, 0, 1] := by
    rw [beginsWithPacket_iff]
    decide
  have hvalid : Server.isValidUdpMessage (received [0, 0, 0, 0, 1]) = true :=
    (isValidUdpMessage_received (by decide)).mpr (by decide)
  have hqueue := hdropped hbegins
  rw [recvUdpQueue_handleUdpReadEvent, if_pos ⟨by decide, hvalid⟩] at hqueue
  exact List.cons_ne_nil _ _ hqueue

end Datagram

end ProjectE.Net
