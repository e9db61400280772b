import ProjectE.Net.AddrOrder
import ProjectE.Net.Server

/-!
# The UDP handshake

Which datagrams bind an address to a client, and that the honest exchange produces one of them. The
condition on a datagram (`Confirms`) is stated over its bytes, with the encoder alone: it begins
with the image of a confirmation for a current client whose number was transformed. `handshake` says
that a hosting server binds on exactly these datagrams and ignores every other, and that the answer
a connected client makes to the server's request is one of them, whatever surrounds the request in
the client's stream. An unknown address is one that the search in the cache does not find; where the
addresses are of one family, as those an IPv4 socket receives are, that is one the cache has no
entry of (`find_cache_eq_none_iff`).
-/

namespace ProjectE.Net.Server

open Verif

/-- The datagram begins with a complete confirmation that names the client and the transformed
number stored for it. -/
def Confirms (transformNumber : UInt64 → UInt64) (s : Server) (data : List UInt8)
    (clientUuid : Uuid) : Prop :=
  ∃ packet rest entry, data = Packet.serialize packet ++ rest ∧ packet.WF ∧
    packet.header.type = SystemTypes.ASKUDP_RESPONSE ∧
    OrdMap.find Uuid.lt s.clients clientUuid = some entry ∧
    packet.data = packedBytes clientUuid (transformNumber entry.2.generatedNumber)

/-- The address was bound to the client: it is in the cache, in the client's record, and the
callback was made. -/
def Binds (s s' : Server) (addr : SocketAddr) (clientUuid : Uuid) : Prop :=
  (addr, clientUuid) ∈ s'.udpConnectionCache ∧
    (∃ entry, OrdMap.find Uuid.lt s'.clients clientUuid = some entry ∧ entry.2.udpAddr = addr) ∧
    s'.calls = s.calls ++ [.onUdpConnect clientUuid]

variable {transformNumber : UInt64 → UInt64} {s : Server} {addr : SocketAddr} {data : List UInt8}
  {c : Uuid}

/-- Among addresses of one family the search finds an address exactly if the cache has an entry of
it. -/
theorem find_cache_eq_none_iff
    (hsorted : OrdMap.Sorted SocketAddr.lt s.udpConnectionCache)
    (hfamily : SocketAddr.OneFamily (insert addr (OrdMap.keys s.udpConnectionCache))) :
    OrdMap.find SocketAddr.lt s.udpConnectionCache addr = none ↔
      ∀ c, (addr, c) ∉ s.udpConnectionCache := by
  have hfound : (OrdMap.find SocketAddr.lt s.udpConnectionCache addr).isSome ↔
      addr ∈ OrdMap.keys s.udpConnectionCache :=
    OrdMap.find_isSome_iff SocketAddr.lt_irrefl hfamily.separates hsorted
      (Set.subset_insert addr _) (Set.mem_insert addr _)
  rw [← Option.not_isSome_iff_eq_none, hfound, OrdMap.mem_keys, not_exists]

/-- What the reader sees of a confirmation. -/
theorem confirms_iff : Confirms transformNumber s data c ↔
    ∃ packet entry, Packet.deserialize data = some packet ∧
      packet.header.type = SystemTypes.ASKUDP_RESPONSE ∧
      OrdMap.find Uuid.lt s.clients c = some entry ∧
      packet.data = packedBytes c (transformNumber entry.2.generatedNumber) := by
  constructor
  · rintro ⟨packet, rest, entry, rfl, hwf, htype, hfind, hdata⟩
    exact ⟨packet, entry, Packet.deserialize_serialize_append hwf rest, htype, hfind, hdata⟩
  · rintro ⟨packet, entry, hdes, htype, hfind, hdata⟩
    obtain ⟨hwf, -, himage⟩ := Packet.deserialize_some hdes
    refine ⟨packet, data.drop packet.size, entry, ?_, hwf, htype, hfind, hdata⟩
    rw [himage, List.take_append_drop]

/-- A datagram confirms one client at most. -/
theorem Confirms.unique {c' : Uuid} (h : Confirms transformNumber s data c)
    (h' : Confirms transformNumber s data c') : c = c' := by
  obtain ⟨packet, entry, hdes, -, -, hdata⟩ := confirms_iff.mp h
  obtain ⟨packet', entry', hdes', -, -, hdata'⟩ := confirms_iff.mp h'
  rw [hdes] at hdes'
  cases hdes'
  rw [hdata] at hdata'
  have := congrArg packedFst hdata'
  rwa [packedFst_packedBytes, packedFst_packedBytes] at this

/-- The struct reader reads a confirmation exactly from its packed bytes. -/
theorem deserializeStruct_confirmation {body : List UInt8} {t : UInt64} :
    (Packet.deserializeStruct body : Option UdpConnectionPacketConfirmation) = some ⟨c, t⟩ ↔
      body = packedBytes c t := Packet.deserializeStruct_eq_some_iff

/-- The handler binds on a confirmation. -/
theorem handleUdpConnectionRequest_of_confirms (h : Confirms transformNumber s data c) :
    s.handleUdpConnectionRequest transformNumber data addr = s.bindUdp addr c := by
  obtain ⟨packet, entry, hdes, htype, hfind, hdata⟩ := confirms_iff.mp h
  have hstruct := deserializeStruct_confirmation.mpr hdata
  simp only [handleUdpConnectionRequest, hdes, htype, if_true, hstruct, hfind]

/-- The handler ignores everything else. -/
theorem handleUdpConnectionRequest_of_not (h : ∀ c, ¬ Confirms transformNumber s data c) :
    s.handleUdpConnectionRequest transformNumber data addr = s := by
  unfold handleUdpConnectionRequest
  split
  · rfl
  next packet hdes =>
  split
  next htype =>
    split
    · rfl
    next udpData hstruct =>
    split
    · rfl
    next entry client hfind =>
    split
    next hnumber =>
      refine absurd (confirms_iff.mpr ⟨packet, _, hdes, htype, hfind, ?_⟩) (h udpData.clientUuid)
      rw [hnumber]
      exact deserializeStruct_confirmation.mp hstruct
    · rfl
  · rfl

/-- A datagram from an address the cache does not find goes to the handshake. -/
theorem onUdpData_of_find_none (hconfirmed : s.udpConfirmed = false)
    (haddr : OrdMap.find SocketAddr.lt s.udpConnectionCache addr = none) :
    s.onUdpData transformNumber addr data =
      some (s.handleUdpConnectionRequest transformNumber data addr) := by
  simp only [onUdpData, haddr, hconfirmed, Option.isSome_none, Bool.or_self, Bool.false_eq_true,
    if_false]

theorem binds_bindUdp (haddr : OrdMap.find SocketAddr.lt s.udpConnectionCache addr = none)
    (h : Confirms transformNumber s data c) : Binds s (s.bindUdp addr c) addr c := by
  obtain ⟨packet, entry, -, -, hfind, -⟩ := confirms_iff.mp h
  have hmodified : OrdMap.find Uuid.lt (s.bindUdp addr c).clients c =
      some (entry.1, { entry.2 with udpAddr := addr }) :=
    OrdMap.find_modify (f := fun client : Client => { client with udpAddr := addr }) hfind
  exact ⟨(OrdMap.mem_insert_of_none haddr).mpr (.inl rfl), ⟨_, hmodified, rfl⟩, rfl⟩

/-- One callback says which client was bound. -/
theorem Binds.eq {s' : Server} {c' : Uuid} (h : Binds s s' addr c) (h' : Binds s s' addr c') :
    c = c' := by
  have := h.2.2.symm.trans h'.2.2
  simpa using this

/-! ## The honest exchange -/

theorem requestPacket_wf (garbage : UInt16) (c : Uuid) (number : UInt64) :
    (requestPacket garbage c number).WF := by
  apply (Packet.deserializeTyped_wf_iff _ _ _).mpr
  have : (Packet.serializeStruct (⟨c, number⟩ : UdpConnectionPacketInitialisation)).length = 16 :=
    length_packedBytes _ _
  omega

theorem responsePacket_wf (garbage : UInt16) (c : Uuid) (number : UInt64) :
    (responsePacket garbage c number).WF := by
  apply (Packet.deserializeTyped_wf_iff _ _ _).mpr
  have : (Packet.serializeStruct (⟨c, number⟩ : UdpConnectionPacketConfirmation)).length = 16 :=
    length_packedBytes _ _
  omega

/-- The packets of one run of the loop, handled in order. -/
def handlePackets (transformNumber : UInt64 → UInt64) (clientUuid : Uuid) :
    (garbage : Nat → UInt16) → Server → List Packet → Server
  | _, s, [] => s
  | garbage, s, packet :: packets =>
    handlePackets transformNumber clientUuid (fun i => garbage (i + 1))
      (s.handlePacket transformNumber (garbage 0) clientUuid packet) packets

/-- The loop handles the packets of the unread bytes in order, and leaves the rest unread. -/
theorem onTcpDataLoop_eq (clientUuid : Uuid) (garbage : Nat → UInt16) (s : Server)
    (reader : BufReader) :
    (s.onTcpDataLoop transformNumber clientUuid garbage reader).1 =
        handlePackets transformNumber clientUuid garbage s
          (Packet.framing.splitAll reader.unread).1 ∧
      (s.onTcpDataLoop transformNumber clientUuid garbage reader).2.unread =
        (Packet.framing.splitAll reader.unread).2 := by
  induction garbage, s, reader using onTcpDataLoop.induct transformNumber clientUuid with
  | case1 garbage s reader h =>
    rw [onTcpDataLoop_of_none h, Packet.framing.splitAll_of_none h]
    exact ⟨rfl, rfl⟩
  | case2 garbage s reader packet h ih =>
    obtain ⟨-, hle, -⟩ := Packet.deserialize_some h
    rw [reader.unread_consume hle] at ih
    rw [onTcpDataLoop_of_some h, Packet.framing.splitAll_of_some h]
    exact ih

/-- Handling packets only appends to the datagrams to send. -/
theorem handlePacket_sendUdpQueue (garbage : UInt16) (s : Server) (clientUuid : Uuid)
    (packet : Packet) :
    s.sendUdpQueue <+: (s.handlePacket transformNumber garbage clientUuid packet).sendUdpQueue := by
  unfold handlePacket
  split
  · split
    · unfold askUdpConnectionResponse baseSendUdp BaseServer.sendUdp
      split
      · exact List.prefix_append _ _
      · exact List.prefix_refl _
    · exact List.prefix_refl _
  · exact List.prefix_refl _

theorem handlePackets_sendUdpQueue (transformNumber : UInt64 → UInt64) (clientUuid : Uuid) :
    ∀ (garbage : Nat → UInt16) (s : Server) (packets : List Packet), s.sendUdpQueue <+:
      (handlePackets transformNumber clientUuid garbage s packets).sendUdpQueue
  | _, _, [] => List.prefix_refl _
  | garbage, s, packet :: packets =>
    (handlePacket_sendUdpQueue (garbage 0) s clientUuid packet).trans
      (handlePackets_sendUdpQueue transformNumber clientUuid _ _ packets)

/-- The client answers a request with the response for its uuid and number. -/
theorem handlePacket_request (garbage garbage' : UInt16) (s : Server) (clientUuid c : Uuid)
    (number : UInt64) : s.handlePacket transformNumber garbage clientUuid
      (requestPacket garbage' c number) =
    s.askUdpConnectionResponse garbage c (transformNumber number) := by
  have hstruct : (Packet.deserializeStruct (requestPacket garbage' c number).data :
      Option UdpConnectionPacketInitialisation) = some ⟨c, number⟩ :=
    Packet.deserializeStruct_eq_some_iff.mpr rfl
  simp only [handlePacket, hstruct]
  rfl

/-- A connected client that finds a request at the front of its stream emits the response. -/
theorem onTcpData_request (transformNumber : UInt64 → UInt64) (garbage : Nat → UInt16)
    {peer : Server} {id : Uuid} {entry : Uuid × Client} {target : SocketAddr} {reader : BufReader}
    {rest : List UInt8} {garbage' : UInt16} {number : UInt64}
    (hentry : peer.clientOf id = some entry)
    (htarget : peer.udpConnectionAddr = some target)
    (hunread : reader.unread = (requestPacket garbage' c number).serialize ++ rest) :
    ∃ more, (peer.onTcpData transformNumber garbage id reader).1.sendUdpQueue =
      peer.sendUdpQueue ++
        (target, (responsePacket (garbage 0) c (transformNumber number)).serialize) :: more := by
  have hdes : Packet.framing.decode reader.unread = some (requestPacket garbage' c number) := by
    rw [hunread]
    exact Packet.deserialize_serialize_append (requestPacket_wf garbage' c number) rest
  have hqueue : (peer.askUdpConnectionResponse (garbage 0) c
      (transformNumber number)).sendUdpQueue = peer.sendUdpQueue ++
        [(target, (responsePacket (garbage 0) c (transformNumber number)).serialize)] := by
    simp only [askUdpConnectionResponse, baseSendUdp, BaseServer.sendUdp, htarget,
      BaseServer.sendUdpTo]
  obtain ⟨uuid, client⟩ := entry
  simp only [onTcpData, hentry]
  rw [(onTcpDataLoop_eq uuid garbage peer reader).1, Packet.framing.splitAll_of_some hdes,
    handlePackets, handlePacket_request]
  obtain ⟨more, hmore⟩ := handlePackets_sendUdpQueue transformNumber uuid
    (fun i => garbage (i + 1)) (peer.askUdpConnectionResponse (garbage 0) c
      (transformNumber number))
    (Packet.framing.splitAll (reader.unread.drop (Packet.framing.size
      (requestPacket garbage' c number)))).1
  refine ⟨more, ?_⟩
  rw [← hmore, hqueue, List.append_assoc]
  rfl

/-- What the server queues for a new client is the request. -/
theorem askUdpConnectionRequest_queue (garbage : UInt16) (s : Server) (c id : Uuid)
    (number : UInt64) : (s.askUdpConnectionRequest garbage c number id).sendTcpQueue =
      s.sendTcpQueue ++ [(id, (requestPacket garbage c number).serialize)] := rfl

/-- The response for the number stored for a client confirms it. -/
theorem confirms_responsePacket (transformNumber : UInt64 → UInt64) (garbage : UInt16)
    {entry : Uuid × Client}
    (hfind : OrdMap.find Uuid.lt s.clients c = some entry) :
    Confirms transformNumber s
      (responsePacket garbage c (transformNumber entry.2.generatedNumber)).serialize c :=
  ⟨_, [], entry, (List.append_nil _).symm, responsePacket_wf _ _ _, rfl, hfind, rfl⟩

/-- **The handshake is sound and complete.** On a hosting server a datagram from an unknown address
binds that address to a client exactly if it confirms the client, and otherwise changes nothing; and
the datagram a connected client emits for the server's request, with the server's other bytes after
it, confirms the client the request was made for. -/
theorem handshake (transformNumber : UInt64 → UInt64) (s : Server)
    (hconfirmed : s.udpConfirmed = false) :
    (∀ addr data, OrdMap.find SocketAddr.lt s.udpConnectionCache addr = none →
      ∃ s', s.onUdpData transformNumber addr data = some s' ∧
        (∀ c, Binds s s' addr c ↔ Confirms transformNumber s data c) ∧
        ((∀ c, ¬ Confirms transformNumber s data c) → s' = s)) ∧
    (∀ (c : Uuid) (entry : Uuid × Client) (garbage : UInt16) (id : Uuid) (bytes : List UInt8),
      OrdMap.find Uuid.lt s.clients c = some entry →
      (s.askUdpConnectionRequest garbage c entry.2.generatedNumber id).sendTcpQueue =
        s.sendTcpQueue ++ [(id, bytes)] →
      ∀ (peer : Server) (id' : Uuid) (target : SocketAddr) (reader : BufReader)
        (rest : List UInt8) (garbage' : Nat → UInt16),
        (peer.clientOf id').isSome → peer.udpConnectionAddr = some target →
        reader.unread = bytes ++ rest →
        ∃ data more, (peer.onTcpData transformNumber garbage' id' reader).1.sendUdpQueue =
            peer.sendUdpQueue ++ (target, data) :: more ∧
          Confirms transformNumber s data c) := by
  constructor
  · intro addr data haddr
    refine ⟨_, onUdpData_of_find_none hconfirmed haddr, fun c => ⟨fun hbinds => ?_, fun h => ?_⟩,
      handleUdpConnectionRequest_of_not⟩
    · by_cases hex : ∃ c', Confirms transformNumber s data c'
      · obtain ⟨c', h'⟩ := hex
        rw [handleUdpConnectionRequest_of_confirms h'] at hbinds
        rwa [hbinds.eq (binds_bindUdp haddr h')]
      · -- nothing was bound, so the record of calls did not grow
        rw [handleUdpConnectionRequest_of_not fun c' h' => hex ⟨c', h'⟩] at hbinds
        have := congrArg List.length hbinds.2.2
        simp at this
    · rw [handleUdpConnectionRequest_of_confirms h]
      exact binds_bindUdp haddr h
  · intro c entry garbage id bytes hfind hbytes peer id' target reader rest garbage' hknown htarget
      hunread
    obtain ⟨entry', hentry'⟩ := Option.isSome_iff_exists.mp hknown
    rw [askUdpConnectionRequest_queue] at hbytes
    have hreq : (requestPacket garbage c entry.2.generatedNumber).serialize = bytes := by
      simpa using hbytes
    rw [← hreq] at hunread
    obtain ⟨more, hmore⟩ := onTcpData_request transformNumber garbage' hentry' htarget hunread
    exact ⟨_, more, hmore, confirms_responsePacket transformNumber _ hfind⟩

/-! ## One exchange -/

/-- A hosting server with client 9, on connection 1, that was sent the number 77. -/
def greeting : Server where
  toBaseServer := BaseServer.hosting ∅
  clients := [(9, Client.new 1 77)]
  udpConnectionCache := []
  clientUUIDs := [9]
  calls := []

/-- A peer connected to it through its connection 2. -/
def greeted : Server where
  toBaseServer := { BaseServer.hosting ∅ with udpConnectionAddr := some SocketAddr.default }
  clients := [(4, Client.new 2 0)]
  udpConnectionCache := []
  clientUUIDs := [4]
  calls := []

/-- The address the peer's datagrams come from. -/
def peerAddr : SocketAddr := .v4 ⟨⟨#v[10, 0, 0, 1]⟩, 4000⟩

/-- The peer reads the request and answers; the answer binds its address to client 9. -/
theorem handshake_greeting : ∃ data more s',
    (greeted.onTcpData transformNumberFunction (fun _ => 0) 2
      (BufReader.new.fillBuf (.ok (requestPacket 0 9 77).serialize)).1).1.sendUdpQueue =
        (SocketAddr.default, data) :: more ∧
      greeting.onUdpData transformNumberFunction peerAddr data = some s' ∧
      Binds greeting s' peerAddr 9 := by
  have hunread : (BufReader.new.fillBuf (.ok (requestPacket 0 9 77).serialize)).1.unread =
      (requestPacket 0 9 77).serialize ++ [] := by
    rw [BufReader.unread_fillBuf_new, List.append_nil, List.take_of_length_le]
    decide
  obtain ⟨hsound, hcomplete⟩ := handshake transformNumberFunction greeting rfl
  obtain ⟨data, more, hqueue, hconfirms⟩ := hcomplete 9 (9, Client.new 1 77) 0 1
    (requestPacket 0 9 77).serialize rfl rfl greeted 2 SocketAddr.default _ [] (fun _ => 0) rfl rfl
    hunread
  obtain ⟨s', hs', hbinds, -⟩ := hsound peerAddr data rfl
  exact ⟨data, more, s', hqueue, hs', (hbinds 9).mpr hconfirms⟩

end ProjectE.Net.Server
