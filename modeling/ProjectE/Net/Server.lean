import ProjectE.Lib.OrdMap
import ProjectE.Net.BaseServer
import ProjectE.Net.Packet

/-!
# The server

`net::Server` over the base server: the clients with their connection ids, the cache of verified UDP
addresses, and the handshake that fills it. Its virtual functions appear as parameters where their
answer matters (`transformNumberFunction`) and as a record of calls otherwise.

Every packet built here carries two bytes of leftover memory; they are the `garbage` arguments.
-/

namespace ProjectE.Net

open Verif

/-- `operator<` of `Uuid`. -/
def Uuid.lt (lhs rhs : Uuid) : Bool := lhs < rhs

/-- No id is below itself. -/
theorem Uuid.lt_irrefl (a : Uuid) : Uuid.lt a a = false := decide_eq_false (UInt64.lt_irrefl a)

/-- The order of the ids is transitive. -/
theorem Uuid.lt_trans (a b c : Uuid) (h₁ : Uuid.lt a b = true) (h₂ : Uuid.lt b c = true) :
    Uuid.lt a c = true :=
  decide_eq_true (UInt64.lt_trans (of_decide_eq_true h₁) (of_decide_eq_true h₂))

/-- Ids of which neither is below the other are equal, so a search in `clients` finds the id's own
entry. -/
theorem Uuid.lt_tri (a b : Uuid) (h₁ : Uuid.lt a b = false) (h₂ : Uuid.lt b a = false) : a = b :=
  UInt64.le_antisymm (UInt64.not_lt.mp (of_decide_eq_false h₂))
    (UInt64.not_lt.mp (of_decide_eq_false h₁))

/-- `Server::Client`: the connection it came by, the UDP address it is bound to, and the number of
its handshake. -/
structure Client where
  tcpConnectionId : Uuid
  udpAddr : SocketAddr
  generatedNumber : UInt64
deriving DecidableEq, Repr

/-- `Client(tcp_connection_id, generated_number)`: until a datagram binds it, its address is the
default one. -/
def Client.new (tcpConnectionId : Uuid) (generatedNumber : UInt64) : Client :=
  ⟨tcpConnectionId, SocketAddr.default, generatedNumber⟩

/-- A call of one of the virtual functions the user implements. -/
inductive Callback where
  | onTcpConnect (client : Uuid)
  | onTcpDisconnect (client : Uuid)
  | onUdpConnect (client : Uuid)
  | onPacket (packet : Packet) (client : Uuid)
deriving DecidableEq, Repr

/-- `net::Server`: the base server with the table of the clients and the cache of their UDP
addresses. -/
structure Server extends BaseServer where
  clients : OrdMap Uuid Client
  udpConnectionCache : OrdMap SocketAddr Uuid
  /-- The ids `client_uuid_generator` has given out. -/
  clientUUIDs : List Uuid
  calls : List Callback
deriving DecidableEq

/-! ## The two structs of the handshake -/

/-- The memory of a packed struct of two 64-bit fields. -/
def packedBytes (a b : UInt64) : List UInt8 := leBytes 8 a.toNat ++ leBytes 8 b.toNat

/-- The first field of such a struct. -/
def packedFst (bs : List UInt8) : UInt64 := UInt64.ofNat (leNat (bs.take 8))

/-- The second. -/
def packedSnd (bs : List UInt8) : UInt64 := UInt64.ofNat (leNat (bs.drop 8))

@[simp] theorem length_packedBytes (a b : UInt64) : (packedBytes a b).length = 16 := by
  simp only [packedBytes, List.length_append, length_leBytes]

/-- The first field is read back. -/
theorem packedFst_packedBytes (a b : UInt64) : packedFst (packedBytes a b) = a := by
  have ha : a.toNat < 256 ^ 8 := a.toNat_lt
  rw [packedFst, packedBytes, List.take_left' (length_leBytes 8 _), leNat_leBytes ha,
    UInt64.ofNat_toNat]

/-- And so is the second. -/
theorem packedSnd_packedBytes (a b : UInt64) : packedSnd (packedBytes a b) = b := by
  have hb : b.toNat < 256 ^ 8 := b.toNat_lt
  rw [packedSnd, packedBytes, List.drop_left' (length_leBytes 8 _), leNat_leBytes hb,
    UInt64.ofNat_toNat]

/-- Sixteen bytes are the memory of the two fields read from them. -/
theorem packedBytes_packed {bs : List UInt8} (h : bs.length = 16) :
    packedBytes (packedFst bs) (packedSnd bs) = bs := by
  have l₁ : (bs.take 8).length = 8 := by rw [List.length_take]; omega
  have l₂ : (bs.drop 8).length = 8 := by rw [List.length_drop]; omega
  have b₁ := leNat_lt (bs.take 8)
  have b₂ := leNat_lt (bs.drop 8)
  rw [l₁] at b₁
  rw [l₂] at b₂
  rw [packedBytes, packedFst, packedSnd, UInt64.toNat_ofNat_of_lt' b₁,
    UInt64.toNat_ofNat_of_lt' b₂, leBytes_leNat l₁, leBytes_leNat l₂, List.take_append_drop]

/-- `UdpConnectionPacketInitialisation`: what the server asks a new client over TCP, with the number
it drew for it. -/
structure UdpConnectionPacketInitialisation where
  clientUuid : Uuid
  generatedNumber : UInt64
deriving DecidableEq, Repr

instance : Packet.Pod UdpConnectionPacketInitialisation where
  sizeof := 16
  toBytes t := packedBytes t.clientUuid t.generatedNumber
  ofBytes bs := ⟨packedFst bs, packedSnd bs⟩
  length_toBytes t := length_packedBytes _ _
  ofBytes_toBytes t := by rw [packedFst_packedBytes, packedSnd_packedBytes]
  toBytes_ofBytes _ h := packedBytes_packed h

/-- `UdpConnectionPacketConfirmation`: what the client answers over UDP, with the number
transformed. -/
structure UdpConnectionPacketConfirmation where
  clientUuid : Uuid
  transformedNumber : UInt64
deriving DecidableEq, Repr

instance : Packet.Pod UdpConnectionPacketConfirmation where
  sizeof := 16
  toBytes t := packedBytes t.clientUuid t.transformedNumber
  ofBytes bs := ⟨packedFst bs, packedSnd bs⟩
  length_toBytes t := length_packedBytes _ _
  ofBytes_toBytes t := by rw [packedFst_packedBytes, packedSnd_packedBytes]
  toBytes_ofBytes _ h := packedBytes_packed h

namespace Server

/-- `Server::transformNumberFunction`, the default; a user overrides it on both peers. -/
def transformNumberFunction (number : UInt64) : UInt64 := number ^^^ 0x1234567890ABCDEF

/-! ## Sending -/

/-- `send_tcp` of the base server. -/
def baseSendTcp (s : Server) (id : Uuid) (data : List UInt8) : Server :=
  { s with toBaseServer := s.toBaseServer.sendTcp id data }

/-- `send_udp(addr, data)` of the base server. -/
def baseSendUdpTo (s : Server) (addr : SocketAddr) (data : List UInt8) : Server :=
  { s with toBaseServer := s.toBaseServer.sendUdpTo addr data }

/-- `send_udp(data)` of the base server, which sends to the address `connect_udp` was given. -/
def baseSendUdp (s : Server) (data : List UInt8) : Server :=
  { s with toBaseServer := s.toBaseServer.sendUdp data }

/-- A call of a virtual function of the user. -/
def call (s : Server) (callback : Callback) : Server := { s with calls := s.calls ++ [callback] }

/-- `send_tcp(client, type, data)`: to the connection of the client, if there is such a client. -/
def sendTcp (garbage : UInt16) (s : Server) (clientUuid : Uuid) (type : MsgType)
    (data : List UInt8) : Server :=
  let packet := Packet.deserializeTyped garbage type data
  match OrdMap.find Uuid.lt s.clients clientUuid with
  | some (_, client) => s.baseSendTcp client.tcpConnectionId packet.serialize
  | none => s

/-- `send_udp(client, type, data)`: to the address in the client's record, verified or not. -/
def sendUdp (garbage : UInt16) (s : Server) (clientUuid : Uuid) (type : MsgType)
    (data : List UInt8) : Server :=
  let packet := Packet.deserializeTyped garbage type data
  match OrdMap.find Uuid.lt s.clients clientUuid with
  | some (_, client) => s.baseSendUdpTo client.udpAddr packet.serialize
  | none => s

/-- `send_tcp_all`: one packet, the same for every client, in the order of the map. -/
def sendTcpAll (garbage : UInt16) (s : Server) (type : MsgType) (data : List UInt8) : Server :=
  let packet := Packet.deserializeTyped garbage type data
  s.clients.foldl (fun s e => s.baseSendTcp e.2.tcpConnectionId packet.serialize) s

/-- `send_udp_all`: also to the clients whose address is not known yet, whose record has the default
address. -/
def sendUdpAll (garbage : UInt16) (s : Server) (type : MsgType) (data : List UInt8) : Server :=
  let packet := Packet.deserializeTyped garbage type data
  s.clients.foldl (fun s e => s.baseSendUdpTo e.2.udpAddr packet.serialize) s

/-! ## The handshake -/

/-- The packet of `ask_udp_connection_request`. -/
def requestPacket (garbage : UInt16) (clientUuid : Uuid) (number : UInt64) : Packet :=
  Packet.deserializeTyped garbage SystemTypes.ASKUDP_NUMBER
    (Packet.serializeStruct (⟨clientUuid, number⟩ : UdpConnectionPacketInitialisation))

/-- `ask_udp_connection_request`: the number goes to the client over TCP, which only the client
reads. -/
def askUdpConnectionRequest (garbage : UInt16) (s : Server) (clientUuid : Uuid) (number : UInt64)
    (tcpConnectionId : Uuid) : Server :=
  s.baseSendTcp tcpConnectionId (requestPacket garbage clientUuid number).serialize

/-- The packet of `ask_udp_connection_response`. -/
def responsePacket (garbage : UInt16) (clientUuid : Uuid) (transformedNumber : UInt64) : Packet :=
  Packet.deserializeTyped garbage SystemTypes.ASKUDP_RESPONSE
    (Packet.serializeStruct (⟨clientUuid, transformedNumber⟩ : UdpConnectionPacketConfirmation))

/-- `ask_udp_connection_response`: the number goes back over UDP, so that the server sees the
address. -/
def askUdpConnectionResponse (garbage : UInt16) (s : Server) (clientUuid : Uuid)
    (transformedNumber : UInt64) : Server :=
  s.baseSendUdp (responsePacket garbage clientUuid transformedNumber).serialize

/-- The verified client takes the address: its record, the cache, the callback. -/
def bindUdp (s : Server) (addr : SocketAddr) (clientUuid : Uuid) : Server :=
  { s with
    clients := OrdMap.modify Uuid.lt s.clients clientUuid fun client =>
      { client with udpAddr := addr }
    udpConnectionCache := OrdMap.insert SocketAddr.lt s.udpConnectionCache addr clientUuid
    : Server }.call (.onUdpConnect clientUuid)

section Transform

variable (transformNumber : UInt64 → UInt64)

/-- `handle_udp_connection_request`: a datagram that is no confirmation of a client's own number
changes nothing. What comes behind the packet in the datagram is not looked at. -/
def handleUdpConnectionRequest (s : Server) (data : List UInt8) (addr : SocketAddr) : Server :=
  match Packet.deserialize data with
  | none => s
  | some packet =>
    if packet.header.type = SystemTypes.ASKUDP_RESPONSE then
      match (Packet.deserializeStruct packet.data : Option UdpConnectionPacketConfirmation) with
      | none => s
      | some udpData =>
        match OrdMap.find Uuid.lt s.clients udpData.clientUuid with
        | none => s
        | some (_, client) =>
          if transformNumber client.generatedNumber = udpData.transformedNumber then
            s.bindUdp addr udpData.clientUuid
          else s
    else s

/-! ## Events -/

/-- `on_tcp_connection`: a new client gets an id and a number, and is asked for its UDP address. -/
def onTcpConnection (garbage : UInt16) (clientUuid : Uuid) (number : UInt64) (s : Server)
    (tcpConnectionId : Uuid) : Server :=
  let s := { s with
    clientUUIDs := clientUuid :: s.clientUUIDs
    clients := OrdMap.insert Uuid.lt s.clients clientUuid (Client.new tcpConnectionId number) }
  (s.call (.onTcpConnect clientUuid)).askUdpConnectionRequest garbage clientUuid number
    tcpConnectionId

/-- The first client with the connection id, in the order of the map. -/
def clientOf (s : Server) (tcpConnectionId : Uuid) : Option (Uuid × Client) :=
  s.clients.find? fun client => client.2.tcpConnectionId = tcpConnectionId

/-- `on_tcp_disconnection`: the client goes, and with it the entry of the cache that its address is
found under. -/
def onTcpDisconnection (s : Server) (tcpConnectionId : Uuid) : Server :=
  match s.clientOf tcpConnectionId with
  | none => s
  | some (clientUuid, client) =>
    let s := s.call (.onTcpDisconnect clientUuid)
    { s with
      udpConnectionCache := OrdMap.erase SocketAddr.lt s.udpConnectionCache client.udpAddr
      clients := OrdMap.erase Uuid.lt s.clients clientUuid }

/-- `none`: the end of the cache is dereferenced. -/
def onUdpData (s : Server) (addr : SocketAddr) (data : List UInt8) : Option Server :=
  let matchingClient := OrdMap.find SocketAddr.lt s.udpConnectionCache addr
  if matchingClient.isSome || s.udpConfirmed then
    match Packet.deserialize data with
    | none => some s
    | some packet => matchingClient.map fun e => s.call (.onPacket packet e.2)
  else some (s.handleUdpConnectionRequest transformNumber data addr)

/-- The body of the loop of `on_tcp_data`. -/
def handlePacket (garbage : UInt16) (s : Server) (clientUuid : Uuid) (packet : Packet) : Server :=
  if packet.header.type = SystemTypes.ASKUDP_NUMBER then
    match (Packet.deserializeStruct packet.data : Option UdpConnectionPacketInitialisation) with
    | some udpData => s.askUdpConnectionResponse garbage udpData.clientUuid
        (transformNumber udpData.generatedNumber)
    | none => s
  else s.call (.onPacket packet clientUuid)

/-- The loop of `on_tcp_data`, with nobody filling the reader meanwhile. -/
def onTcpDataLoop (clientUuid : Uuid) (garbage : Nat → UInt16) (s : Server) (reader : BufReader) :
    Server × BufReader :=
  match _h : Packet.deserialize reader.unread with
  | none => (s, reader)
  | some packet =>
    onTcpDataLoop clientUuid (fun i => garbage (i + 1))
      (s.handlePacket transformNumber (garbage 0) clientUuid packet) (reader.consume packet.size)
termination_by reader.unread.length
decreasing_by
  obtain ⟨-, hle, -⟩ := Packet.deserialize_some _h
  have hpos := packet.size_pos
  rw [reader.unread_consume hle, List.length_drop]
  omega

/-- `on_tcp_data`: the packets that are complete in the reader, one after the other, for the client
with this connection. -/
def onTcpData (garbage : Nat → UInt16) (s : Server) (tcpConnectionId : Uuid) (reader : BufReader) :
    Server × BufReader :=
  match s.clientOf tcpConnectionId with
  | none => (s, reader)
  | some (clientUuid, _) => onTcpDataLoop transformNumber clientUuid garbage s reader

end Transform

/-- `number_clients`: the entries of the cache. -/
def numberClients (s : Server) : Nat := s.udpConnectionCache.length

/-- `has_udp_connection`: the address in the client's record is in the cache, whoever has
it there. -/
def hasUdpConnection (s : Server) (clientUuid : Uuid) : Bool :=
  match OrdMap.find Uuid.lt s.clients clientUuid with
  | some (_, client) => (OrdMap.find SocketAddr.lt s.udpConnectionCache client.udpAddr).isSome
  | none => false

/-! ## What the events do -/

variable {s : Server} {transformNumber : UInt64 → UInt64}

/-- A complete packet is handled and taken out, and the loop goes on. -/
theorem onTcpDataLoop_of_some {clientUuid : Uuid} {garbage : Nat → UInt16} {reader : BufReader}
    {packet : Packet} (h : Packet.deserialize reader.unread = some packet) :
    s.onTcpDataLoop transformNumber clientUuid garbage reader =
      (s.handlePacket transformNumber (garbage 0) clientUuid packet).onTcpDataLoop transformNumber
        clientUuid (fun i => garbage (i + 1)) (reader.consume packet.size) := by
  rw [onTcpDataLoop]
  split
  · next hn => rw [h] at hn; cases hn
  · next p hp =>
    rw [h] at hp
    cases hp
    rfl

/-- Without a complete packet the loop ends, and the bytes stay for the next time. -/
theorem onTcpDataLoop_of_none {clientUuid : Uuid} {garbage : Nat → UInt16} {reader : BufReader}
    (h : Packet.deserialize reader.unread = none) :
    s.onTcpDataLoop transformNumber clientUuid garbage reader = (s, reader) := by
  rw [onTcpDataLoop]
  split
  · rfl
  · next p hp => rw [h] at hp; cases hp

/-- Handling a packet queues a datagram at most. -/
theorem handlePacket_base (transformNumber : UInt64 → UInt64) (garbage : UInt16) (s : Server)
    (clientUuid : Uuid) (packet : Packet) :
    ∃ queue, (s.handlePacket transformNumber garbage clientUuid packet).toBaseServer =
        { s.toBaseServer with sendUdpQueue := queue } ∧
      (s.handlePacket transformNumber garbage clientUuid packet).clients = s.clients ∧
      (s.handlePacket transformNumber garbage clientUuid packet).clientUUIDs = s.clientUUIDs := by
  unfold handlePacket
  split
  · split
    · unfold askUdpConnectionResponse baseSendUdp BaseServer.sendUdp
      split
      · exact ⟨_, rfl, rfl, rfl⟩
      · exact ⟨s.sendUdpQueue, rfl, rfl, rfl⟩
    · exact ⟨s.sendUdpQueue, rfl, rfl, rfl⟩
  · exact ⟨s.sendUdpQueue, rfl, rfl, rfl⟩

/-- A disconnection does nothing to the base server and takes back no id. -/
theorem onTcpDisconnection_base (s : Server) (id : Uuid) :
    (s.onTcpDisconnection id).toBaseServer = s.toBaseServer ∧
      (s.onTcpDisconnection id).clientUUIDs = s.clientUUIDs := by
  unfold onTcpDisconnection
  split
  · exact ⟨rfl, rfl⟩
  · exact ⟨rfl, rfl⟩

/-- The clients are in order, and their ids were given out. -/
structure ClientsInv (s : Server) : Prop where
  sorted : OrdMap.Sorted Uuid.lt s.clients
  given : ∀ e ∈ s.clients, e.1 ∈ s.clientUUIDs

/-- A uuid not given out is not found. -/
theorem ClientsInv.find_none (h : ClientsInv s) {c : Uuid} (hc : c ∉ s.clientUUIDs) :
    OrdMap.find Uuid.lt s.clients c = none := by
  cases hfind : OrdMap.find Uuid.lt s.clients c with
  | none => rfl
  | some e =>
    have hmem := h.given e (OrdMap.find_some hfind).1
    rw [OrdMap.find_key Uuid.lt_tri hfind] at hmem
    exact absurd hmem hc

/-- A new id goes to its place in the map, as it was never given out. -/
theorem ClientsInv.onTcpConnection (h : ClientsInv s) (garbage : UInt16) {c : Uuid}
    (number : UInt64) (id : Uuid) (hc : c ∉ s.clientUUIDs) :
    ClientsInv (s.onTcpConnection garbage c number id) where
  sorted := h.sorted.insert Uuid.lt_trans c _
  given e he := by
    rcases (OrdMap.mem_insert_of_none (h.find_none hc)).mp he with rfl | he
    · exact List.mem_cons_self
    · exact List.mem_cons_of_mem _ (h.given e he)

/-- A client that goes leaves the others in their places. -/
theorem ClientsInv.onTcpDisconnection (h : ClientsInv s) (id : Uuid) :
    ClientsInv (s.onTcpDisconnection id) := by
  unfold Server.onTcpDisconnection
  split
  · exact h
  · exact ⟨h.sorted.erase _, fun e he => h.given e (OrdMap.mem_of_mem_erase he)⟩

/-- The client that is found has the connection it was looked for by. -/
theorem clientOf_tcpConnectionId {id c : Uuid} {client : Client}
    (h : s.clientOf id = some (c, client)) : client.tcpConnectionId = id := by
  unfold clientOf at h
  have := List.find?_some h
  exact of_decide_eq_true this

/-- After a connect the connection has a client, and the others have what they had. -/
theorem clientOf_onTcpConnection (h : ClientsInv s) (garbage : UInt16) {c : Uuid}
    (number : UInt64) (id : Uuid) (hc : c ∉ s.clientUUIDs) :
    ((s.onTcpConnection garbage c number id).clientOf id).isSome ∧
      ∀ d, d ≠ id → (s.onTcpConnection garbage c number id).clientOf d = s.clientOf d := by
  have hclients : (s.onTcpConnection garbage c number id).clients =
      OrdMap.below Uuid.lt s.clients c ++
        (c, Client.new id number) :: OrdMap.lowerBound Uuid.lt s.clients c := by
    show OrdMap.insert Uuid.lt s.clients c (Client.new id number) = _
    simp only [OrdMap.insert, h.find_none hc]
  constructor
  · rw [clientOf, hclients, List.find?_isSome]
    exact ⟨_, List.mem_append_right _ List.mem_cons_self, decide_eq_true rfl⟩
  · intro d hd
    have hne : ¬ id = d := by
      intro heq
      exact hd heq.symm
    have hsplit := OrdMap.below_append_lowerBound Uuid.lt s.clients c
    rw [clientOf, clientOf, hclients]
    calc _ = (OrdMap.below Uuid.lt s.clients c ++ OrdMap.lowerBound Uuid.lt s.clients c).find?
          fun client => decide (client.2.tcpConnectionId = d) := by
          simp only [List.find?_append, List.find?_cons, Client.new, hne, decide_false]
      _ = _ := by rw [hsplit]

/-- A disconnect takes no client from another connection. -/
theorem clientOf_onTcpDisconnection (h : ClientsInv s) {id d : Uuid} (hd : d ≠ id) :
    (s.onTcpDisconnection id).clientOf d = s.clientOf d := by
  cases hof : s.clientOf id with
  | none => simp only [onTcpDisconnection, hof]
  | some e =>
    obtain ⟨c, client⟩ := e
    have hmem := List.mem_of_find?_eq_some hof
    have hid : client.tcpConnectionId = id := clientOf_tcpConnectionId hof
    have hfind := OrdMap.find_of_mem Uuid.lt_irrefl h.sorted hmem
    obtain ⟨pre, post, hm, herase⟩ := OrdMap.erase_of_some hfind
    have hclients : (s.onTcpDisconnection id).clients = pre ++ post := by
      simp only [onTcpDisconnection, hof]
      exact herase
    have hne : ¬ client.tcpConnectionId = d := by
      intro heq
      exact hd (heq.symm.trans hid)
    rw [clientOf, hclients, clientOf, hm]
    simp only [List.find?_append, List.find?_cons, hne, decide_false]

end Server

end ProjectE.Net
