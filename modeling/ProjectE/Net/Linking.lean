import ProjectE.Net.Binding
import ProjectE.Net.Datagram

/-!
# A server and its peers

The handshake between all parties: a hosting server, any number of peers connected to it, the TCP
streams from the server to each of them and the datagrams on their way back. A stream keeps its
bytes in order and a peer reads them in pieces of any length; a datagram may be lost, may come
again and may overtake others, so one that was sent can be received at any time. A step is a call
of one party's code, or the network's.

The server's tables are compared with the sessions drawn for the connections (`Seats`): each client
and each entry of the cache is of one session, and has no address but that of the session's peer.
That a datagram which confirms a client comes from the client's own peer is a condition here; it
rests on who knows the numbers (`Honest`).
-/

namespace ProjectE.Net

open Verif

/-- The peers, one for each TCP connection to the server: the connection's id at the server and at
the peer, and the address the peer's datagrams come from. -/
structure Peers (ι : Type*) where
  conn : ι → Uuid
  own : ι → Uuid
  addr : ι → SocketAddr
  conn_injective : conn.Injective

/-- The server, its peers, and the bytes and datagrams between them. -/
structure Network (ι : Type*) where
  host : Server
  peer : ι → Server
  /-- The bytes sent to the peer that it has not parsed. -/
  stream : ι → List UInt8
  /-- The datagrams sent to the server, with their source. -/
  datagrams : List (SocketAddr × List UInt8)
  /-- The TCP connection stands. -/
  alive : ι → Bool
  /-- The uuid and the number drawn for the connection, for the statements only. -/
  session : ι → Option (Uuid × UInt64)

/-- The steps of the server, of the peers, and of the network; `stranger` is anybody who is not a
peer. -/
inductive NetLabel (ι : Type*) where
  | accept (i : ι) (client : Uuid) (number : UInt64) (garbage : UInt16)
  | close (i : ι)
  /-- The server handles the end of the connection. -/
  | disconnect (i : ι)
  /-- The server's user sends over TCP. -/
  | say (client : Uuid) (type : MsgType) (data : List UInt8) (garbage : UInt16)
  | flush
  /-- A turn of the server's loop on what came over TCP from a peer. -/
  | hear (i : ι) (buffer : List UInt8) (garbage : UInt16)
  /-- A turn of the peer's loop, with so many bytes of the stream arrived. -/
  | turn (i : ι) (arrived : Nat) (garbage : UInt16)
  /-- The peer's user sends a datagram. -/
  | speak (i : ι) (client : Uuid) (type : MsgType) (data : List UInt8) (garbage : UInt16)
  | emit (i : ι)
  | receive (k : Nat)
  | handle
  /-- A datagram of anybody else comes to be handled. -/
  | stranger (addr : SocketAddr) (data : List UInt8)

namespace Network

variable {ι : Type*}

section Machine

variable [DecidableEq ι] (transformNumber : UInt64 → UInt64) (P : Peers ι)

/-- The peer's stream after a turn: a complete packet is taken off. -/
def afterTurn (stream : List UInt8) (arrived : Nat) : List UInt8 :=
  match Packet.deserialize (stream.take arrived) with
  | some packet => stream.drop packet.size
  | none => stream

/-- What a step does. The bytes of a stream arrive in order; a datagram may arrive at any time and
more than once, or never. -/
def step (n : Network ι) : NetLabel ι → Option (Network ι)
  | .accept i client number garbage =>
    if n.session i = none ∧ client ∉ n.host.clientUUIDs then
      some { n with
        host := n.host.onTcpConnection garbage client number (P.conn i)
        session := Function.update n.session i (some (client, number))
        alive := Function.update n.alive i true }
    else none
  | .close i => some { n with alive := Function.update n.alive i false }
  | .disconnect i =>
    if n.alive i then none
    else some { n with host := n.host.onTcpDisconnection (P.conn i) }
  | .say client type data garbage =>
    some { n with host := n.host.sendTcp garbage client type data }
  | .flush =>
    match n.host.sendTcpQueue with
    | [] => none
    | (id, bytes) :: rest =>
      some { n with
        host := { n.host with sendTcpQueue := rest }
        stream := fun i => if P.conn i = id ∧ n.alive i then n.stream i ++ bytes else n.stream i }
  | .hear i buffer garbage =>
    some { n with host := n.host.onTcpPacket transformNumber garbage (P.conn i) buffer }
  | .turn i arrived garbage =>
    some { n with
      peer := Function.update n.peer i ((n.peer i).onTcpPacket transformNumber garbage (P.own i)
        ((n.stream i).take arrived))
      stream := Function.update n.stream i (afterTurn (n.stream i) arrived) }
  | .speak i client type data garbage =>
    some { n with peer := Function.update n.peer i ((n.peer i).sendUdp garbage client type data) }
  | .emit i =>
    match (n.peer i).sendUdpQueue with
    | [] => none
    | (_, data) :: _ =>
      some { n with
        peer := Function.update n.peer i
          { n.peer i with toBaseServer := (n.peer i).toBaseServer.handleUdpWriteEvent }
        datagrams := n.datagrams ++ [(P.addr i, data)] }
  | .receive k =>
    match n.datagrams[k]? with
    | none => none
    | some (addr, data) =>
      let os := { BaseServer.readAnswer (.error 0) with recvFrom := .ok (data, addr) }
      some { n with host := { n.host with
        toBaseServer := n.host.toBaseServer.handleUdpReadEvent Server.isValidUdpMessage os } }
  | .handle =>
    match n.host.recvUdpQueue with
    | [] => none
    | (addr, data) :: rest =>
      ({ n.host with recvUdpQueue := rest } : Server).onUdpData transformNumber addr data |>.map
        fun host => { n with host := host }
  | .stranger addr data =>
    (n.host.onUdpData transformNumber addr data).map fun host => { n with host := host }

/-- Nothing has happened yet: the server hosts, and each peer stands connected to it by TCP and
knows where to send its datagrams. -/
def Starts (n : Network ι) : Prop :=
  Server.Hosts n.host ∧ n.host.sendTcpQueue = [] ∧ n.host.recvUdpQueue = [] ∧
    (∀ i, ((n.peer i).clientOf (P.own i)).isSome ∧ (n.peer i).udpConnectionAddr.isSome ∧
      (n.peer i).sendUdpQueue = []) ∧
    (∀ i, n.stream i = []) ∧ n.datagrams = [] ∧ ∀ i, n.session i = none

/-- The runs of the network, from one in which nobody has said anything. -/
def machine : Machine (Network ι) (NetLabel ι) where
  init := Starts P
  step := step transformNumber P

/-- Users send no requests and no confirmations of their own, and what goes over TCP fits a packet;
nobody but the peers has a number. -/
def Honest (n : Network ι) : NetLabel ι → Prop
  | .say _ type data _ => type ≠ SystemTypes.ASKUDP_NUMBER ∧ data.length < 2 ^ 16
  | .speak _ _ type _ _ => type ≠ SystemTypes.ASKUDP_RESPONSE
  | .stranger _ data => ∀ c, ¬ Server.Confirms transformNumber n.host data c
  | _ => True

end Machine

/-! ## The seats -/

/-- The server's tables against the sessions: each client is of one session and has the number and
the connection of it, and no address but the peer's; so has each entry of the cache. -/
structure Seats (P : Peers ι) (session : ι → Option (Uuid × UInt64)) (s : Server) : Prop
    extends Server.TableInv s where
  given : ∀ e ∈ s.clients, e.1 ∈ s.clientUUIDs
  client : ∀ e ∈ s.clients, ∃ i, session i = some (e.1, e.2.generatedNumber) ∧
    e.2.tcpConnectionId = P.conn i ∧
    (e.2.udpAddr = SocketAddr.default ∨ e.2.udpAddr = P.addr i)
  cache : ∀ e ∈ s.udpConnectionCache, ∃ i number, session i = some (e.2, number) ∧ e.1 = P.addr i
  issued : ∀ i c number, session i = some (c, number) → c ∈ s.clientUUIDs
  once : ∀ i j c k l, session i = some (c, k) → session j = some (c, l) → i = j

variable {P : Peers ι} {session : ι → Option (Uuid × UInt64)} {s t : Server} {i : ι} {c : Uuid}
variable {number : UInt64} {transformNumber : UInt64 → UInt64}

/-- Only the tables matter. -/
theorem Seats.congr (h : Seats P session s) (hclients : t.clients = s.clients)
    (hcache : t.udpConnectionCache = s.udpConnectionCache)
    (huuids : t.clientUUIDs = s.clientUUIDs) (hconfirmed : t.udpConfirmed = s.udpConfirmed) :
    Seats P session t where
  clients_sorted := by rw [hclients]; exact h.clients_sorted
  cache_sorted := by rw [hcache]; exact h.cache_sorted
  table := by
    unfold Server.SessionTable
    rw [hclients, hcache]
    exact h.table
  hosts := hconfirmed.trans h.hosts
  given := by rw [hclients, huuids]; exact h.given
  client := by rw [hclients]; exact h.client
  cache := by rw [hcache]; exact h.cache
  issued := by rw [huuids]; exact h.issued
  once := h.once

theorem Seats.accept [DecidableEq ι] (h : Seats P session s) (garbage : UInt16)
    (hi : session i = none) (hc : c ∉ s.clientUUIDs) :
    Seats P (Function.update session i (some (c, number)))
      (s.onTcpConnection garbage c number (P.conn i)) := by
  have hinv : Server.ClientsInv s := ⟨h.clients_sorted, h.given⟩
  have hother {j : ι} {v : Uuid × UInt64} (hj : session j = some v) :
      Function.update session i (some (c, number)) j = some v := by
    rw [Function.update_of_ne ?_, hj]
    rintro rfl
    rw [hi] at hj
    cases hj
  have hcases {j : ι} {d : Uuid} {k : UInt64}
      (hj : Function.update session i (some (c, number)) j = some (d, k)) :
      j = i ∧ d = c ∨ session j = some (d, k) := by
    by_cases hji : j = i
    · subst hji
      rw [Function.update_self] at hj
      cases hj
      exact .inl ⟨rfl, rfl⟩
    · rw [Function.update_of_ne hji] at hj
      exact .inr hj
  refine ⟨h.toTableInv.onTcpConnection garbage c number (P.conn i), ?_, ?_, ?_, ?_, ?_⟩
  · exact (hinv.onTcpConnection garbage number (P.conn i) hc).given
  · intro e he
    rcases (OrdMap.mem_insert_of_none (hinv.find_none hc)).mp he with rfl | he
    · exact ⟨i, Function.update_self .., rfl, .inl rfl⟩
    · obtain ⟨j, hj, hconn, haddr⟩ := h.client e he
      exact ⟨j, hother hj, hconn, haddr⟩
  · intro e he
    obtain ⟨j, k, hj, haddr⟩ := h.cache e he
    exact ⟨j, k, hother hj, haddr⟩
  · intro j d k hj
    rcases hcases hj with ⟨-, rfl⟩ | hj
    · exact List.mem_cons_self
    · exact List.mem_cons_of_mem _ (h.issued j d k hj)
  · -- the uuid was not given out before, so no other session has it
    intro j l d k k' hj hl
    rcases hcases hj with ⟨rfl, rfl⟩ | hj'
    · rcases hcases hl with ⟨rfl, -⟩ | hl'
      · rfl
      · exact absurd (h.issued l _ k' hl') hc
    · rcases hcases hl with ⟨-, rfl⟩ | hl'
      · exact absurd (h.issued j _ k hj') hc
      · exact h.once j l d k k' hj' hl'

theorem Seats.disconnect (h : Seats P session s) (id : Uuid) :
    Seats P session (s.onTcpDisconnection id) := by
  have htable := h.toTableInv.onTcpDisconnection id
  cases hof : s.clientOf id with
  | none =>
    have heq : s.onTcpDisconnection id = s := by simp only [Server.onTcpDisconnection, hof]
    rwa [heq]
  | some e =>
    obtain ⟨d, client⟩ := e
    obtain ⟨hclients, hcache, -⟩ := Server.onTcpDisconnection_maps hof
    have huuids := (Server.onTcpDisconnection_base s id).2
    refine ⟨htable, ?_, ?_, ?_, ?_, h.once⟩
    · rw [hclients, huuids]
      exact fun e he => h.given e (OrdMap.mem_of_mem_erase he)
    · rw [hclients]
      exact fun e he => h.client e (OrdMap.mem_of_mem_erase he)
    · rw [hcache]
      exact fun e he => h.cache e (OrdMap.mem_of_mem_erase he)
    · rw [huuids]
      exact h.issued

/-- A datagram that confirms a client is from that client's peer, so it binds the peer's address. -/
theorem Seats.onUdpData (h : Seats P session s) {addr : SocketAddr} {data : List UInt8}
    (hsource : ∀ c, Server.Confirms transformNumber s data c →
      ∃ i number, session i = some (c, number) ∧ addr = P.addr i)
    (hs : s.onUdpData transformNumber addr data = some t) : Seats P session t := by
  have honce : Server.BindsOnce transformNumber s (.udpData addr data) := by
    intro hnone c hc addr' hmem
    obtain ⟨i, k, hi, haddr⟩ := hsource c hc
    obtain ⟨j, l, hj, haddr'⟩ := h.cache (addr', c) hmem
    cases h.once i j c k l hi hj
    have heq : addr' = addr := haddr'.trans haddr.symm
    subst heq
    rw [OrdMap.find_of_mem SocketAddr.lt_irrefl h.cache_sorted hmem] at hnone
    cases hnone
  have htable := h.toTableInv.onUdpData honce hs
  cases Server.delivered_onUdpData hs with
  | dropped => exact h
  | datagram => exact h.congr rfl rfl rfl rfl
  | @bound _ _ c hnot hc =>
    have hnone := Server.find_none_of_not_takesPackets hnot
    obtain ⟨i, k, hi, haddr⟩ := hsource c hc
    obtain ⟨pre, post, client, hclients, hbound⟩ := Server.clients_bindUdp addr hc
    have hmem : (c, client) ∈ s.clients := by
      rw [hclients]
      exact List.mem_append_right _ List.mem_cons_self
    have hold (e : Uuid × Client) (he : e ∈ (s.bindUdp addr c).clients) :
        e = (c, { client with udpAddr := addr }) ∨ e ∈ s.clients := by
      rw [hbound] at he
      rw [hclients]
      simp only [List.mem_append, List.mem_cons] at he ⊢
      tauto
    refine ⟨htable, ?_, ?_, ?_, h.issued, h.once⟩
    · intro e he
      rcases hold e he with rfl | he
      · exact h.given (c, client) hmem
      · exact h.given e he
    · intro e he
      rcases hold e he with rfl | he
      · obtain ⟨j, hj, hconn, -⟩ := h.client _ hmem
        cases h.once i j c _ _ hi hj
        exact ⟨i, hj, hconn, .inr haddr⟩
      · exact h.client e he
    · intro e he
      rcases (OrdMap.mem_insert_of_none hnone).mp he with rfl | he
      · exact ⟨i, k, hi, haddr⟩
      · exact h.cache e he

end Network

end ProjectE.Net
