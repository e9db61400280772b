import ProjectE.Net.AddrOrder
import ProjectE.Net.Linking

/-!
# The exchange

What is on its way between a server and its peers: every request in the server's queue or in a
stream is for the session of its connection, and every datagram of a peer answers the request of
its own session or confirms nobody (`Mail`). Each step keeps this, so the server's tables stay
right whatever the network does with the datagrams (`links_agree`), and where a connection stands
its client can still be bound (`links_complete`): the request, or the answer to it, is never lost
before it is a datagram.
-/

namespace ProjectE.Net

open Verif

/-- The order of the addresses tells the peers apart. -/
def Peers.Apart {ι : Type*} (P : Peers ι) : Prop :=
  ∀ i j, SocketAddr.Incomparable (P.addr i) (P.addr j) → i = j

namespace Network

variable {ι : Type*} {P : Peers ι} {session : ι → Option (Uuid × UInt64)} {s t : Server} {i : ι}
variable {c : Uuid} {number : UInt64} {transformNumber : UInt64 → UInt64}

/-! ## What is on its way -/

/-- The packet is the request made for the connection. -/
def Asks (session : ι → Option (Uuid × UInt64)) (i : ι) (packet : Packet) : Prop :=
  ∃ c number garbage, session i = some (c, number) ∧
    packet = Server.requestPacket garbage c number

/-- The bytes are the answer to that request, or confirm nobody. -/
def Authored (transformNumber : UInt64 → UInt64) (session : ι → Option (Uuid × UInt64)) (i : ι)
    (data : List UInt8) : Prop :=
  (∃ c number garbage, session i = some (c, number) ∧
    data = (Server.responsePacket garbage c (transformNumber number)).serialize) ∨
  ∀ packet, Packet.deserialize data = some packet →
    packet.header.type ≠ SystemTypes.ASKUDP_RESPONSE

/-- The request of the session, or the answer to it, is on its way. -/
def Underway (transformNumber : UInt64 → UInt64) (P : Peers ι) (n : Network ι) (i : ι) (c : Uuid)
    (number : UInt64) : Prop :=
  (∃ garbage, (P.conn i, (Server.requestPacket garbage c number).serialize) ∈
    n.host.sendTcpQueue) ∨
  (∃ garbage, Server.requestPacket garbage c number ∈
    (Packet.framing.splitAll (n.stream i)).1) ∨
  (∃ garbage target, (target, (Server.responsePacket garbage c
    (transformNumber number)).serialize) ∈ (n.peer i).sendUdpQueue) ∨
  ∃ garbage, (P.addr i, (Server.responsePacket garbage c (transformNumber number)).serialize) ∈
    n.datagrams

/-- Everything that is under way between the server and its peers: what it may say, by the place it
is at. `underway` says that something still comes: the request of a session that stands, or its
answer, is on its way. -/
structure Mail (transformNumber : UInt64 → UInt64) (P : Peers ι) (n : Network ι) : Prop where
  queued : ∀ e ∈ n.host.sendTcpQueue, ∃ packet : Packet, e.2 = packet.serialize ∧ packet.WF ∧
    (packet.header.type = SystemTypes.ASKUDP_NUMBER → ∃ i, P.conn i = e.1 ∧
      Asks n.session i packet)
  whole : ∀ i, (Packet.framing.splitAll (n.stream i)).2 = []
  asked : ∀ i, ∀ packet ∈ (Packet.framing.splitAll (n.stream i)).1,
    packet.header.type = SystemTypes.ASKUDP_NUMBER → Asks n.session i packet
  outbox : ∀ i, ∀ e ∈ (n.peer i).sendUdpQueue, Authored transformNumber n.session i e.2
  air : ∀ e ∈ n.datagrams, ∃ i, e.1 = P.addr i ∧ Authored transformNumber n.session i e.2
  inbox : ∀ e ∈ n.host.recvUdpQueue, ∃ i, e.1 = P.addr i ∧
    Authored transformNumber n.session i e.2
  ready : ∀ i, ((n.peer i).clientOf (P.own i)).isSome ∧ (n.peer i).udpConnectionAddr.isSome
  underway : ∀ i c number, n.session i = some (c, number) → n.alive i = true →
    Underway transformNumber P n i c number

/-- Sessions that begin later change nothing about what was written before. -/
theorem Asks.mono {session' : ι → Option (Uuid × UInt64)} {packet : Packet}
    (hs : ∀ v, session i = some v → session' i = some v) (h : Asks session i packet) :
    Asks session' i packet := by
  obtain ⟨c, number, garbage, hi, heq⟩ := h
  exact ⟨c, number, garbage, hs _ hi, heq⟩

theorem Authored.mono {session' : ι → Option (Uuid × UInt64)} {data : List UInt8}
    (hs : ∀ v, session i = some v → session' i = some v)
    (h : Authored transformNumber session i data) : Authored transformNumber session' i data := by
  rcases h with ⟨c, number, garbage, hi, heq⟩ | h
  · exact .inl ⟨c, number, garbage, hs _ hi, heq⟩
  · exact .inr h

/-- What begins with the bytes sent, cut at any length, is the answer too or confirms nobody. -/
theorem Authored.take {data : List UInt8} (h : Authored transformNumber session i data) {k : Nat}
    (hk : 24 ≤ k) : Authored transformNumber session i (data.take k) := by
  rcases h with ⟨c, number, garbage, hi, rfl⟩ | h
  · refine .inl ⟨c, number, garbage, hi, List.take_of_length_le ?_⟩
    rw [Packet.length_serialize]
    exact hk
  · refine .inr fun packet hdes => h packet ?_
    have := Packet.deserialize_append hdes (data.drop k)
    rwa [List.take_append_drop] at this

/-- A peer's datagram confirms at most the client of its own session. -/
theorem Authored.confirms {data : List UInt8} (h : Authored transformNumber session i data)
    (hc : Server.Confirms transformNumber s data c) : ∃ number, session i = some (c, number) := by
  obtain ⟨packet, entry, hdes, htype, -, hdata⟩ := Server.confirms_iff.mp hc
  rcases h with ⟨d, number, garbage, hi, rfl⟩ | h
  · have hread := Packet.deserialize_serialize_append
      (Server.responsePacket_wf garbage d (transformNumber number)) []
    rw [List.append_nil, hdes] at hread
    cases hread
    have hfst := congrArg packedFst hdata
    rw [packedFst_packedBytes] at hfst
    have hd : d = c := by
      rw [← hfst]
      exact (packedFst_packedBytes d (transformNumber number)).symm
    exact ⟨number, hd ▸ hi⟩
  · exact absurd htype (h packet hdes)

/-- The type in the header of what is read is the type that was written. -/
theorem type_of_deserialize_serialize {p q : Packet} (h : Packet.deserialize p.serialize = some q) :
    q.header.type = p.header.type := by
  obtain ⟨-, hle, himage⟩ := Packet.deserialize_some h
  have hfront : q.serialize.take Header.sizeof = p.serialize.take Header.sizeof := by
    rw [himage, List.take_take, Nat.min_eq_left q.sizeof_le_size]
  rw [Packet.serialize, Packet.serialize, List.take_left' (Header.length_bytes _),
    List.take_left' (Header.length_bytes _)] at hfront
  have := congrArg Header.ofBytes hfront
  rw [Header.ofBytes_bytes, Header.ofBytes_bytes] at this
  rw [this]

variable {n m : Network ι}

/-- The server's side of a step that takes nothing from the streams and the air. -/
private theorem Mail.host (h : Mail transformNumber P n)
    (hqueue : t.sendTcpQueue = n.host.sendTcpQueue)
    (hrecv : ∀ e ∈ t.recvUdpQueue, e ∈ n.host.recvUdpQueue) :
    Mail transformNumber P { n with host := t } where
  queued := by
    change ∀ e ∈ t.sendTcpQueue, _
    rw [hqueue]
    exact h.queued
  whole := h.whole
  asked := h.asked
  outbox := h.outbox
  air := h.air
  inbox e he := h.inbox e (hrecv e he)
  ready := h.ready
  underway i c number hi ha := by
    unfold Underway
    change (∃ garbage, _ ∈ t.sendTcpQueue) ∨ _
    rw [hqueue]
    exact h.underway i c number hi ha

private theorem Mail.accept [DecidableEq ι] (h : Mail transformNumber P n) (garbage : UInt16)
    (hi : n.session i = none) :
    Mail transformNumber P { n with
      host := n.host.onTcpConnection garbage c number (P.conn i)
      session := Function.update n.session i (some (c, number))
      alive := Function.update n.alive i true } := by
  have hqueue : (n.host.onTcpConnection garbage c number (P.conn i)).sendTcpQueue =
      n.host.sendTcpQueue ++ [(P.conn i, (Server.requestPacket garbage c number).serialize)] := rfl
  have hother (j : ι) (v : Uuid × UInt64) (hj : n.session j = some v) :
      Function.update n.session i (some (c, number)) j = some v := by
    rw [Function.update_of_ne ?_, hj]
    rintro rfl
    rw [hi] at hj
    cases hj
  refine ⟨?_, h.whole, ?_, ?_, ?_, ?_, h.ready, ?_⟩
  · intro e he
    rw [hqueue] at he
    rcases List.mem_append.mp he with he | he
    · obtain ⟨packet, hbytes, hwf, hasks⟩ := h.queued e he
      refine ⟨packet, hbytes, hwf, fun htype => ?_⟩
      obtain ⟨j, hconn, hj⟩ := hasks htype
      exact ⟨j, hconn, hj.mono (hother j)⟩
    · cases List.mem_singleton.mp he
      exact ⟨_, rfl, Server.requestPacket_wf garbage c number,
        fun _ => ⟨i, rfl, c, number, garbage, Function.update_self .., rfl⟩⟩
  · exact fun j packet hp htype => (h.asked j packet hp htype).mono (hother j)
  · exact fun j e he => (h.outbox j e he).mono (hother j)
  · intro e he
    obtain ⟨j, haddr, hj⟩ := h.air e he
    exact ⟨j, haddr, hj.mono (hother j)⟩
  · intro e he
    obtain ⟨j, haddr, hj⟩ := h.inbox e he
    exact ⟨j, haddr, hj.mono (hother j)⟩
  · intro j d k hj ha
    change Function.update n.session i (some (c, number)) j = some (d, k) at hj
    change Function.update n.alive i true j = true at ha
    by_cases hji : j = i
    · subst hji
      rw [Function.update_self] at hj
      cases hj
      exact .inl ⟨garbage, hqueue ▸ List.mem_append_right _ List.mem_cons_self⟩
    · rw [Function.update_of_ne hji] at hj ha
      rcases h.underway j d k hj ha with ⟨g, hmem⟩ | hrest
      · exact .inl ⟨g, hqueue ▸ List.mem_append_left _ hmem⟩
      · exact .inr hrest

private theorem Mail.say (h : Mail transformNumber P n) {client : Uuid} {type : MsgType}
    {data : List UInt8} (garbage : UInt16) (htype : type ≠ SystemTypes.ASKUDP_NUMBER)
    (hfits : data.length < 2 ^ 16) :
    Mail transformNumber P { n with host := n.host.sendTcp garbage client type data } := by
  cases hfind : OrdMap.find Uuid.lt n.host.clients client with
  | none =>
    have heq : n.host.sendTcp garbage client type data = n.host := by
      simp only [Server.sendTcp, hfind]
    rw [heq]
    exact h
  | some e =>
    obtain ⟨d, entry⟩ := e
    have heq : n.host.sendTcp garbage client type data = n.host.baseSendTcp entry.tcpConnectionId
        (Packet.deserializeTyped garbage type data).serialize := by
      simp only [Server.sendTcp, hfind]
    have hqueue : (n.host.sendTcp garbage client type data).sendTcpQueue = n.host.sendTcpQueue ++
        [(entry.tcpConnectionId, (Packet.deserializeTyped garbage type data).serialize)] := by
      rw [heq]
      rfl
    have hrecv : (n.host.sendTcp garbage client type data).recvUdpQueue =
        n.host.recvUdpQueue := by
      rw [heq]
      rfl
    refine ⟨?_, h.whole, h.asked, h.outbox, h.air, ?_, h.ready, ?_⟩
    · intro e he
      rw [hqueue] at he
      rcases List.mem_append.mp he with he | he
      · exact h.queued e he
      · cases List.mem_singleton.mp he
        exact ⟨_, rfl, (Packet.deserializeTyped_wf_iff _ _ _).mpr hfits, fun h => absurd h htype⟩
    · rw [hrecv]
      exact h.inbox
    · intro j d k hj ha
      rcases h.underway j d k hj ha with ⟨g, hmem⟩ | hrest
      · exact .inl ⟨g, hqueue ▸ List.mem_append_left _ hmem⟩
      · exact .inr hrest

/-- The front of the queue goes behind what its stream holds. -/
private theorem Mail.flush (h : Mail transformNumber P n) {id : Uuid} {bytes : List UInt8}
    {rest : List (Uuid × List UInt8)} (hqueue : n.host.sendTcpQueue = (id, bytes) :: rest) :
    Mail transformNumber P { n with
      host := { n.host with sendTcpQueue := rest }
      stream := fun i =>
        if P.conn i = id ∧ n.alive i then n.stream i ++ bytes else n.stream i } := by
  obtain ⟨packet, hbytes, hwf, hasks⟩ := h.queued (id, bytes) (hqueue ▸ List.mem_cons_self)
  have hone : Packet.framing.splitAll bytes = ([packet], []) := by
    have hsplits := Packet.splits_serialize (List.forall_mem_singleton.mpr hwf) []
    rw [List.flatMap_singleton, List.append_nil, ← hbytes] at hsplits
    exact hsplits.eq_splitAll Packet.deserialize_nil
  have hstream (i : ι) : Packet.framing.splitAll
      (if P.conn i = id ∧ n.alive i then n.stream i ++ bytes else n.stream i) =
      (if P.conn i = id ∧ n.alive i then (Packet.framing.splitAll (n.stream i)).1 ++ [packet]
        else (Packet.framing.splitAll (n.stream i)).1, []) := by
    split
    · exact Framing.splitAll_append (h.whole i) hone
    · exact Prod.ext rfl (h.whole i)
  refine ⟨fun e he => h.queued e (hqueue ▸ List.mem_cons_of_mem _ he), fun i => ?_, ?_, h.outbox,
    h.air, h.inbox, h.ready, ?_⟩
  · exact congrArg Prod.snd (hstream i)
  · intro i p hp htype
    rw [hstream i] at hp
    split at hp
    next hhere =>
      rcases List.mem_append.mp hp with hp | hp
      · exact h.asked i p hp htype
      · cases List.mem_singleton.mp hp
        obtain ⟨j, hconn, hj⟩ := hasks htype
        cases P.conn_injective (hconn.trans hhere.1.symm)
        exact hj
    · exact h.asked i p hp htype
  · intro i c number hi ha
    unfold Underway
    simp only [hstream i]
    rcases h.underway i c number hi ha with ⟨g, hmem⟩ | ⟨g, hmem⟩ | hrest
    · rw [hqueue] at hmem
      rcases List.mem_cons.mp hmem with heq | hmem
      · -- the request itself: its connection stands
        cases heq
        have hread := Packet.deserialize_serialize_append hwf []
        rw [List.append_nil, ← hbytes] at hread
        have hread' := Packet.deserialize_serialize_append (Server.requestPacket_wf g c number) []
        rw [List.append_nil, hread] at hread'
        cases hread'
        refine .inr (.inl ⟨g, ?_⟩)
        rw [if_pos ⟨rfl, ha⟩]
        exact List.mem_append_right _ List.mem_cons_self
      · exact .inl ⟨g, hmem⟩
    · refine .inr (.inl ⟨g, ?_⟩)
      split
      · exact List.mem_append_left _ hmem
      · exact hmem
    · exact .inr (.inr hrest)

/-- A turn of a peer's loop: nothing has arrived whole, or the packet at the front of the stream is
the user's, or it is the request of the session, which is answered. -/
theorem turn_cases (h : Mail transformNumber P n) (i : ι) (arrived : Nat)
    (garbage : UInt16) :
    let peer := (n.peer i).onTcpPacket transformNumber garbage (P.own i)
      ((n.stream i).take arrived)
    (peer.sendUdpQueue = (n.peer i).sendUdpQueue ∧
      afterTurn (n.stream i) arrived = n.stream i) ∨
    ∃ packet, Packet.framing.decode (n.stream i) = some packet ∧
      afterTurn (n.stream i) arrived = (n.stream i).drop packet.size ∧
      (packet.header.type ≠ SystemTypes.ASKUDP_NUMBER ∧
          peer.sendUdpQueue = (n.peer i).sendUdpQueue ∨
        ∃ c number g target, n.session i = some (c, number) ∧
          packet = Server.requestPacket g c number ∧
          peer.sendUdpQueue = (n.peer i).sendUdpQueue ++ [(target,
            (Server.responsePacket garbage c (transformNumber number)).serialize)]) := by
  intro peer
  obtain ⟨hknown, htarget⟩ := h.ready i
  obtain ⟨⟨own, client⟩, hof⟩ := Option.isSome_iff_exists.mp hknown
  obtain ⟨target, htarget⟩ := Option.isSome_iff_exists.mp htarget
  cases hdes : Packet.deserialize ((n.stream i).take arrived) with
  | none =>
    refine .inl ⟨?_, ?_⟩
    · simp only [peer, Server.onTcpPacket, hof, hdes]
    · simp only [afterTurn, hdes]
  | some packet =>
    have hpeer : peer = (n.peer i).handlePacket transformNumber garbage own packet := by
      simp only [peer, Server.onTcpPacket, hof, hdes]
    have hfront : Packet.framing.decode (n.stream i) = some packet := by
      have := Packet.deserialize_append hdes ((n.stream i).drop arrived)
      rwa [List.take_append_drop] at this
    refine .inr ⟨packet, hfront, ?_, ?_⟩
    · simp only [afterTurn, hdes]
    · by_cases htype : packet.header.type = SystemTypes.ASKUDP_NUMBER
      · have hmem : packet ∈ (Packet.framing.splitAll (n.stream i)).1 := by
          rw [Packet.framing.splitAll_of_some hfront]
          exact List.mem_cons_self
        obtain ⟨c, number, g, hi, rfl⟩ := h.asked i packet hmem htype
        refine .inr ⟨c, number, g, target, hi, rfl, ?_⟩
        rw [hpeer, Server.handlePacket_request]
        simp only [Server.askUdpConnectionResponse, Server.baseSendUdp, BaseServer.sendUdp,
          htarget, BaseServer.sendUdpTo]
      · refine .inl ⟨htype, ?_⟩
        rw [hpeer, Server.handlePacket, if_neg htype]
        rfl

/-- A turn changes nothing of where the peer sends its datagrams. -/
private theorem ready_onTcpPacket {peer : Server} {id : Uuid} {buffer : List UInt8}
    {garbage : UInt16} :
    (peer.onTcpPacket transformNumber garbage id buffer).clients = peer.clients ∧
      (peer.onTcpPacket transformNumber garbage id buffer).udpConnectionAddr =
        peer.udpConnectionAddr := by
  unfold Server.onTcpPacket
  split
  · exact ⟨rfl, rfl⟩
  next own client hof =>
  split
  · exact ⟨rfl, rfl⟩
  next packet hdes =>
    obtain ⟨queue, hbase, hclients, -⟩ :=
      Server.handlePacket_base transformNumber garbage peer own packet
    exact ⟨hclients, by rw [hbase]⟩

/-- A step of one peer, by what it does to its stream and its outbox. -/
private theorem Mail.peer [DecidableEq ι] (h : Mail transformNumber P n) {peer : Server}
    {stream : List UInt8} {datagrams : List (SocketAddr × List UInt8)}
    (hready : (peer.clientOf (P.own i)).isSome ∧ peer.udpConnectionAddr.isSome)
    (hwhole : (Packet.framing.splitAll stream).2 = [])
    (hasked : ∀ packet ∈ (Packet.framing.splitAll stream).1,
      packet ∈ (Packet.framing.splitAll (n.stream i)).1)
    (houtbox : ∀ e ∈ peer.sendUdpQueue, Authored transformNumber n.session i e.2)
    (hair : ∀ e ∈ datagrams, e ∈ n.datagrams ∨
      e.1 = P.addr i ∧ Authored transformNumber n.session i e.2)
    (hsame : ∀ e ∈ n.datagrams, e ∈ datagrams)
    (hunderway : ∀ c number, n.session i = some (c, number) →
      Underway transformNumber P n i c number →
      Underway transformNumber P { n with
        peer := Function.update n.peer i peer
        stream := Function.update n.stream i stream
        datagrams := datagrams } i c number) :
    Mail transformNumber P { n with
      peer := Function.update n.peer i peer
      stream := Function.update n.stream i stream
      datagrams := datagrams } := by
  refine ⟨h.queued, fun j => ?_, fun j => ?_, fun j => ?_, fun e he => ?_, h.inbox, fun j => ?_,
    fun j c number hj ha => ?_⟩
  · by_cases hji : j = i
    · subst hji
      simpa using hwhole
    · simpa [Function.update_of_ne hji] using h.whole j
  · by_cases hji : j = i
    · subst hji
      simp only [Function.update_self]
      exact fun packet hp => h.asked j packet (hasked packet hp)
    · simpa only [Function.update_of_ne hji] using h.asked j
  · by_cases hji : j = i
    · subst hji
      simpa only [Function.update_self] using houtbox
    · simpa only [Function.update_of_ne hji] using h.outbox j
  · rcases hair e he with he | he
    · exact h.air e he
    · exact ⟨i, he⟩
  · by_cases hji : j = i
    · subst hji
      simpa only [Function.update_self] using hready
    · simpa only [Function.update_of_ne hji] using h.ready j
  · by_cases hji : j = i
    · subst hji
      exact hunderway c number hj (h.underway j c number hj ha)
    · rcases h.underway j c number hj ha with hq | hs | ho | ⟨g, hmem⟩
      · exact .inl hq
      · exact .inr (.inl (by simpa only [Function.update_of_ne hji] using hs))
      · exact .inr (.inr (.inl (by simpa only [Function.update_of_ne hji] using ho)))
      · exact .inr (.inr (.inr ⟨g, hsame _ hmem⟩))

private theorem Mail.turn [DecidableEq ι] (h : Mail transformNumber P n) (i : ι) (arrived : Nat)
    (garbage : UInt16) :
    Mail transformNumber P { n with
      peer := Function.update n.peer i ((n.peer i).onTcpPacket transformNumber garbage (P.own i)
        ((n.stream i).take arrived))
      stream := Function.update n.stream i (afterTurn (n.stream i) arrived) } := by
  have hready : (((n.peer i).onTcpPacket transformNumber garbage (P.own i)
      ((n.stream i).take arrived)).clientOf (P.own i)).isSome ∧
      ((n.peer i).onTcpPacket transformNumber garbage (P.own i)
        ((n.stream i).take arrived)).udpConnectionAddr.isSome := by
    obtain ⟨hclients, haddr⟩ : ((n.peer i).onTcpPacket transformNumber garbage (P.own i)
        ((n.stream i).take arrived)).clients = _ ∧ _ := ready_onTcpPacket
    rw [Server.clientOf, hclients, haddr]
    exact h.ready i
  rcases turn_cases h i arrived garbage with ⟨houtbox, hstream⟩ |
    ⟨packet, hfront, hstream, hcase⟩
  · refine h.peer hready ?_ ?_ ?_ (fun e he => .inl he) (fun e he => he) fun c number _ hu => ?_
    · rw [hstream]
      exact h.whole i
    · rw [hstream]
      exact fun packet hp => hp
    · rw [houtbox]
      exact h.outbox i
    · rw [hstream, Function.update_eq_self]
      rcases hu with hq | hs | ⟨g, target, hmem⟩ | ha
      · exact .inl hq
      · exact .inr (.inl hs)
      · refine .inr (.inr (.inl ⟨g, target, ?_⟩))
        simpa only [Function.update_self, houtbox] using hmem
      · exact .inr (.inr (.inr ha))
  · have hsplit := Packet.framing.splitAll_of_some hfront
    have hrest : (Packet.framing.splitAll (afterTurn (n.stream i) arrived)).2 = [] := by
      have hwhole := h.whole i
      rw [hsplit] at hwhole
      rw [hstream]
      exact hwhole
    have hsub : ∀ q ∈ (Packet.framing.splitAll (afterTurn (n.stream i) arrived)).1,
        q ∈ (Packet.framing.splitAll (n.stream i)).1 := by
      rw [hstream, hsplit]
      exact fun q hq => List.mem_cons_of_mem _ hq
    refine h.peer hready hrest hsub ?_ (fun e he => .inl he) (fun e he => he)
      fun c number hi hu => ?_
    · rcases hcase with ⟨-, houtbox⟩ | ⟨c, number, g, target, hi, -, houtbox⟩
      · rw [houtbox]
        exact h.outbox i
      · rw [houtbox]
        intro e he
        rcases List.mem_append.mp he with he | he
        · exact h.outbox i e he
        · cases List.mem_singleton.mp he
          exact .inl ⟨c, number, garbage, hi, rfl⟩
    · unfold Underway
      simp only [Function.update_self]
      rcases hu with hq | ⟨g, hmem⟩ | ⟨g, target, hmem⟩ | ha
      · exact .inl hq
      · rw [hsplit] at hmem
        rcases List.mem_cons.mp hmem with heq | hmem
        · -- the request is answered, with the uuid and the number of the session
          rcases hcase with ⟨hno, -⟩ | ⟨c', number', g', target, hi', -, houtbox⟩
          · exact absurd (heq ▸ rfl) hno
          · rw [hi] at hi'
            cases hi'
            refine .inr (.inr (.inl ⟨garbage, target, ?_⟩))
            rw [houtbox]
            exact List.mem_append_right _ List.mem_cons_self
        · exact .inr (.inl ⟨g, hstream ▸ hmem⟩)
      · refine .inr (.inr (.inl ⟨g, target, ?_⟩))
        rcases hcase with ⟨-, houtbox⟩ | ⟨_, _, _, _, -, -, houtbox⟩
        · rwa [houtbox]
        · rw [houtbox]
          exact List.mem_append_left _ hmem
      · exact .inr (.inr (.inr ha))

private theorem Mail.speak [DecidableEq ι] (h : Mail transformNumber P n) (i : ι)
    (client : Uuid) {type : MsgType} (data : List UInt8) (garbage : UInt16)
    (htype : type ≠ SystemTypes.ASKUDP_RESPONSE) :
    Mail transformNumber P { n with
      peer := Function.update n.peer i ((n.peer i).sendUdp garbage client type data) } := by
  have hsent : ∃ more, (n.peer i).sendUdp garbage client type data =
      { n.peer i with sendUdpQueue := (n.peer i).sendUdpQueue ++ more } ∧
      ∀ e ∈ more, Authored transformNumber n.session i e.2 := by
    cases hfind : OrdMap.find Uuid.lt (n.peer i).clients client with
    | none =>
      refine ⟨[], ?_, fun e he => absurd he List.not_mem_nil⟩
      simp only [Server.sendUdp, hfind, List.append_nil]
    | some entry =>
      refine ⟨[(entry.2.udpAddr, (Packet.deserializeTyped garbage type data).serialize)], ?_, ?_⟩
      · simp only [Server.sendUdp, hfind]
        rfl
      · intro e he
        cases List.mem_singleton.mp he
        refine .inr fun packet hdes => ?_
        rw [type_of_deserialize_serialize hdes]
        exact htype
  obtain ⟨more, hpeer, hmore⟩ := hsent
  suffices hstep : Mail transformNumber P { n with
      peer := Function.update n.peer i ((n.peer i).sendUdp garbage client type data)
      stream := Function.update n.stream i (n.stream i) } by
    rwa [Function.update_eq_self] at hstep
  refine h.peer ?_ (h.whole i) (fun packet hp => hp) ?_ (fun e he => .inl he) (fun e he => he) ?_
  · rw [hpeer]
    exact h.ready i
  · rw [hpeer]
    intro e he
    rcases List.mem_append.mp he with he | he
    · exact h.outbox i e he
    · exact hmore e he
  · intro c number _ hu
    rw [Function.update_eq_self]
    rcases hu with hq | hs | ⟨g, target, hmem⟩ | ha
    · exact .inl hq
    · exact .inr (.inl hs)
    · refine .inr (.inr (.inl ⟨g, target, ?_⟩))
      simp only [Function.update_self, hpeer]
      exact List.mem_append_left _ hmem
    · exact .inr (.inr (.inr ha))

private theorem Mail.emit [DecidableEq ι] (h : Mail transformNumber P n) {i : ι}
    {target : SocketAddr} {data : List UInt8} {rest : List (SocketAddr × List UInt8)}
    (hqueue : (n.peer i).sendUdpQueue = (target, data) :: rest) :
    Mail transformNumber P { n with
      peer := Function.update n.peer i
        { n.peer i with toBaseServer := (n.peer i).toBaseServer.handleUdpWriteEvent }
      datagrams := n.datagrams ++ [(P.addr i, data)] } := by
  have htail : (n.peer i).toBaseServer.handleUdpWriteEvent.sendUdpQueue = rest := by
    rw [BaseServer.handleUdpWriteEvent, hqueue]
    rfl
  have hauthored := h.outbox i (target, data) (hqueue ▸ List.mem_cons_self)
  suffices hstep : Mail transformNumber P { n with
      peer := Function.update n.peer i
        { n.peer i with toBaseServer := (n.peer i).toBaseServer.handleUdpWriteEvent }
      stream := Function.update n.stream i (n.stream i)
      datagrams := n.datagrams ++ [(P.addr i, data)] } by
    rwa [Function.update_eq_self] at hstep
  refine h.peer (h.ready i) (h.whole i) (fun packet hp => hp) ?_ ?_
    (fun e he => List.mem_append_left _ he) ?_
  · intro e he
    rw [htail] at he
    exact h.outbox i e (hqueue ▸ List.mem_cons_of_mem _ he)
  · intro e he
    rcases List.mem_append.mp he with he | he
    · exact .inl he
    · cases List.mem_singleton.mp he
      exact .inr ⟨rfl, hauthored⟩
  · intro c number _ hu
    rw [Function.update_eq_self]
    rcases hu with hq | hs | ⟨g, target', hmem⟩ | ⟨g, hmem⟩
    · exact .inl hq
    · exact .inr (.inl hs)
    · rw [hqueue] at hmem
      rcases List.mem_cons.mp hmem with heq | hmem
      · cases heq
        exact .inr (.inr (.inr ⟨g, List.mem_append_right _ List.mem_cons_self⟩))
      · refine .inr (.inr (.inl ⟨g, target', ?_⟩))
        simp only [Function.update_self]
        rwa [htail]
    · exact .inr (.inr (.inr ⟨g, List.mem_append_left _ hmem⟩))

/-! ## All steps -/

/-- Handling a datagram leaves the server's other queues as they are. -/
theorem queues_onUdpData {addr : SocketAddr} {data : List UInt8}
    (h : s.onUdpData transformNumber addr data = some t) :
    t.sendTcpQueue = s.sendTcpQueue ∧ t.recvUdpQueue = s.recvUdpQueue := by
  cases Server.delivered_onUdpData h with
  | dropped => exact ⟨rfl, rfl⟩
  | datagram => exact ⟨rfl, rfl⟩
  | bound => exact ⟨rfl, rfl⟩

/-- A received datagram is queued, cut to the buffer, or dropped. -/
theorem receive_base (s : BaseServer) (addr : SocketAddr) (data : List UInt8) :
    ∃ more, s.handleUdpReadEvent Server.isValidUdpMessage
        { BaseServer.readAnswer (.error 0) with recvFrom := .ok (data, addr) } =
        { s with recvUdpQueue := s.recvUdpQueue ++ more } ∧
      ∀ e ∈ more, e = (addr, data.take MAX_BUFFER_SIZE) := by
  have hqueue := Datagram.recvUdpQueue_handleUdpReadEvent s (BaseServer.readAnswer (.error 0))
    data addr
  have hbase : s.handleUdpReadEvent Server.isValidUdpMessage
      { BaseServer.readAnswer (.error 0) with recvFrom := .ok (data, addr) } =
      { s with recvUdpQueue := (s.handleUdpReadEvent Server.isValidUdpMessage
        { BaseServer.readAnswer (.error 0) with recvFrom := .ok (data, addr) }).recvUdpQueue } := by
    simp only [BaseServer.handleUdpReadEvent]
    split
    · rfl
    split <;> rfl
  rw [hbase, hqueue]
  split
  · refine ⟨[(addr, data.take MAX_BUFFER_SIZE)], rfl, fun e he => List.mem_singleton.mp he⟩
  · refine ⟨[], ?_, fun e he => absurd he List.not_mem_nil⟩
    rw [List.append_nil]

private theorem splitAll_nil : Packet.framing.splitAll [] = ([], []) :=
  Packet.framing.splitAll_of_none Packet.deserialize_nil

/-- The tables of the server fit the sessions, and so does what is under way. -/
structure Linked (transformNumber : UInt64 → UInt64) (P : Peers ι) (n : Network ι) : Prop where
  seats : Seats P n.session n.host
  mail : Mail transformNumber P n

private theorem Linked.receive (h : Linked transformNumber P n) {k : Nat} {addr : SocketAddr}
    {data : List UInt8} (hk : n.datagrams[k]? = some (addr, data)) :
    Linked transformNumber P { n with host := { n.host with
      toBaseServer := n.host.toBaseServer.handleUdpReadEvent Server.isValidUdpMessage
        { BaseServer.readAnswer (.error 0) with recvFrom := .ok (data, addr) } } } := by
  obtain ⟨more, hbase, hmore⟩ := receive_base n.host.toBaseServer addr data
  rw [hbase]
  refine ⟨h.seats.congr rfl rfl rfl rfl, ⟨h.mail.queued, h.mail.whole, h.mail.asked, h.mail.outbox,
    h.mail.air, fun e he => ?_, h.mail.ready, h.mail.underway⟩⟩
  rcases List.mem_append.mp he with he | he
  · exact h.mail.inbox e he
  · cases hmore e he
    obtain ⟨i, haddr, hi⟩ := h.mail.air _ (List.mem_of_getElem? hk)
    exact ⟨i, haddr, hi.take (by decide)⟩

private theorem Linked.handle (h : Linked transformNumber P n) {addr : SocketAddr}
    {data : List UInt8} {rest : List (SocketAddr × List UInt8)}
    (hrecv : n.host.recvUdpQueue = (addr, data) :: rest)
    (ht : ({ n.host with recvUdpQueue := rest } : Server).onUdpData transformNumber addr data =
      some t) : Linked transformNumber P { n with host := t } := by
  obtain ⟨i, haddr, hi⟩ := h.mail.inbox (addr, data) (hrecv ▸ List.mem_cons_self)
  have hseats : Seats P n.session { n.host with recvUdpQueue := rest } :=
    h.seats.congr rfl rfl rfl rfl
  obtain ⟨hqueue, hleft⟩ := queues_onUdpData ht
  refine ⟨hseats.onUdpData (fun c hc => ?_) ht, h.mail.host hqueue fun e he => ?_⟩
  · obtain ⟨number, hsession⟩ := hi.confirms hc
    exact ⟨i, number, hsession, haddr⟩
  · rw [hleft] at he
    exact hrecv ▸ List.mem_cons_of_mem _ he

private theorem Linked.hear (h : Linked transformNumber P n) (i : ι) (buffer : List UInt8)
    (garbage : UInt16) :
    Linked transformNumber P { n with
      host := n.host.onTcpPacket transformNumber garbage (P.conn i) buffer } := by
  have hdelivered := Server.delivered_onTcpPacket transformNumber garbage n.host (P.conn i) buffer
  generalize n.host.onTcpPacket transformNumber garbage (P.conn i) buffer = t at hdelivered ⊢
  cases hdelivered with
  | answered => exact ⟨h.seats.congr rfl rfl rfl rfl, h.mail.host rfl fun e he => he⟩
  | packet => exact ⟨h.seats.congr rfl rfl rfl rfl, h.mail.host rfl fun e he => he⟩

private theorem Linked.disconnect (h : Linked transformNumber P n) (id : Uuid) :
    Linked transformNumber P { n with host := n.host.onTcpDisconnection id } := by
  have hbase := (Server.onTcpDisconnection_base n.host id).1
  refine ⟨h.seats.disconnect id, h.mail.host (by rw [hbase]) fun e he => ?_⟩
  rwa [hbase] at he

private theorem Linked.say (h : Linked transformNumber P n) {client : Uuid} {type : MsgType}
    {data : List UInt8} (garbage : UInt16) (htype : type ≠ SystemTypes.ASKUDP_NUMBER)
    (hfits : data.length < 2 ^ 16) :
    Linked transformNumber P { n with host := n.host.sendTcp garbage client type data } := by
  refine ⟨?_, h.mail.say garbage htype hfits⟩
  unfold Server.sendTcp
  split
  · exact h.seats.congr rfl rfl rfl rfl
  · exact h.seats

private theorem Linked.stranger (h : Linked transformNumber P n) {addr : SocketAddr}
    {data : List UInt8} (hnobody : ∀ c, ¬ Server.Confirms transformNumber n.host data c)
    (ht : n.host.onUdpData transformNumber addr data = some t) :
    Linked transformNumber P { n with host := t } := by
  obtain ⟨hqueue, hrecv⟩ := queues_onUdpData ht
  refine ⟨h.seats.onUdpData (fun c hc => absurd hc (hnobody c)) ht,
    h.mail.host hqueue fun e he => ?_⟩
  rwa [hrecv] at he

section Run

variable [DecidableEq ι]

theorem linked_of_step (h : Linked transformNumber P n) {label : NetLabel ι}
    (hhonest : Honest transformNumber n label) (hstep : n.step transformNumber P label = some m) :
    Linked transformNumber P m := by
  cases label with
  | accept i client number garbage =>
    obtain ⟨⟨hi, hclient⟩, heq⟩ := Option.ite_none_right_eq_some.mp hstep
    cases heq
    exact ⟨h.seats.accept garbage hi hclient, h.mail.accept garbage hi⟩
  | close i =>
    cases hstep
    refine ⟨h.seats, { h.mail with underway := fun j c number hj ha => ?_ }⟩
    by_cases hji : j = i
    · subst hji
      simp at ha
    · simp only [Function.update_of_ne hji] at ha
      exact h.mail.underway j c number hj ha
  | disconnect i =>
    obtain ⟨-, heq⟩ := Option.ite_none_left_eq_some.mp hstep
    cases heq
    exact h.disconnect (P.conn i)
  | say client type data garbage =>
    cases hstep
    exact h.say garbage hhonest.1 hhonest.2
  | flush =>
    simp only [step] at hstep
    split at hstep
    · cases hstep
    next id bytes rest hqueue =>
      cases hstep
      exact ⟨h.seats.congr rfl rfl rfl rfl, h.mail.flush hqueue⟩
  | hear i buffer garbage =>
    cases hstep
    exact h.hear i buffer garbage
  | turn i arrived garbage =>
    cases hstep
    exact ⟨h.seats, h.mail.turn i arrived garbage⟩
  | speak i client type data garbage =>
    cases hstep
    exact ⟨h.seats, h.mail.speak i client data garbage hhonest⟩
  | emit i =>
    simp only [step] at hstep
    split at hstep
    · cases hstep
    next target data rest hqueue =>
      cases hstep
      exact ⟨h.seats, h.mail.emit hqueue⟩
  | receive k =>
    simp only [step] at hstep
    split at hstep
    · cases hstep
    next addr data hk =>
      cases hstep
      exact h.receive hk
  | handle =>
    simp only [step] at hstep
    split at hstep
    · cases hstep
    next addr data rest hrecv =>
      obtain ⟨t, ht, rfl⟩ := Option.map_eq_some_iff.mp hstep
      exact h.handle hrecv ht
  | stranger addr data =>
    obtain ⟨t, ht, rfl⟩ := Option.map_eq_some_iff.mp hstep
    exact h.stranger hhonest ht

theorem linked_of_reach
    (h : (machine transformNumber P).ReachUnder (Honest transformNumber) n) :
    Linked transformNumber P n := by
  refine h.invariant (I := Linked transformNumber P) ?_ fun n label m hn hhonest hstep =>
    linked_of_step hn hhonest hstep
  rintro n ⟨⟨hclients, hcache, huuids, hconfirmed⟩, hqueue, hrecv, hpeers, hstreams, hair, hnone⟩
  have hno {i : ι} {v : Uuid × UInt64} (hi : n.session i = some v) : False := by
    rw [hnone i] at hi
    cases hi
  have hempty {i : ι} : Packet.framing.splitAll (n.stream i) = ([], []) := by
    rw [hstreams i, splitAll_nil]
  constructor
  · refine ⟨⟨?_, ?_, ?_, hconfirmed⟩, ?_, ?_, ?_, fun i c number hi => (hno hi).elim,
      fun i j c k l hi => (hno hi).elim⟩
    · rw [hclients]
      exact List.Pairwise.nil
    · rw [hcache]
      exact List.Pairwise.nil
    all_goals
      simp [Server.SessionTable, hclients, hcache]
  · refine ⟨?_, fun i => ?_, fun i => ?_, fun i => ?_, ?_, ?_,
      fun i => ⟨(hpeers i).1, (hpeers i).2.1⟩, fun i c number hi => (hno hi).elim⟩
    · simp [hqueue]
    · rw [hempty]
    · simp [hempty]
    · simp [(hpeers i).2.2]
    · simp [hair]
    · simp [hrecv]

/-- **No interleaving crosses two peers.** In every state reached by honest steps, with datagrams
lost, repeated and reordered and with anybody else's datagrams in between, an address in the cache
is that of the peer whose session the entry names; that client is current, on that peer's
connection, and has this address and no other entry. Honest (`Honest`) are users who leave the types
of the handshake to the servers and send bodies whose size fits the header, and strangers who
confirm nobody. -/
theorem links_agree (h : (machine transformNumber P).ReachUnder (Honest transformNumber) n)
    {addr : SocketAddr} {c : Uuid} (hmem : (addr, c) ∈ n.host.udpConnectionCache) :
    ∃ i client, n.session i = some (c, client.generatedNumber) ∧ addr = P.addr i ∧
      (c, client) ∈ n.host.clients ∧ client.tcpConnectionId = P.conn i ∧ client.udpAddr = addr ∧
      ∀ addr', (addr', c) ∈ n.host.udpConnectionCache → addr' = addr := by
  have hseats := (linked_of_reach h).seats
  obtain ⟨client, hclient, haddr⟩ := hseats.table addr c hmem
  obtain ⟨i, hi, hconn, -⟩ := hseats.client (c, client) hclient
  obtain ⟨j, number, hj, haddr'⟩ := hseats.cache (addr, c) hmem
  cases hseats.once i j c _ _ hi hj
  exact ⟨i, client, hi, haddr', hclient, hconn, haddr,
    fun addr' hmem' => hseats.toTableInv.entry_unique hmem' hmem rfl⟩

/-! ## The handshake can be completed -/

/-- The session's connection stands, and the server has its client. These are the sessions of which
the handshake can be completed. -/
structure Open (n : Network ι) (i : ι) (c : Uuid) (number : UInt64) : Prop where
  session : n.session i = some (c, number)
  alive : n.alive i = true
  client : ∃ client, (c, client) ∈ n.host.clients

/-- What the server has queued for its connections can be written. -/
private theorem runs_flush : ∀ (queue : List (Uuid × List UInt8)) (n : Network ι),
    n.host.sendTcpQueue = queue → ∃ m,
      (machine transformNumber P).RunUnder (Honest transformNumber) n m ∧
      m.host.sendTcpQueue = [] ∧ m.host.clients = n.host.clients ∧ m.session = n.session ∧
      m.alive = n.alive
  | [], n, hqueue => ⟨n, Relation.ReflTransGen.refl, hqueue, rfl, rfl, rfl⟩
  | (id, bytes) :: rest, n, hqueue => by
    let next : Network ι := { n with
      host := { n.host with sendTcpQueue := rest }
      stream := fun i => if P.conn i = id ∧ n.alive i then n.stream i ++ bytes else n.stream i }
    have hstep : (machine transformNumber P).step n .flush = some next := by
      simp only [machine, step, hqueue, next]
    obtain ⟨m, hrun, hm⟩ := runs_flush rest next rfl
    exact ⟨m, .trans (.step (a := .flush) trivial hstep) hrun, hm⟩

/-- A peer can read its stream to the end. -/
private theorem runs_turn : ∀ (k : Nat) (n : Network ι), (n.stream i).length ≤ k →
    Linked transformNumber P n → ∃ m,
      (machine transformNumber P).RunUnder (Honest transformNumber) n m ∧
      m.stream i = [] ∧ m.host = n.host ∧ m.session = n.session ∧ m.alive = n.alive := by
  intro k
  induction k with
  | zero =>
    intro n hk hn
    exact ⟨n, Relation.ReflTransGen.refl, List.eq_nil_of_length_eq_zero (Nat.le_zero.mp hk), rfl,
      rfl, rfl⟩
  | succ k ih =>
    intro n hk hn
    cases hdec : Packet.framing.decode (n.stream i) with
    | none =>
      have hwhole := hn.mail.whole i
      rw [Packet.framing.splitAll_of_none hdec] at hwhole
      exact ⟨n, Relation.ReflTransGen.refl, hwhole, rfl, rfl, rfl⟩
    | some packet =>
      have hafter : afterTurn (n.stream i) (n.stream i).length =
          (n.stream i).drop packet.size := by
        have hdes : Packet.deserialize (n.stream i) = some packet := hdec
        simp only [afterTurn, List.take_length, hdes]
      let next : Network ι := { n with
        peer := Function.update n.peer i ((n.peer i).onTcpPacket transformNumber 0 (P.own i)
          ((n.stream i).take (n.stream i).length))
        stream := Function.update n.stream i (afterTurn (n.stream i) (n.stream i).length) }
      have hstep : (machine transformNumber P).step n (.turn i (n.stream i).length 0) =
          some next := rfl
      have hshorter : (next.stream i).length ≤ k := by
        have hpos := packet.size_pos
        simp only [next, Function.update_self, hafter, List.length_drop]
        omega
      have hhonest : Honest transformNumber n (.turn i (n.stream i).length 0) := trivial
      obtain ⟨m, hrun, hm⟩ := ih next hshorter (linked_of_step hn hhonest hstep)
      exact ⟨m, .trans (.step hhonest hstep) hrun, hm⟩

/-- What a peer has queued can be sent. -/
private theorem runs_emit : ∀ (queue : List (SocketAddr × List UInt8)) (n : Network ι),
    (n.peer i).sendUdpQueue = queue → ∃ m,
      (machine transformNumber P).RunUnder (Honest transformNumber) n m ∧
      (m.peer i).sendUdpQueue = [] ∧ m.stream = n.stream ∧ m.host = n.host ∧
      m.session = n.session ∧ m.alive = n.alive
  | [], n, hqueue => ⟨n, Relation.ReflTransGen.refl, hqueue, rfl, rfl, rfl, rfl⟩
  | (target, data) :: rest, n, hqueue => by
    let next : Network ι := { n with
      peer := Function.update n.peer i
        { n.peer i with toBaseServer := (n.peer i).toBaseServer.handleUdpWriteEvent }
      datagrams := n.datagrams ++ [(P.addr i, data)] }
    have hstep : (machine transformNumber P).step n (.emit i) = some next := by
      simp only [machine, step, hqueue, next]
    have hrest : (next.peer i).sendUdpQueue = rest := by
      simp only [next, Function.update_self, BaseServer.handleUdpWriteEvent, hqueue, List.tail_cons]
    obtain ⟨m, hrun, hm⟩ := runs_emit rest next hrest
    exact ⟨m, .trans (.step (a := .emit i) trivial hstep) hrun, hm⟩

/-- An answer is short enough for the buffer and has a body, so it is queued when it comes. -/
private theorem receive_answer (s : BaseServer) (addr : SocketAddr) (garbage : UInt16) (c : Uuid)
    (answer : UInt64) :
    (s.handleUdpReadEvent Server.isValidUdpMessage { BaseServer.readAnswer (.error 0) with
      recvFrom := .ok ((Server.responsePacket garbage c answer).serialize, addr) }).recvUdpQueue =
      s.recvUdpQueue ++ [(addr, (Server.responsePacket garbage c answer).serialize)] := by
  have hwf := Server.responsePacket_wf garbage c answer
  have hdata : (Server.responsePacket garbage c answer).data.length = 16 := length_packedBytes _ _
  have hlength : (Server.responsePacket garbage c answer).serialize.length = 24 := by
    rw [Packet.length_serialize, Packet.size, hdata]
    rfl
  have hle : (Server.responsePacket garbage c answer).serialize.length ≤ MAX_BUFFER_SIZE := by
    rw [hlength]
    decide
  obtain ⟨-, hannounced⟩ := Datagram.announced_serialize hwf []
  rw [List.append_nil, hdata] at hannounced
  have hvalid := (Datagram.isValidUdpMessage_received hle).mpr
    ⟨by rw [hannounced]; decide, by rw [hannounced]; decide⟩
  rw [Datagram.recvUdpQueue_handleUdpReadEvent, List.take_of_length_le hle, if_pos]
  exact ⟨by rw [hlength]; decide, hvalid⟩

omit [DecidableEq ι] in
/-- Handling the answer of an open session binds it, unless it is bound already. -/
private theorem bound_of_answer (hn : Linked transformNumber P n) (haddr : P.Apart)
    (hopen : Open n i c number) {garbage : UInt16} {rest : List (SocketAddr × List UInt8)}
    (ht : ({ n.host with recvUdpQueue := rest } : Server).onUdpData transformNumber (P.addr i)
      (Server.responsePacket garbage c (transformNumber number)).serialize = some t) :
    (P.addr i, c) ∈ n.host.udpConnectionCache ∨ (P.addr i, c) ∈ t.udpConnectionCache := by
  cases hfind : OrdMap.find SocketAddr.lt n.host.udpConnectionCache (P.addr i) with
  | some e =>
    left
    obtain ⟨hmem, hbelow, habove⟩ := OrdMap.find_some hfind
    obtain ⟨j, k, hj, haddr'⟩ := hn.seats.cache e hmem
    rw [haddr'] at hbelow habove
    cases haddr i j ⟨habove, hbelow⟩
    rw [hopen.session] at hj
    cases hj
    exact haddr' ▸ hmem
  | none =>
    right
    obtain ⟨client, hclient⟩ := hopen.client
    obtain ⟨j, hj, -, -⟩ := hn.seats.client (c, client) hclient
    cases hn.seats.once i j c _ _ hopen.session hj
    rw [hopen.session] at hj
    cases hj
    have hentry : OrdMap.find Uuid.lt n.host.clients c = some (c, client) :=
      OrdMap.find_of_mem Uuid.lt_irrefl hn.seats.clients_sorted hclient
    have hconfirms := Server.confirms_responsePacket
      (s := { n.host with recvUdpQueue := rest }) transformNumber garbage hentry
    rw [Server.onUdpData_of_find_none (s := { n.host with recvUdpQueue := rest })
      hn.seats.hosts hfind, Server.handleUdpConnectionRequest_of_confirms hconfirms] at ht
    cases ht
    exact (Server.binds_bindUdp (s := { n.host with recvUdpQueue := rest }) hfind hconfirms).1

/-- Handling a datagram lets no client go. -/
private theorem clients_onUdpData {addr : SocketAddr} {data : List UInt8}
    (h : s.onUdpData transformNumber addr data = some t) (c : Uuid) :
    (∃ client, (c, client) ∈ t.clients) ↔ ∃ client, (c, client) ∈ s.clients := by
  cases Server.delivered_onUdpData h with
  | dropped => exact Iff.rfl
  | datagram => exact Iff.rfl
  | bound _ hc => exact Server.mem_clients_bindUdp_iff hc c

/-- What was received can be handled, up to the answer of an open session. -/
private theorem runs_handle (haddr : P.Apart) {garbage : UInt16} :
    ∀ (queue : List (SocketAddr × List UInt8)) (n : Network ι), n.host.recvUdpQueue = queue →
      Linked transformNumber P n → Open n i c number →
      (P.addr i, (Server.responsePacket garbage c (transformNumber number)).serialize) ∈ queue →
      ∃ m, (machine transformNumber P).RunUnder (Honest transformNumber) n m ∧
        (P.addr i, c) ∈ m.host.udpConnectionCache
  | [], _, _, _, _, hmem => absurd hmem List.not_mem_nil
  | (addr, data) :: rest, n, hrecv, hn, hopen, hmem => by
    obtain ⟨t, ht⟩ : ∃ t, ({ n.host with recvUdpQueue := rest } : Server).onUdpData transformNumber
        addr data = some t := by
      have hhosts : n.host.udpConfirmed = false := hn.seats.hosts
      unfold Server.onUdpData
      simp only [hhosts, Bool.or_false]
      cases hfind : OrdMap.find SocketAddr.lt n.host.udpConnectionCache addr with
      | none => exact ⟨_, rfl⟩
      | some e =>
        simp only [Option.isSome_some, if_true]
        cases Packet.deserialize data <;> exact ⟨_, rfl⟩
    let next : Network ι := { n with host := t }
    have hstep : (machine transformNumber P).step n .handle = some next := by
      simp only [machine, step, hrecv, ht, Option.map_some, next]
    have hrun : (machine transformNumber P).RunUnder (Honest transformNumber) n next :=
      .step (a := .handle) trivial hstep
    rcases List.mem_cons.mp hmem with heq | hmem
    · cases heq
      rcases bound_of_answer hn haddr hopen ht with hbefore | hnow
      · exact ⟨n, Relation.ReflTransGen.refl, hbefore⟩
      · exact ⟨next, hrun, hnow⟩
    · have hleft : next.host.recvUdpQueue = rest := (queues_onUdpData ht).2
      have hnext : Open next i c number :=
        ⟨hopen.session, hopen.alive, (clients_onUdpData ht c).mpr hopen.client⟩
      have hhonest : Honest transformNumber n .handle := trivial
      obtain ⟨m, hrest, hm⟩ := runs_handle haddr rest next hleft (linked_of_step hn hhonest hstep)
        hnext hmem
      exact ⟨m, hrun.trans hrest, hm⟩

/-- **The handshake can be completed.** After any honest steps, as long as a session's connection
stands and the server has its client, there are honest steps of the parties after which the peer's
address is bound to that client. Nothing is said of whether they are made: a datagram may be lost
for good. -/
theorem links_complete (haddr : P.Apart)
    (h : (machine transformNumber P).ReachUnder (Honest transformNumber) n)
    (hopen : Open n i c number) :
    ∃ m, (machine transformNumber P).RunUnder (Honest transformNumber) n m ∧
      (P.addr i, c) ∈ m.host.udpConnectionCache := by
  -- the request leaves the server's queue, then the stream, and the answer the peer's queue
  obtain ⟨n₁, hrun₁, hqueue, hclients, hsession₁, halive₁⟩ :=
    runs_flush (P := P) _ n rfl
  have hn₁ := linked_of_reach (h.run hrun₁)
  obtain ⟨n₂, hrun₂, hstream, hhost₂, hsession₂, halive₂⟩ := runs_turn (i := i) _ n₁ le_rfl hn₁
  obtain ⟨n₃, hrun₃, houtbox, hstream₃, hhost₃, hsession₃, halive₃⟩ :=
    runs_emit (P := P) (i := i) _ n₂ rfl
  have hrun : (machine transformNumber P).RunUnder (Honest transformNumber) n n₃ :=
    (hrun₁.trans hrun₂).trans hrun₃
  have hn₃ := linked_of_reach (h.run hrun)
  have hopen₃ : Open n₃ i c number := by
    refine ⟨?_, ?_, ?_⟩
    · rw [hsession₃, hsession₂, hsession₁, hopen.session]
    · rw [halive₃, halive₂, halive₁, hopen.alive]
    · rw [hhost₃, hhost₂, hclients]
      exact hopen.client
  -- so it is in the air, where it stays
  obtain ⟨garbage, hmem⟩ : ∃ garbage, (P.addr i, (Server.responsePacket garbage c
      (transformNumber number)).serialize) ∈ n₃.datagrams := by
    rcases hn₃.mail.underway i c number hopen₃.session hopen₃.alive with
      ⟨g, hmem⟩ | ⟨g, hmem⟩ | ⟨g, target, hmem⟩ | hair
    · rw [hhost₃, hhost₂, hqueue] at hmem
      cases hmem
    · rw [hstream₃, hstream, splitAll_nil] at hmem
      cases hmem
    · rw [houtbox] at hmem
      cases hmem
    · exact hair
  obtain ⟨k, hk⟩ := List.getElem?_of_mem hmem
  let n₄ : Network ι := { n₃ with host := { n₃.host with
    toBaseServer := n₃.host.toBaseServer.handleUdpReadEvent Server.isValidUdpMessage
      { BaseServer.readAnswer (.error 0) with
        recvFrom := .ok ((Server.responsePacket garbage c (transformNumber number)).serialize,
          P.addr i) } } }
  have hstep : (machine transformNumber P).step n₃ (.receive k) = some n₄ := by
    simp only [machine, step, hk, n₄]
  have hrecv : (P.addr i, (Server.responsePacket garbage c (transformNumber number)).serialize) ∈
      n₄.host.recvUdpQueue := by
    have := receive_answer n₃.host.toBaseServer (P.addr i) garbage c (transformNumber number)
    rw [show n₄.host.recvUdpQueue = _ from this]
    exact List.mem_append_right _ List.mem_cons_self
  have hhonest : Honest transformNumber n₃ (.receive k) := trivial
  have hn₄ := linked_of_step hn₃ hhonest hstep
  obtain ⟨m, hlast, hm⟩ := runs_handle haddr _ n₄ rfl hn₄
    ⟨hopen₃.session, hopen₃.alive, hopen₃.client⟩ hrecv
  exact ⟨m, (hrun.trans (.step hhonest hstep)).trans hlast, hm⟩

end Run

/-! ## Two peers -/

/-- Two peers with addresses of their own, on the connections 1 and 2. -/
def crowd : Peers Bool where
  conn i := if i then 1 else 2
  own _ := 2
  addr i := if i then Server.peerAddr else Server.secondAddr
  conn_injective i j := by cases i <;> cases j <;> decide

/-- Two peers that greet the server, and nothing sent yet. -/
def crowded : Network Bool where
  host := Server.fresh
  peer _ := Server.greeted
  stream _ := []
  datagrams := []
  alive _ := false
  session _ := none

theorem starts_crowded : Starts crowd crowded :=
  ⟨⟨rfl, rfl, rfl, rfl⟩, rfl, rfl, fun _ => ⟨rfl, rfl, rfl⟩, fun _ => rfl, rfl, fun _ => rfl⟩

/-- Both connect; their answers overtake each other, and one of them comes twice. -/
def crossing : List (NetLabel Bool) :=
  [.accept true 9 77 0, .accept false 8 5 0, .flush, .flush, .turn true 24 0, .turn false 30 0,
    .emit false, .emit true, .receive 1, .receive 0, .receive 1, .handle, .handle, .handle]

theorem links_agree_crossing : ∃ n : Network Bool,
    (Server.peerAddr, 9) ∈ n.host.udpConnectionCache ∧
    ∃ i client, n.session i = some (9, client.generatedNumber) ∧
      Server.peerAddr = crowd.addr i ∧ (9, client) ∈ n.host.clients ∧
      client.tcpConnectionId = crowd.conn i ∧ client.udpAddr = Server.peerAddr ∧
      ∀ addr', (addr', 9) ∈ n.host.udpConnectionCache → addr' = Server.peerAddr := by
  have hhonest : ∀ label ∈ crossing, ∀ n : Network Bool,
      Honest Server.transformNumberFunction n label := by
    intro label hmem n
    simp only [crossing, List.mem_cons, List.not_mem_nil, or_false] at hmem
    rcases hmem with rfl | rfl | rfl | rfl | rfl | rfl | rfl | rfl | rfl | rfl | rfl | rfl | rfl |
      rfl <;> trivial
  obtain ⟨n, hn, hp⟩ := Machine.reachUnder_of_labels
    (M := machine Server.transformNumberFunction crowd) (s := crowded)
    (p := fun n => decide ((Server.peerAddr, 9) ∈ n.host.udpConnectionCache)) starts_crowded
    hhonest (by decide +kernel)
  exact ⟨n, of_decide_eq_true hp, links_agree hn (of_decide_eq_true hp)⟩

theorem apart_crowd : crowd.Apart := by
  intro i j h
  cases i <;> cases j
  · rfl
  · exact absurd h.2 (by decide)
  · exact absurd h.1 (by decide)
  · rfl

/-- One peer has connected and its request is still in the server's queue. -/
theorem links_complete_crowded : ∃ n m : Network Bool, n.host.udpConnectionCache = [] ∧
    (machine Server.transformNumberFunction crowd).RunUnder
      (Honest Server.transformNumberFunction) n m ∧
    (Server.peerAddr, 9) ∈ m.host.udpConnectionCache := by
  have hstep : (machine Server.transformNumberFunction crowd).step crowded
      (.accept true 9 77 0) = some { crowded with
        host := Server.fresh.onTcpConnection 0 9 77 1
        session := Function.update (fun _ => none) true (some (9, 77))
        alive := Function.update (fun _ => false) true true } := by
    simp only [machine, step]
    exact if_pos ⟨rfl, by decide⟩
  have hreach := (Machine.ReachUnder.init (G := Honest Server.transformNumberFunction)
    starts_crowded).step (a := .accept true 9 77 0) (G := Honest _) trivial hstep
  obtain ⟨m, hrun, hm⟩ := links_complete apart_crowd hreach
    (show Open _ true 9 77 from ⟨rfl, rfl, Client.new 1 77, List.mem_cons_self⟩)
  exact ⟨_, m, rfl, hrun, hm⟩

end Network

end ProjectE.Net
