import ProjectE.Net.SessionTable

/-!
# Deliveries to a server

Everything that reaches a `Server` from its base, as a machine: the three events of the session
table, and the turns of the loop in `on_tcp_data`. A turn parses whatever the reader holds at that
moment, so the bytes come with the event; that a call of `on_tcp_data` with nobody filling the
reader is a run of such turns is `runUnder_onTcpData`. Both roles are covered: `confirmed` is the
flag `connect_udp` sets.

`effect_of_deliver` says once what an event can do. The law about reserved message types follows:
the TCP side keeps only `ASKUDP_NUMBER` back and the UDP side of a known address keeps nothing back,
so what stays internal is what the peers do not send (`Unreserved`).
-/

namespace ProjectE.Net.Server

open Verif

/-- An event of the session table, or one turn of the loop of `on_tcp_data` with the bytes it
finds. -/
inductive Event where
  | table (event : Label)
  | tcpPacket (id : Uuid) (buffer : List UInt8) (garbage : UInt16)
deriving DecidableEq, Repr

section Machine

variable (transformNumber : UInt64 → UInt64)

/-- One turn of the loop of `on_tcp_data`: the packet the buffer begins with, if it is complete and
the connection has a client. -/
def onTcpPacket (garbage : UInt16) (s : Server) (tcpConnectionId : Uuid) (buffer : List UInt8) :
    Server :=
  match s.clientOf tcpConnectionId with
  | none => s
  | some (clientUuid, _) =>
    match Packet.deserialize buffer with
    | none => s
    | some packet => s.handlePacket transformNumber garbage clientUuid packet

/-- What the handling of an event does. -/
def deliver (s : Server) : Event → Option Server
  | .table event => step transformNumber s event
  | .tcpPacket id buffer garbage => some (s.onTcpPacket transformNumber garbage id buffer)

/-- A server nothing has happened to yet, in the role the flag says. -/
def Begins (confirmed : Bool) (s : Server) : Prop :=
  s.clients = [] ∧ s.udpConnectionCache = [] ∧ s.clientUUIDs = [] ∧ s.calls = [] ∧
    s.udpConfirmed = confirmed

/-- The runs of a server of either role, from one that has seen nobody. -/
def deliveries (confirmed : Bool) : Machine Server Event where
  init := Begins confirmed
  step := deliver transformNumber

end Machine

/-- The datagrams that `on_udp_data` takes for packets of a verified client. -/
def TakesPackets (s : Server) (addr : SocketAddr) : Prop :=
  (OrdMap.find SocketAddr.lt s.udpConnectionCache addr).isSome ∨ s.udpConfirmed = true

/-- What an event does to the server it finds. -/
inductive Delivered (transformNumber : UInt64 → UInt64) (s : Server) : Event → Server → Prop
  | connection {id c number garbage} : c ∉ s.clientUUIDs →
      Delivered transformNumber s (.table (.tcpConnection id c number garbage))
        (s.onTcpConnection garbage c number id)
  | stranger {id} : s.clientOf id = none →
      Delivered transformNumber s (.table (.tcpDisconnection id)) s
  | disconnection {id c client} : s.clientOf id = some (c, client) →
      Delivered transformNumber s (.table (.tcpDisconnection id))
        { s.call (.onTcpDisconnect c) with
          udpConnectionCache := OrdMap.erase SocketAddr.lt s.udpConnectionCache client.udpAddr
          clients := OrdMap.erase Uuid.lt s.clients c }
  | dropped {addr data} : (TakesPackets s addr → Packet.deserialize data = none) →
      ((∃ c, Confirms transformNumber s data c) → TakesPackets s addr) →
      Delivered transformNumber s (.table (.udpData addr data)) s
  | datagram {addr data e packet} :
      OrdMap.find SocketAddr.lt s.udpConnectionCache addr = some e →
      Packet.deserialize data = some packet →
      Delivered transformNumber s (.table (.udpData addr data)) (s.call (.onPacket packet e.2))
  | bound {addr data c} : ¬ TakesPackets s addr → Confirms transformNumber s data c →
      Delivered transformNumber s (.table (.udpData addr data)) (s.bindUdp addr c)
  | answered {id buffer garbage queue} :
      (∀ packet, (s.clientOf id).isSome → Packet.deserialize buffer = some packet →
        packet.header.type = SystemTypes.ASKUDP_NUMBER) →
      Delivered transformNumber s (.tcpPacket id buffer garbage) { s with sendUdpQueue := queue }
  | packet {id buffer garbage c client packet} : s.clientOf id = some (c, client) →
      Packet.deserialize buffer = some packet →
      packet.header.type ≠ SystemTypes.ASKUDP_NUMBER →
      Delivered transformNumber s (.tcpPacket id buffer garbage) (s.call (.onPacket packet c))

variable {transformNumber : UInt64 → UInt64} {s t : Server}

/-- A packet that comes over TCP is a request, which is answered at most, or goes to the user. -/
theorem handlePacket_cases (transformNumber : UInt64 → UInt64) (garbage : UInt16) (s : Server)
    (c : Uuid) (packet : Packet) :
    (packet.header.type = SystemTypes.ASKUDP_NUMBER ∧ ∃ queue,
        s.handlePacket transformNumber garbage c packet = { s with sendUdpQueue := queue }) ∨
      (packet.header.type ≠ SystemTypes.ASKUDP_NUMBER ∧
        s.handlePacket transformNumber garbage c packet = s.call (.onPacket packet c)) := by
  unfold handlePacket
  split
  next htype =>
    refine .inl ⟨htype, ?_⟩
    split
    · unfold askUdpConnectionResponse baseSendUdp BaseServer.sendUdp
      split
      · exact ⟨_, rfl⟩
      · exact ⟨s.sendUdpQueue, rfl⟩
    · exact ⟨s.sendUdpQueue, rfl⟩
  next htype => exact .inr ⟨htype, rfl⟩

theorem delivered_onTcpPacket (transformNumber : UInt64 → UInt64) (garbage : UInt16) (s : Server)
    (id : Uuid) (buffer : List UInt8) :
    Delivered transformNumber s (.tcpPacket id buffer garbage)
      (s.onTcpPacket transformNumber garbage id buffer) := by
  unfold onTcpPacket
  split
  next hof =>
    apply @Delivered.answered _ s _ _ _ s.sendUdpQueue
    intro packet hsome
    rw [hof] at hsome
    cases hsome
  next c client hof =>
  split
  next hdes =>
    apply @Delivered.answered _ s _ _ _ s.sendUdpQueue
    intro packet _ hsome
    rw [hdes] at hsome
    cases hsome
  next packet hdes =>
  rcases handlePacket_cases transformNumber garbage s c packet with ⟨htype, queue, h⟩ | ⟨htype, h⟩
  · rw [h]
    apply Delivered.answered
    intro packet' _ hsome
    rw [hdes] at hsome
    cases hsome
    exact htype
  · rw [h]
    exact .packet hof hdes htype

theorem delivered_onUdpData {addr : SocketAddr} {data : List UInt8}
    (h : s.onUdpData transformNumber addr data = some t) :
    Delivered transformNumber s (.table (.udpData addr data)) t := by
  cases hfind : OrdMap.find SocketAddr.lt s.udpConnectionCache addr with
  | some e =>
    have htakes : TakesPackets s addr := .inl (Option.isSome_iff_exists.mpr ⟨e, hfind⟩)
    simp only [onUdpData, hfind, Option.isSome_some, Bool.true_or, if_true] at h
    split at h
    next hdes =>
      cases h
      exact .dropped (fun _ => hdes) fun _ => htakes
    next packet hdes =>
      cases h
      exact .datagram hfind hdes
  | none =>
    cases hconfirmed : s.udpConfirmed with
    | true =>
      simp only [onUdpData, hfind, hconfirmed, Option.isSome_none, Bool.or_true, if_true] at h
      split at h
      next hdes =>
        cases h
        exact .dropped (fun _ => hdes) fun _ => .inr hconfirmed
      · cases h
    | false =>
      have hnot : ¬ TakesPackets s addr := by
        rintro (hsome | htrue)
        · rw [hfind] at hsome
          cases hsome
        · rw [hconfirmed] at htrue
          cases htrue
      rw [onUdpData_of_find_none hconfirmed hfind] at h
      cases h
      by_cases hex : ∃ c, Confirms transformNumber s data c
      · obtain ⟨c, hc⟩ := hex
        rw [handleUdpConnectionRequest_of_confirms hc]
        exact .bound hnot hc
      · rw [handleUdpConnectionRequest_of_not fun c hc => hex ⟨c, hc⟩]
        exact .dropped (fun htakes => absurd htakes hnot) fun hc => absurd hc hex

/-- What an event can do. -/
theorem delivered_of_deliver {event : Event} (h : s.deliver transformNumber event = some t) :
    Delivered transformNumber s event t := by
  cases event with
  | table event =>
    cases event with
    | tcpConnection id c number garbage =>
      simp only [deliver, step] at h
      split at h
      · cases h
      next hc =>
        cases h
        exact .connection hc
    | tcpDisconnection id =>
      cases h
      cases hof : s.clientOf id with
      | none =>
        rw [onTcpDisconnection, hof]
        exact .stranger hof
      | some e =>
        rw [onTcpDisconnection, hof]
        exact .disconnection hof
    | udpData addr data => exact delivered_onUdpData h
  | tcpPacket id buffer garbage =>
    cases h
    exact delivered_onTcpPacket transformNumber garbage s id buffer

/-! ## A call of `on_tcp_data` -/

/-- The loop, for a connection with a client, is a run of its turns. -/
theorem runUnder_onTcpDataLoop {confirmed : Bool} {id c : Uuid} (garbage : Nat → UInt16)
    (s : Server) (reader : BufReader) {client : Client} (hof : s.clientOf id = some (c, client)) :
    (deliveries transformNumber confirmed).RunUnder Machine.Any s
      (s.onTcpDataLoop transformNumber c garbage reader).1 := by
  induction garbage, s, reader using onTcpDataLoop.induct transformNumber c with
  | case1 garbage s reader h =>
    rw [onTcpDataLoop_of_none h]
    exact Relation.ReflTransGen.refl
  | case2 garbage s reader packet h ih =>
    rw [onTcpDataLoop_of_some h]
    have hturn : s.onTcpPacket transformNumber (garbage 0) id reader.unread =
        s.handlePacket transformNumber (garbage 0) c packet := by
      simp only [onTcpPacket, hof, h]
    -- a turn leaves the clients alone, so the next one is for the same client
    have hkept : (s.handlePacket transformNumber (garbage 0) c packet).clientOf id =
        some (c, client) := by
      obtain ⟨_, -, hclients, -⟩ := handlePacket_base transformNumber (garbage 0) s c packet
      rw [clientOf, hclients]
      exact hof
    refine Machine.RunUnder.trans (.step (a := .tcpPacket id reader.unread (garbage 0)) trivial ?_)
      (ih hkept)
    exact congrArg some hturn

/-- A call of `on_tcp_data` with nobody filling the reader meanwhile. -/
theorem runUnder_onTcpData (transformNumber : UInt64 → UInt64) (confirmed : Bool)
    (garbage : Nat → UInt16) (s : Server) (id : Uuid) (reader : BufReader) :
    (deliveries transformNumber confirmed).RunUnder Machine.Any s
      (s.onTcpData transformNumber garbage id reader).1 := by
  unfold onTcpData
  split
  · exact Relation.ReflTransGen.refl
  next c client hof => exact runUnder_onTcpDataLoop garbage s reader hof

/-! ## Reserved message types -/

/-- The types above the range reserved for system messages. -/
def UserType (type : MsgType) : Prop := 256 ≤ type

instance (type : MsgType) : Decidable (UserType type) := inferInstanceAs (Decidable (256 ≤ type))

/-- Every packet given to the user has a type of the user's. -/
def Internal (s : Server) : Prop :=
  ∀ packet c, .onPacket packet c ∈ s.calls → UserType packet.header.type

/-- The condition on an event: the packet that comes over TCP for a client is the one request kept
back or the user's, the packet in a datagram taken for a verified client's is the user's. -/
def Unreserved (s : Server) : Event → Prop
  | .table (.udpData addr data) => TakesPackets s addr →
      ∀ packet, Packet.deserialize data = some packet → UserType packet.header.type
  | .tcpPacket id buffer _ => (s.clientOf id).isSome →
      ∀ packet, Packet.deserialize buffer = some packet →
        packet.header.type = SystemTypes.ASKUDP_NUMBER ∨ UserType packet.header.type
  | _ => True

theorem internal_call_iff {callback : Callback} : Internal (s.call callback) ↔
    Internal s ∧ ∀ packet c, callback = .onPacket packet c → UserType packet.header.type := by
  constructor
  · intro h
    refine ⟨fun packet c hmem => h packet c (List.mem_append_left _ hmem), ?_⟩
    rintro packet c rfl
    exact h packet c (List.mem_append_right _ List.mem_cons_self)
  · rintro ⟨hs, hnew⟩ packet c hmem
    rcases List.mem_append.mp hmem with hmem | hmem
    · exact hs packet c hmem
    · exact hnew packet c (List.mem_singleton.mp hmem).symm

theorem internal_call_onPacket {packet : Packet} {c : Uuid} : Internal (s.call (.onPacket packet c))
    ↔ Internal s ∧ UserType packet.header.type := by
  rw [internal_call_iff]
  constructor
  · rintro ⟨hs, hnew⟩
    exact ⟨hs, hnew packet c rfl⟩
  · rintro ⟨hs, htype⟩
    refine ⟨hs, ?_⟩
    intro packet' c' heq
    cases heq
    exact htype

theorem internal_call_of_ne {callback : Callback} (hs : Internal s)
    (h : ∀ packet c, callback ≠ .onPacket packet c) : Internal (s.call callback) :=
  internal_call_iff.mpr ⟨hs, fun packet c heq => absurd heq (h packet c)⟩

/-- One event keeps reserved types internal exactly if it meets the condition. -/
theorem Delivered.internal_iff {event : Event} (h : Delivered transformNumber s event t)
    (hs : Internal s) : Internal t ↔ Unreserved s event := by
  cases h with
  | connection hc =>
    refine iff_of_true ?_ trivial
    exact internal_call_of_ne hs (fun _ _ => Callback.noConfusion)
  | stranger => exact iff_of_true hs trivial
  | disconnection hof =>
    refine iff_of_true ?_ trivial
    exact internal_call_of_ne hs (fun _ _ => Callback.noConfusion)
  | dropped hnone =>
    refine iff_of_true hs ?_
    intro htakes packet hdes
    rw [hnone htakes] at hdes
    cases hdes
  | datagram hfind hdes =>
    rw [internal_call_onPacket]
    constructor
    · rintro ⟨-, htype⟩ - packet' hdes'
      rw [hdes] at hdes'
      cases hdes'
      exact htype
    · intro hunreserved
      exact ⟨hs, hunreserved (.inl (Option.isSome_iff_exists.mpr ⟨_, hfind⟩)) _ hdes⟩
  | bound hnot =>
    refine iff_of_true ?_ (fun htakes => absurd htakes hnot)
    exact internal_call_of_ne hs (fun _ _ => Callback.noConfusion)
  | answered hrequest =>
    refine iff_of_true hs ?_
    intro hclient packet hdes
    exact .inl (hrequest packet hclient hdes)
  | packet hof hdes htype =>
    rw [internal_call_onPacket]
    constructor
    · rintro ⟨-, huser⟩ - packet' hdes'
      rw [hdes] at hdes'
      cases hdes'
      exact .inr huser
    · intro hunreserved
      have := hunreserved (Option.isSome_iff_exists.mpr ⟨_, hof⟩) _ hdes
      exact ⟨hs, this.resolve_left htype⟩

/-- **Reserved types stay internal as long as the peers keep them back**: in every run, in either
role, whose events meet the condition no packet given to the user has a reserved type; and an event
that does not meet it gives the user one. -/
theorem internal_iff_unreserved (transformNumber : UInt64 → UInt64) (confirmed : Bool) :
    (∀ s, (deliveries transformNumber confirmed).ReachUnder Unreserved s → Internal s) ∧
      ∀ s event t, Internal s → s.deliver transformNumber event = some t →
        (Internal t ↔ Unreserved s event) := by
  constructor
  · intro s h
    refine h.invariant (I := Internal) ?_ ?_
    · rintro s ⟨-, -, -, hcalls, -⟩ packet c hmem
      rw [hcalls] at hmem
      cases hmem
    · intro s event t hs hunreserved hstep
      exact ((delivered_of_deliver hstep).internal_iff hs).mpr hunreserved
  · intro s event t hs hstep
    exact (delivered_of_deliver hstep).internal_iff hs

/-- A handshake leaves nothing with the user: the confirmation comes from an unknown address. -/
theorem internal_first : Internal (connected.bindUdp peerAddr 9) := by
  have hrun : (deliveries transformNumberFunction false).RunUnder Unreserved fresh
      (connected.bindUdp peerAddr 9) := by
    refine Machine.RunUnder.trans (.step (a := .table (.tcpConnection 1 9 77 0)) trivial
      step_connected) (.step (a := .table (.udpData peerAddr confirmation)) ?_ step_first)
    intro htakes
    rcases htakes with hsome | htrue
    · cases hsome
    · cases htrue
  exact (internal_iff_unreserved transformNumberFunction false).1 _
    ⟨fresh, ⟨rfl, rfl, rfl, rfl, rfl⟩, hrun⟩

/-- The packet a second copy of client 9's confirmation is handed on as. -/
def retransmitted : Packet := responsePacket 0 9 (transformNumberFunction 77)

theorem deserialize_confirmation : Packet.deserialize confirmation = some retransmitted := by
  have h := Packet.deserialize_serialize_append
    (responsePacket_wf 0 9 (transformNumberFunction 77)) []
  rwa [List.append_nil] at h

theorem step_retransmitted : (deliveries transformNumberFunction false).step
    (connected.bindUdp peerAddr 9) (.table (.udpData peerAddr confirmation)) =
      some ((connected.bindUdp peerAddr 9).call (.onPacket retransmitted 9)) := by
  have hfind : OrdMap.find SocketAddr.lt (connected.bindUdp peerAddr 9).udpConnectionCache
      peerAddr = some (peerAddr, 9) := by decide
  simp only [deliveries, deliver, step, onUdpData, hfind, deserialize_confirmation,
    Option.isSome_some, Bool.true_or, if_true, Option.map_some]

theorem reach_first : (deliveries transformNumberFunction false).Reach
    (connected.bindUdp peerAddr 9) :=
  ⟨fresh, ⟨rfl, rfl, rfl, rfl, rfl⟩, Machine.RunUnder.trans
    (.step (a := .table (.tcpConnection 1 9 77 0)) trivial step_connected)
    (.step (a := .table (.udpData peerAddr confirmation)) trivial step_first)⟩

/-- The second copy of a confirmation from the address it bound goes to the user. -/
theorem not_internal_retransmitted :
    ¬ ∀ s, (deliveries transformNumberFunction false).Reach s → Internal s := by
  intro hall
  have hreach := reach_first.run (.step trivial step_retransmitted)
  have htype := (internal_call_onPacket.mp (hall _ hreach)).2
  exact absurd htype (by decide)

end ProjectE.Net.Server
