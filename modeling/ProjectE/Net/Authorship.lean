import ProjectE.Net.Exchange

/-!
# Who wrote a packet

What `on_packet` is given as a client's is from that client's peer: either it came over the peer's
own connection, or it is a packet that the peer's user gave to `send_udp`, or the peer's answer to
its request (`packets_are_their_peers`). Datagrams may be lost, repeated, reordered, mixed with
anybody else's and cut to the buffer they are received into; they are not forged: nobody sends from
the address of a peer (`Genuine`).

The argument goes with the datagram: what a peer has queued, what is in the air and what the server
has queued is an image of a packet its peer spoke, cut at some length (`Wrote`), and what the reader
takes from such an image is that packet. The run is recorded, as the statement looks back at it.
-/

namespace ProjectE.Net

open Verif

namespace Network

variable {ι : Type*} {P : Peers ι} {transformNumber : UInt64 → UInt64}
variable {session session' : ι → Option (Uuid × UInt64)} {acts acts' : List (NetLabel ι)} {i : ι}
variable {c : Uuid} {packet : Packet} {bytes : List UInt8}

/-- The packet was given to `send_udp` by the peer's user, or answers the peer's request. -/
inductive Spoke (transformNumber : UInt64 → UInt64) (session : ι → Option (Uuid × UInt64))
    (acts : List (NetLabel ι)) (i : ι) : Packet → Prop
  | user {client type data garbage} : .speak i client type data garbage ∈ acts →
      Spoke transformNumber session acts i (Packet.deserializeTyped garbage type data)
  | answer {c number garbage} : session i = some (c, number) →
      Spoke transformNumber session acts i
        (Server.responsePacket garbage c (transformNumber number))

/-- The bytes are the image of such a packet, cut at some length. -/
def Wrote (transformNumber : UInt64 → UInt64) (session : ι → Option (Uuid × UInt64))
    (acts : List (NetLabel ι)) (i : ι) (bytes : List UInt8) : Prop :=
  ∃ packet : Packet, Spoke transformNumber session acts i packet ∧ packet.WF ∧
    ∃ k, bytes = packet.serialize.take k

/-- The packet is from the peer whose session is the client's. -/
def Came (transformNumber : UInt64 → UInt64) (session : ι → Option (Uuid × UInt64))
    (acts : List (NetLabel ι)) (packet : Packet) (c : Uuid) : Prop :=
  ∃ i number, session i = some (c, number) ∧
    ((∃ buffer garbage, .hear i buffer garbage ∈ acts ∧ Packet.deserialize buffer = some packet) ∨
      Spoke transformNumber session acts i packet)

/-- Sessions begin and the record goes on. -/
structure Later (session session' : ι → Option (Uuid × UInt64)) (acts acts' : List (NetLabel ι)) :
    Prop where
  session : ∀ i v, session i = some v → session' i = some v
  acts : ∀ label ∈ acts, label ∈ acts'

theorem Spoke.mono (hlater : Later session session' acts acts')
    (h : Spoke transformNumber session acts i packet) :
    Spoke transformNumber session' acts' i packet := by
  cases h with
  | user h => exact .user (hlater.acts _ h)
  | answer h => exact .answer (hlater.session _ _ h)

theorem Wrote.mono (hlater : Later session session' acts acts')
    (h : Wrote transformNumber session acts i bytes) :
    Wrote transformNumber session' acts' i bytes := by
  obtain ⟨packet, hspoke, hrest⟩ := h
  exact ⟨packet, hspoke.mono hlater, hrest⟩

theorem Came.mono (hlater : Later session session' acts acts')
    (h : Came transformNumber session acts packet c) :
    Came transformNumber session' acts' packet c := by
  obtain ⟨i, number, hi, ⟨buffer, garbage, hhear, hdes⟩ | hspoke⟩ := h
  · exact ⟨i, number, hlater.session _ _ hi, .inl ⟨buffer, garbage, hlater.acts _ hhear, hdes⟩⟩
  · exact ⟨i, number, hlater.session _ _ hi, .inr (hspoke.mono hlater)⟩

theorem Spoke.wrote (h : Spoke transformNumber session acts i packet) (hwf : packet.WF) :
    Wrote transformNumber session acts i packet.serialize :=
  ⟨packet, h, hwf, packet.serialize.length, List.take_length.symm⟩

theorem Wrote.take (h : Wrote transformNumber session acts i bytes) (k : Nat) :
    Wrote transformNumber session acts i (bytes.take k) := by
  obtain ⟨packet, hspoke, hwf, l, rfl⟩ := h
  exact ⟨packet, hspoke, hwf, min k l, List.take_take ..⟩

/-- What the reader takes from a cut image is the packet that was written. -/
theorem Wrote.spoke (h : Wrote transformNumber session acts i bytes)
    (hdes : Packet.deserialize bytes = some packet) :
    Spoke transformNumber session acts i packet := by
  obtain ⟨written, hspoke, hwf, k, rfl⟩ := h
  have hread := Packet.deserialize_append hdes (written.serialize.drop k)
  have hwhole := Packet.deserialize_serialize_append hwf []
  rw [List.take_append_drop] at hread
  rw [List.append_nil, hread] at hwhole
  cases hwhole
  exact hspoke

/-! ## What is on its way, and what was handed over -/

/-- The condition on a step: it is honest, what the peer's user says fits a packet, and a stranger
does not send from the address of a peer. -/
def Genuine (transformNumber : UInt64 → UInt64) (P : Peers ι) (n : Network ι)
    (label : NetLabel ι) : Prop :=
  Honest transformNumber n label ∧ match label with
    | .speak _ _ _ data _ => data.length < 2 ^ 16
    | .stranger addr _ => ∀ i, ¬ SocketAddr.Incomparable (P.addr i) addr
    | _ => True

/-- Whatever of a peer's is under way is a packet of that peer, cut at some length, and whatever was
handed to the user came from the peer of the client that it was said to be from. -/
structure Written (transformNumber : UInt64 → UInt64) (P : Peers ι)
    (s : Network ι × List (NetLabel ι)) : Prop where
  linked : Linked transformNumber P s.1
  outbox : ∀ i, ∀ e ∈ (s.1.peer i).sendUdpQueue,
    Wrote transformNumber s.1.session s.2 i e.2
  air : ∀ e ∈ s.1.datagrams, ∃ i, e.1 = P.addr i ∧ Wrote transformNumber s.1.session s.2 i e.2
  inbox : ∀ e ∈ s.1.host.recvUdpQueue, ∃ i, e.1 = P.addr i ∧
    Wrote transformNumber s.1.session s.2 i e.2
  told : ∀ packet c, .onPacket packet c ∈ s.1.host.calls →
    Came transformNumber s.1.session s.2 packet c

variable {n m : Network ι}

/-- A step, by what it adds to each place. -/
theorem Written.adds (h : Written transformNumber P (n, acts))
    (hlinked : Linked transformNumber P m)
    (hlater : Later n.session m.session acts acts')
    (houtbox : ∀ i, ∀ e ∈ (m.peer i).sendUdpQueue, e ∈ (n.peer i).sendUdpQueue ∨
      Wrote transformNumber m.session acts' i e.2)
    (hair : ∀ e ∈ m.datagrams, e ∈ n.datagrams ∨ ∃ i, e.1 = P.addr i ∧
      Wrote transformNumber m.session acts' i e.2)
    (hinbox : ∀ e ∈ m.host.recvUdpQueue, e ∈ n.host.recvUdpQueue ∨ ∃ i, e.1 = P.addr i ∧
      Wrote transformNumber m.session acts' i e.2)
    (htold : ∀ packet c, .onPacket packet c ∈ m.host.calls →
      .onPacket packet c ∈ n.host.calls ∨ Came transformNumber m.session acts' packet c) :
    Written transformNumber P (m, acts') := by
  have hkeep {e : SocketAddr × List UInt8} (he : ∃ i, e.1 = P.addr i ∧
      Wrote transformNumber n.session acts i e.2) : ∃ i, e.1 = P.addr i ∧
        Wrote transformNumber m.session acts' i e.2 := by
    obtain ⟨i, haddr, hwrote⟩ := he
    exact ⟨i, haddr, hwrote.mono hlater⟩
  refine ⟨hlinked, fun i e he => ?_, fun e he => ?_, fun e he => ?_, fun packet c hcall => ?_⟩
  · exact (houtbox i e he).elim (fun he => (h.outbox i e he).mono hlater) id
  · exact (hair e he).elim (fun he => hkeep (h.air e he)) id
  · exact (hinbox e he).elim (fun he => hkeep (h.inbox e he)) id
  · exact (htold packet c hcall).elim (fun hcall => (h.told packet c hcall).mono hlater) id

/-- The server's side of a step, which leaves the peers and the air as they are. -/
theorem Written.host {t : Server} (h : Written transformNumber P (n, acts))
    (hlinked : Linked transformNumber P { n with host := t })
    (hlater : Later n.session n.session acts acts')
    (hinbox : ∀ e ∈ t.recvUdpQueue, e ∈ n.host.recvUdpQueue ∨ ∃ i, e.1 = P.addr i ∧
      Wrote transformNumber n.session acts' i e.2)
    (htold : ∀ packet c, .onPacket packet c ∈ t.calls →
      .onPacket packet c ∈ n.host.calls ∨ Came transformNumber n.session acts' packet c) :
    Written transformNumber P ({ n with host := t }, acts') :=
  h.adds hlinked hlater (fun _ _ he => .inl he) (fun _ he => .inl he) hinbox htold

/-- A datagram is handed over as the packet of the peer that has the address. -/
theorem Linked.came (h : Linked transformNumber P n) (hapart : P.Apart) {addr : SocketAddr}
    {e : SocketAddr × Uuid}
    (hfind : OrdMap.find SocketAddr.lt n.host.udpConnectionCache addr = some e)
    (haddr : addr = P.addr i) (hwrote : Wrote transformNumber n.session acts i bytes)
    (hdes : Packet.deserialize bytes = some packet) :
    Came transformNumber n.session acts packet e.2 := by
  obtain ⟨hmem, hlt, hgt⟩ := OrdMap.find_some hfind
  obtain ⟨j, number, hj, hentry⟩ := h.seats.cache e hmem
  have hsame : SocketAddr.Incomparable (P.addr j) (P.addr i) := by
    rw [← hentry, ← haddr]
    exact ⟨hlt, hgt⟩
  cases hapart j i hsame
  exact ⟨i, number, hj, .inr (hwrote.spoke hdes)⟩

/-- The client of a connection is that of the session drawn for it. -/
theorem Linked.session_of_clientOf (h : Linked transformNumber P n) {client : Client}
    (hof : n.host.clientOf (P.conn i) = some (c, client)) :
    n.session i = some (c, client.generatedNumber) := by
  have hmem : (c, client) ∈ n.host.clients := List.mem_of_find?_eq_some hof
  obtain ⟨j, hj, hconn, -⟩ := h.seats.client _ hmem
  have hown : client.tcpConnectionId = P.conn i := by simpa using List.find?_some hof
  cases P.conn_injective (hconn.symm.trans hown)
  exact hj

section Run

variable [DecidableEq ι]

theorem sendUdpQueue_sendUdp (garbage : UInt16) (s : Server) (client : Uuid) (type : MsgType)
    (data : List UInt8) : ∀ e ∈ (s.sendUdp garbage client type data).sendUdpQueue,
      e ∈ s.sendUdpQueue ∨ e.2 = (Packet.deserializeTyped garbage type data).serialize := by
  intro e he
  unfold Server.sendUdp at he
  split at he
  · rcases List.mem_append.mp he with he | he
    · exact .inl he
    · cases List.mem_singleton.mp he
      exact .inr rfl
  · exact .inl he

theorem Written.of_step (hapart : P.Apart) (h : Written transformNumber P (n, acts))
    {label : NetLabel ι} (hgenuine : Genuine transformNumber P n label)
    (hstep : n.step transformNumber P label = some m) :
    Written transformNumber P (m, acts ++ [label]) := by
  have hlinked := linked_of_step h.linked hgenuine.1 hstep
  have hlater : Later n.session n.session acts (acts ++ [label]) :=
    ⟨fun _ _ hi => hi, fun _ hmem => List.mem_append_left _ hmem⟩
  have hlast : label ∈ acts ++ [label] := List.mem_append_right _ List.mem_cons_self
  cases label with
  | accept i client number garbage =>
    obtain ⟨⟨hi, -⟩, heq⟩ := Option.ite_none_right_eq_some.mp hstep
    cases heq
    refine h.adds hlinked ⟨fun j v hj => ?_, hlater.acts⟩ (fun _ _ he => .inl he)
      (fun _ he => .inl he) (fun _ he => .inl he) fun packet c hcall => ?_
    · change Function.update n.session i (some (client, number)) j = some v
      rw [Function.update_of_ne ?_, hj]
      rintro rfl
      rw [hi] at hj
      cases hj
    · rcases List.mem_append.mp hcall with hcall | hcall
      · exact .inl hcall
      · cases List.mem_singleton.mp hcall
  | close i =>
    cases hstep
    exact h.adds hlinked hlater (fun _ _ he => .inl he) (fun _ he => .inl he)
      (fun _ he => .inl he) fun _ _ hcall => .inl hcall
  | disconnect i =>
    obtain ⟨-, heq⟩ := Option.ite_none_left_eq_some.mp hstep
    cases heq
    have hbase := (Server.onTcpDisconnection_base n.host (P.conn i)).1
    refine h.host hlinked hlater (fun e he => .inl (by rwa [hbase] at he)) fun packet c hcall => ?_
    unfold Server.onTcpDisconnection at hcall
    split at hcall
    · exact .inl hcall
    · rcases List.mem_append.mp hcall with hcall | hcall
      · exact .inl hcall
      · cases List.mem_singleton.mp hcall
  | say client type data garbage =>
    cases hstep
    refine h.host hlinked hlater (fun e he => .inl ?_) fun packet c hcall => .inl ?_
    · unfold Server.sendTcp at he
      split at he <;> exact he
    · unfold Server.sendTcp at hcall
      split at hcall <;> exact hcall
  | flush =>
    simp only [step] at hstep
    split at hstep
    · cases hstep
    · cases hstep
      exact h.adds hlinked hlater (fun _ _ he => .inl he) (fun _ he => .inl he)
        (fun _ he => .inl he) fun _ _ hcall => .inl hcall
  | hear i buffer garbage =>
    cases hstep
    have hdelivered := Server.delivered_onTcpPacket transformNumber garbage n.host (P.conn i) buffer
    generalize n.host.onTcpPacket transformNumber garbage (P.conn i) buffer = t
      at hdelivered hlinked ⊢
    cases hdelivered with
    | answered =>
      exact h.host hlinked hlater (fun _ he => .inl he) fun _ _ hcall => .inl hcall
    | packet hof hdes =>
      refine h.host hlinked hlater (fun _ he => .inl he) fun packet c hcall => ?_
      rcases List.mem_append.mp hcall with hcall | hcall
      · exact .inl hcall
      · cases List.mem_singleton.mp hcall
        exact .inr ⟨i, _, h.linked.session_of_clientOf hof, .inl ⟨buffer, garbage, hlast, hdes⟩⟩
  | turn i arrived garbage =>
    cases hstep
    refine h.adds hlinked hlater (fun j e he => ?_) (fun _ he => .inl he) (fun _ he => .inl he)
      fun _ _ hcall => .inl hcall
    by_cases hji : j = i
    · subst hji
      simp only [Function.update_self] at he
      rcases turn_cases h.linked.mail j arrived garbage with ⟨hsame, -⟩ |
        ⟨packet, -, -, ⟨-, hsame⟩ | ⟨c, number, g, target, hi, -, hqueue⟩⟩
      · exact .inl (hsame ▸ he)
      · exact .inl (hsame ▸ he)
      · rw [hqueue] at he
        rcases List.mem_append.mp he with he | he
        · exact .inl he
        · cases List.mem_singleton.mp he
          exact .inr ((Spoke.answer hi).wrote (Server.responsePacket_wf garbage c _))
    · simp only [Function.update_of_ne hji] at he
      exact .inl he
  | speak i client type data garbage =>
    cases hstep
    refine h.adds hlinked hlater (fun j e he => ?_) (fun _ he => .inl he) (fun _ he => .inl he)
      fun _ _ hcall => .inl hcall
    by_cases hji : j = i
    · subst hji
      simp only [Function.update_self] at he
      rcases sendUdpQueue_sendUdp garbage (n.peer j) client type data e he with he | heq
      · exact .inl he
      · rw [heq]
        exact .inr ((Spoke.user hlast).wrote
          ((Packet.deserializeTyped_wf_iff _ _ _).mpr hgenuine.2))
    · simp only [Function.update_of_ne hji] at he
      exact .inl he
  | emit i =>
    simp only [step] at hstep
    split at hstep
    · cases hstep
    next target data rest hqueue =>
      cases hstep
      have hfront := (h.outbox i (target, data) (hqueue ▸ List.mem_cons_self)).mono hlater
      refine h.adds hlinked hlater (fun j e he => .inl ?_) (fun e he => ?_) (fun _ he => .inl he)
        fun _ _ hcall => .inl hcall
      · by_cases hji : j = i
        · subst hji
          simp only [Function.update_self, BaseServer.handleUdpWriteEvent, hqueue] at he
          rw [hqueue]
          exact List.mem_cons_of_mem _ he
        · simp only [Function.update_of_ne hji] at he
          exact he
      · rcases List.mem_append.mp he with he | he
        · exact .inl he
        · cases List.mem_singleton.mp he
          exact .inr ⟨i, rfl, hfront⟩
  | receive k =>
    simp only [step] at hstep
    split at hstep
    · cases hstep
    next addr data hk =>
      cases hstep
      obtain ⟨i, haddr, hwrote⟩ := h.air _ (List.mem_of_getElem? hk)
      obtain ⟨more, hbase, hmore⟩ := receive_base n.host.toBaseServer addr data
      rw [hbase] at hlinked ⊢
      refine h.host hlinked hlater (fun e he => ?_) fun _ _ hcall => .inl hcall
      rcases List.mem_append.mp he with he | he
      · exact .inl he
      · cases hmore e he
        exact .inr ⟨i, haddr, (hwrote.mono hlater).take MAX_BUFFER_SIZE⟩
  | handle =>
    simp only [step] at hstep
    split at hstep
    · cases hstep
    next addr data rest hrecv =>
      obtain ⟨t, ht, rfl⟩ := Option.map_eq_some_iff.mp hstep
      obtain ⟨i, haddr, hwrote⟩ := h.inbox (addr, data) (hrecv ▸ List.mem_cons_self)
      have hleft := (queues_onUdpData ht).2
      refine h.host hlinked hlater (fun e he => .inl ?_) fun packet c hcall => ?_
      · rw [hleft] at he
        exact hrecv ▸ List.mem_cons_of_mem _ he
      · cases Server.delivered_onUdpData ht with
        | dropped => exact .inl hcall
        | datagram hfind hdes =>
          rcases List.mem_append.mp hcall with hcall | hcall
          · exact .inl hcall
          · cases List.mem_singleton.mp hcall
            exact .inr (h.linked.came hapart hfind haddr (hwrote.mono hlater) hdes)
        | bound =>
          rcases List.mem_append.mp hcall with hcall | hcall
          · exact .inl hcall
          · cases List.mem_singleton.mp hcall
  | stranger addr data =>
    obtain ⟨t, ht, rfl⟩ := Option.map_eq_some_iff.mp hstep
    have hleft := (queues_onUdpData ht).2
    refine h.host hlinked hlater (fun e he => .inl (hleft ▸ he)) fun packet c hcall => ?_
    cases Server.delivered_onUdpData ht with
    | dropped => exact .inl hcall
    | datagram hfind =>
      -- the cache has no address but the peers'
      obtain ⟨hmem, hlt, hgt⟩ := OrdMap.find_some hfind
      obtain ⟨j, number, -, hentry⟩ := h.linked.seats.cache _ hmem
      refine absurd ?_ (hgenuine.2 j)
      rw [← hentry]
      exact ⟨hlt, hgt⟩
    | bound =>
      rcases List.mem_append.mp hcall with hcall | hcall
      · exact .inl hcall
      · cases List.mem_singleton.mp hcall

/-- **What is handed over as a client's is its peer's.** In every run of genuine steps from a server
that has called nothing yet, a packet given to `on_packet` for a client came over the connection of
the peer whose session is that client's, or that peer's user gave it to `send_udp`, as it is, or it
answers that peer's request. Steps are genuine (`Genuine`) if they are honest, what users give to
`send_udp` fits a packet, and no stranger sends from a peer's address. -/
theorem packets_are_their_peers (hapart : P.Apart) {n₀ : Network ι} (hstart : Starts P n₀)
    (hcalls : n₀.host.calls = [])
    (hrun : (machine transformNumber P).recorded.RunUnder
      (fun s => Genuine transformNumber P s.1) (n₀, []) (n, acts))
    (hcall : .onPacket packet c ∈ n.host.calls) :
    Came transformNumber n.session acts packet c := by
  have hlinked : Linked transformNumber P n₀ := linked_of_reach (.init hstart)
  have hfirst : Written transformNumber P (n₀, []) := by
    obtain ⟨-, -, hrecv, hpeers, -, hair, -⟩ := hstart
    refine ⟨hlinked, fun i => ?_, ?_, ?_, ?_⟩
    · simp [(hpeers i).2.2]
    · simp [hair]
    · simp [hrecv]
    · simp [hcalls]
  have hwritten : Written transformNumber P (n, acts) := by
    refine hrun.invariant (I := Written transformNumber P) ?_ hfirst
    rintro ⟨n, acts⟩ label ⟨m, acts'⟩ h hgenuine hstep
    obtain ⟨hstep, rfl⟩ := Machine.step_recorded.mp hstep
    exact h.of_step hapart hgenuine hstep
  exact hwritten.told packet c hcall

/-- The peers bind their addresses, then one of them speaks, and its datagram comes twice. -/
def speaking : List (NetLabel Bool) :=
  crossing ++ [.speak true 4 300 [1, 2, 3] 0, .emit true, .receive 2, .receive 2, .handle,
    .stranger (.v4 ⟨⟨#v[10, 0, 0, 3]⟩, 4000⟩) [0, 7], .handle]

theorem genuine_speaking : ∀ label ∈ speaking, ∀ s : Network Bool × List (NetLabel Bool),
    Genuine Server.transformNumberFunction crowd s.1 label := by
  have hunread (n : Network Bool) (c : Uuid) :
      ¬ Server.Confirms Server.transformNumberFunction n.host [0, 7] c := by
    intro hconfirms
    obtain ⟨packet, entry, hdes, -⟩ := Server.confirms_iff.mp hconfirms
    cases hdes
  intro label hmem s
  rcases List.mem_append.mp hmem with hmem | hmem
  · simp only [crossing, List.mem_cons, List.not_mem_nil, or_false] at hmem
    rcases hmem with rfl | rfl | rfl | rfl | rfl | rfl | rfl | rfl | rfl | rfl | rfl | rfl | rfl |
      rfl <;> exact ⟨trivial, trivial⟩
  · simp only [List.mem_cons, List.not_mem_nil, or_false] at hmem
    rcases hmem with rfl | rfl | rfl | rfl | rfl | rfl | rfl
    · exact ⟨show (300 : MsgType) ≠ SystemTypes.ASKUDP_RESPONSE by decide,
        show [(1 : UInt8), 2, 3].length < 2 ^ 16 by decide⟩
    · exact ⟨trivial, trivial⟩
    · exact ⟨trivial, trivial⟩
    · exact ⟨trivial, trivial⟩
    · exact ⟨trivial, trivial⟩
    · exact ⟨hunread s.1, fun i h => absurd h.1 (by cases i <;> decide)⟩
    · exact ⟨trivial, trivial⟩

theorem packets_are_their_peers_speaking : ∃ n : Network Bool,
    .onPacket (Packet.deserializeTyped 0 300 [1, 2, 3]) 9 ∈ n.host.calls ∧
    Came Server.transformNumberFunction n.session speaking
      (Packet.deserializeTyped 0 300 [1, 2, 3]) 9 := by
  have hexec : ((machine Server.transformNumberFunction crowd).recorded.exec Machine.Any
      (crowded, []) speaking).any (fun s => decide
        (.onPacket (Packet.deserializeTyped 0 300 [1, 2, 3]) 9 ∈ s.1.host.calls)) = true := by
    decide +kernel
  obtain ⟨⟨n, acts⟩, hrun, hs⟩ := (Option.any_eq_true _ _).mp hexec
  have hcall := of_decide_eq_true hs
  cases Machine.exec_recorded hrun
  exact ⟨n, hcall, packets_are_their_peers apart_crowd starts_crowded rfl
    (Machine.runUnder_of_labels genuine_speaking hrun) hcall⟩

end Run

end Network

end ProjectE.Net
