import ProjectE.Net.Binding

/-!
# Whom a datagram is sent to

`send_udp` and `send_udp_all` take the address from the record of the client, and whether an address
is verified is written in the cache. The record of a client that has not answered the challenge
holds the default address, which no code asks about before it sends.

So a datagram is addressed to an address bound to its client exactly if `on_udp_connect` was called
for that client (`queuedBound_iff_announced`), in every run in which a client that leaves takes its
own entry of the cache only (`KeepsOthers`): one that never answered takes whatever entry its
default address finds.
-/

namespace ProjectE.Net.Server

open Verif

/-- What reaches a server: an event, or a call of one of the functions that send. -/
inductive Act where
  | event (event : Event)
  | sendTcp (garbage : UInt16) (clientUuid : Uuid) (type : MsgType) (data : List UInt8)
  | sendUdp (garbage : UInt16) (clientUuid : Uuid) (type : MsgType) (data : List UInt8)
  | sendTcpAll (garbage : UInt16) (type : MsgType) (data : List UInt8)
  | sendUdpAll (garbage : UInt16) (type : MsgType) (data : List UInt8)
deriving DecidableEq, Repr

section Machine

variable (transformNumber : UInt64 → UInt64)

/-- An event is delivered, or the user calls one of the four sending functions. -/
def act (s : Server) : Act → Option Server
  | .event event => s.deliver transformNumber event
  | .sendTcp garbage clientUuid type data => some (s.sendTcp garbage clientUuid type data)
  | .sendUdp garbage clientUuid type data => some (s.sendUdp garbage clientUuid type data)
  | .sendTcpAll garbage type data => some (s.sendTcpAll garbage type data)
  | .sendUdpAll garbage type data => some (s.sendUdpAll garbage type data)

/-- A hosting server. -/
def acts : Machine Server Act where
  init := Begins false
  step := act transformNumber

end Machine

/-- The condition on a step: a client that leaves takes no entry of another from the cache. -/
def KeepsOthers (s : Server) : Act → Prop
  | .event (.table (.tcpDisconnection id)) => ∀ c client, s.clientOf id = some (c, client) →
      ∀ e, OrdMap.find SocketAddr.lt s.udpConnectionCache client.udpAddr = some e → e.2 = c
  | _ => True

/-- What `t` has queued more than `s`: one datagram for each of `meant`, in order, addressed to an
address bound to that client. -/
def QueuedBound (s t : Server) (meant : List Uuid) : Prop :=
  ∃ sent, t.sendUdpQueue = s.sendUdpQueue ++ sent ∧
    List.Forall₂ (fun c datagram => (datagram.1, c) ∈ s.udpConnectionCache) meant sent

variable {transformNumber : UInt64 → UInt64} {s t : Server} {c : Uuid}

/-! ## What sending does -/

/-- Sending queues, and nothing else: the tables of the clients and what the user was told are as
before. -/
structure OnlyQueues (s t : Server) : Prop where
  clients : t.clients = s.clients
  udpConnectionCache : t.udpConnectionCache = s.udpConnectionCache
  clientUUIDs : t.clientUUIDs = s.clientUUIDs
  calls : t.calls = s.calls
  udpConfirmed : t.udpConfirmed = s.udpConfirmed

/-- Two steps that fill queues fill queues. -/
theorem OnlyQueues.trans {u : Server} (h₁ : OnlyQueues s t) (h₂ : OnlyQueues t u) :
    OnlyQueues s u where
  clients := h₂.clients.trans h₁.clients
  udpConnectionCache := h₂.udpConnectionCache.trans h₁.udpConnectionCache
  clientUUIDs := h₂.clientUUIDs.trans h₁.clientUUIDs
  calls := h₂.calls.trans h₁.calls
  udpConfirmed := h₂.udpConfirmed.trans h₁.udpConfirmed

/-- Nothing was queued. -/
theorem onlyQueues_refl (s : Server) : OnlyQueues s s := ⟨rfl, rfl, rfl, rfl, rfl⟩

/-- So does sending to one client after the other. -/
theorem onlyQueues_foldl {send : Server → Uuid × Client → Server}
    (hsend : ∀ s e, OnlyQueues s (send s e)) : ∀ (clients : List (Uuid × Client)) (s : Server),
    OnlyQueues s (clients.foldl send s)
  | [], s => onlyQueues_refl s
  | e :: clients, s => (hsend s e).trans (onlyQueues_foldl hsend clients (send s e))

/-- `send_tcp` touches nothing but the TCP queue. -/
theorem onlyQueues_sendTcp (garbage : UInt16) (s : Server) (c : Uuid) (type : MsgType)
    (data : List UInt8) : OnlyQueues s (s.sendTcp garbage c type data) := by
  unfold sendTcp
  split
  · exact ⟨rfl, rfl, rfl, rfl, rfl⟩
  · exact onlyQueues_refl s

/-- `send_udp` touches nothing but the UDP queue. -/
theorem onlyQueues_sendUdp (garbage : UInt16) (s : Server) (c : Uuid) (type : MsgType)
    (data : List UInt8) : OnlyQueues s (s.sendUdp garbage c type data) := by
  unfold sendUdp
  split
  · exact ⟨rfl, rfl, rfl, rfl, rfl⟩
  · exact onlyQueues_refl s

/-- And so does the loop over all clients. -/
theorem onlyQueues_sendTcpAll (garbage : UInt16) (s : Server) (type : MsgType)
    (data : List UInt8) : OnlyQueues s (s.sendTcpAll garbage type data) := by
  unfold sendTcpAll
  apply onlyQueues_foldl
  intro s e
  exact ⟨rfl, rfl, rfl, rfl, rfl⟩

/-- The loop over all clients touches nothing but the UDP queue. -/
theorem onlyQueues_sendUdpAll (garbage : UInt16) (s : Server) (type : MsgType)
    (data : List UInt8) : OnlyQueues s (s.sendUdpAll garbage type data) := by
  unfold sendUdpAll
  apply onlyQueues_foldl
  intro s e
  exact ⟨rfl, rfl, rfl, rfl, rfl⟩

/-- The datagrams of `send_udp_all`, in the order of the map. -/
theorem sendUdpQueue_foldl (bytes : List UInt8) : ∀ (clients : List (Uuid × Client)) (s : Server),
    (clients.foldl (fun s e => s.baseSendUdpTo e.2.udpAddr bytes) s).sendUdpQueue =
      s.sendUdpQueue ++ clients.map fun e => (e.2.udpAddr, bytes)
  | [], s => (List.append_nil _).symm
  | e :: clients, s => by
    rw [List.foldl_cons, sendUdpQueue_foldl bytes clients, List.map_cons]
    exact List.append_assoc s.sendUdpQueue [(e.2.udpAddr, bytes)] _

/-! ## Who was verified -/

/-- The current clients that were announced are bound to the address in their record, and nobody
else is bound. -/
structure VerifiedInv (s : Server) : Prop extends GivenInv s where
  cache_sorted : OrdMap.Sorted SocketAddr.lt s.udpConnectionCache
  bound : ∀ e ∈ s.clients, .onUdpConnect e.1 ∈ s.calls → (e.2.udpAddr, e.1) ∈ s.udpConnectionCache
  entries : ∀ e ∈ s.udpConnectionCache, .onUdpConnect e.2 ∈ s.calls

/-- A client's address is in the cache, as the client's, exactly if its binding was announced. -/
theorem VerifiedInv.mem_cache_iff (h : VerifiedInv s) {e : Uuid × Client} (he : e ∈ s.clients) :
    (e.2.udpAddr, e.1) ∈ s.udpConnectionCache ↔ .onUdpConnect e.1 ∈ s.calls := by
  constructor
  · intro hmem
    exact h.entries _ hmem
  · intro hannounced
    exact h.bound e he hannounced

/-- The queues play no part in it. -/
theorem VerifiedInv.congr (h : VerifiedInv s) (hq : OnlyQueues s t) : VerifiedInv t where
  sorted := hq.clients ▸ h.sorted
  given := by
    rw [hq.clients, hq.clientUUIDs]
    exact h.given
  announced := by
    rw [hq.calls, hq.clientUUIDs]
    exact h.announced
  cache_sorted := hq.udpConnectionCache ▸ h.cache_sorted
  bound := by
    rw [hq.clients, hq.calls, hq.udpConnectionCache]
    exact h.bound
  entries := by
    rw [hq.calls, hq.udpConnectionCache]
    exact h.entries

/-- A call that announces nobody. -/
theorem mem_calls_call {callback : Callback} (hne : ∀ d, callback ≠ .onUdpConnect d) :
    .onUdpConnect c ∈ (s.call callback).calls ↔ .onUdpConnect c ∈ s.calls := by
  have hcalls : (s.call callback).calls = s.calls ++ [callback] := rfl
  rw [hcalls, List.mem_append, List.mem_singleton]
  constructor
  · rintro (hmem | heq)
    · exact hmem
    · exact absurd heq.symm (hne c)
  · exact .inl

/-- Nor do the other callbacks. -/
theorem VerifiedInv.call (h : VerifiedInv s) {callback : Callback}
    (hne : ∀ d, callback ≠ .onUdpConnect d) : VerifiedInv (s.call callback) where
  toGivenInv := h.toGivenInv.call fun d heq => absurd heq (hne d)
  cache_sorted := h.cache_sorted
  bound e he hannounced := h.bound e he ((mem_calls_call hne).mp hannounced)
  entries e he := (mem_calls_call hne).mpr (h.entries e he)

/-- A new client is not bound, and its id was never announced. -/
theorem VerifiedInv.onTcpConnection (h : VerifiedInv s) (garbage : UInt16) {c : Uuid}
    (number : UInt64) (id : Uuid) (hc : c ∉ s.clientUUIDs) :
    VerifiedInv (s.onTcpConnection garbage c number id) where
  toGivenInv := by
    have hdelivered : Delivered transformNumberFunction s
        (.table (.tcpConnection id c number garbage)) _ := .connection hc
    exact hdelivered.givenInv h.toGivenInv
  cache_sorted := h.cache_sorted
  bound e he hannounced := by
    have hold : .onUdpConnect e.1 ∈ s.calls :=
      (mem_calls_call fun _ => Callback.noConfusion).mp hannounced
    rcases (OrdMap.mem_insert_of_none (h.find_none hc)).mp he with rfl | he
    · exact absurd (h.announced c hold) hc
    · exact h.bound e he hold
  entries e he := (mem_calls_call fun _ => Callback.noConfusion).mpr (h.entries e he)

/-- A client that leaves takes its own entry along, where the entry found under its address is its
own. -/
theorem VerifiedInv.disconnection (h : VerifiedInv s) {id : Uuid} {client : Client}
    (hof : s.clientOf id = some (c, client))
    (hown : ∀ e, OrdMap.find SocketAddr.lt s.udpConnectionCache client.udpAddr = some e → e.2 = c) :
    VerifiedInv { s.call (.onTcpDisconnect c) with
      udpConnectionCache := OrdMap.erase SocketAddr.lt s.udpConnectionCache client.udpAddr
      clients := OrdMap.erase Uuid.lt s.clients c } where
  toGivenInv := by
    have hdelivered : Delivered transformNumberFunction s (.table (.tcpDisconnection id)) _ :=
      .disconnection hof
    exact hdelivered.givenInv h.toGivenInv
  cache_sorted := h.cache_sorted.erase _
  bound e he hannounced := by
    obtain ⟨hold, hne⟩ := (mem_erase_clients h.toClientsInv hof).mp he
    have hmem := h.bound e hold ((mem_calls_call fun _ => Callback.noConfusion).mp hannounced)
    cases hfind : OrdMap.find SocketAddr.lt s.udpConnectionCache client.udpAddr with
    | none => rwa [OrdMap.erase_of_none hfind]
    | some found =>
      apply (OrdMap.mem_erase_iff SocketAddr.lt_irrefl h.cache_sorted hfind).mpr
      refine ⟨hmem, ?_⟩
      -- what is erased names the client that leaves
      intro heq
      exact hne ((congrArg Prod.snd heq).trans (hown found hfind))
  entries e he := (mem_calls_call fun _ => Callback.noConfusion).mpr
    (h.entries e (OrdMap.mem_of_mem_erase he))

/-- The binding is announced in the same step; the client's record holds the address from
then on. -/
theorem VerifiedInv.bindUdp (h : VerifiedInv s) {addr : SocketAddr} {data : List UInt8}
    (hnot : ¬ TakesPackets s addr) (hconfirms : Confirms transformNumber s data c) :
    VerifiedInv (s.bindUdp addr c) := by
  have hfind := find_none_of_not_takesPackets hnot
  have hcalls : (s.bindUdp addr c).calls = s.calls ++ [.onUdpConnect c] := rfl
  refine ⟨Delivered.givenInv h.toGivenInv (.bound hnot hconfirms),
    h.cache_sorted.insert SocketAddr.lt_trans addr c, fun e he hannounced => ?_, fun e he => ?_⟩
  · apply (OrdMap.mem_insert_of_none hfind).mpr
    by_cases heq : e.1 = c
    · obtain ⟨pre, post, client, hclients, hbound⟩ := clients_bindUdp addr hconfirms
      have hmem : (c, { client with udpAddr := addr }) ∈ (s.bindUdp addr c).clients := by
        rw [hbound]
        exact List.mem_append_right _ List.mem_cons_self
      have hsorted := h.sorted.modify c fun client : Client => { client with udpAddr := addr }
      have hvalue : e.2 = { client with udpAddr := addr } :=
        OrdMap.value_unique Uuid.lt_irrefl hsorted (heq ▸ he) hmem
      rw [hvalue, heq]
      exact .inl rfl
    · refine .inr (h.bound e ((mem_clients_bindUdp_of_ne hconfirms heq).mp he) ?_)
      rw [hcalls, List.mem_append, List.mem_singleton] at hannounced
      rcases hannounced with hold | hnew
      · exact hold
      · cases hnew
        exact absurd rfl heq
  · rw [hcalls, List.mem_append]
    rcases (OrdMap.mem_insert_of_none hfind).mp he with rfl | he
    · exact .inr List.mem_cons_self
    · exact .inl (h.entries e he)

/-- One event keeps the agreement of cache and announcements, if a client that leaves takes nobody
else's entry. -/
theorem Delivered.verifiedInv {event : Event} (hs : VerifiedInv s)
    (hkeeps : KeepsOthers s (.event event)) (h : Delivered transformNumber s event t) :
    VerifiedInv t := by
  cases h with
  | connection hc => exact hs.onTcpConnection _ _ _ hc
  | stranger => exact hs
  | disconnection hof => exact hs.disconnection hof fun e hfind => hkeeps _ _ hof e hfind
  | dropped => exact hs
  | datagram => exact hs.call fun _ => Callback.noConfusion
  | bound hnot hconfirms => exact hs.bindUdp hnot hconfirms
  | answered => exact hs.congr ⟨rfl, rfl, rfl, rfl, rfl⟩
  | packet => exact hs.call fun _ => Callback.noConfusion

/-- And so it holds along every run of such events. -/
theorem verifiedInv (h : (acts transformNumber).ReachUnder KeepsOthers s) : VerifiedInv s := by
  refine h.invariant (I := VerifiedInv) ?_ ?_
  · rintro s ⟨hclients, hcache, -, hcalls, -⟩
    refine ⟨⟨⟨?_, ?_⟩, ?_⟩, ?_, ?_, ?_⟩
    · rw [hclients]
      exact List.Pairwise.nil
    · intro e he
      rw [hclients] at he
      cases he
    · intro c hmem
      rw [hcalls] at hmem
      cases hmem
    · rw [hcache]
      exact List.Pairwise.nil
    · intro e he
      rw [hclients] at he
      cases he
    · intro e he
      rw [hcache] at he
      cases he
  · intro s a t hs hkeeps hstep
    cases a with
    | event event => exact (delivered_of_deliver hstep).verifiedInv hs hkeeps
    | sendTcp garbage c type data =>
      cases hstep
      exact hs.congr (onlyQueues_sendTcp garbage s c type data)
    | sendUdp garbage c type data =>
      cases hstep
      exact hs.congr (onlyQueues_sendUdp garbage s c type data)
    | sendTcpAll garbage type data =>
      cases hstep
      exact hs.congr (onlyQueues_sendTcpAll garbage s type data)
    | sendUdpAll garbage type data =>
      cases hstep
      exact hs.congr (onlyQueues_sendUdpAll garbage s type data)

/-! ## When the recipient is verified -/

/-- The client a call of `send_udp` is meant for, if there is one of that uuid. -/
def recipient (s : Server) (clientUuid : Uuid) : List Uuid :=
  ((OrdMap.find Uuid.lt s.clients clientUuid).map (·.1)).toList

/-- What `send_udp` queues goes to a verified address exactly if the client was announced
as bound. -/
theorem VerifiedInv.queuedBound_sendUdp_iff (h : VerifiedInv s) (garbage : UInt16) (c : Uuid)
    (type : MsgType) (data : List UInt8) :
    QueuedBound s (s.sendUdp garbage c type data) (s.recipient c) ↔
      ((∃ client, (c, client) ∈ s.clients) → .onUdpConnect c ∈ s.calls) := by
  cases hfind : OrdMap.find Uuid.lt s.clients c with
  | none =>
    refine iff_of_true ⟨[], ?_, ?_⟩ ?_
    · simp only [sendUdp, hfind, List.append_nil]
    · simp only [recipient, hfind, Option.map_none, Option.toList_none, List.Forall₂.nil]
    · rintro ⟨client, hclient⟩
      rw [OrdMap.find_of_mem Uuid.lt_irrefl h.sorted hclient] at hfind
      cases hfind
  | some e =>
    have hkey : e.1 = c := OrdMap.find_key Uuid.lt_tri hfind
    have hmem : e ∈ s.clients := (OrdMap.find_some hfind).1
    have hqueue : (s.sendUdp garbage c type data).sendUdpQueue = s.sendUdpQueue ++
        [(e.2.udpAddr, (Packet.deserializeTyped garbage type data).serialize)] := by
      simp only [sendUdp, hfind]
      rfl
    have hrecipient : s.recipient c = [e.1] := by
      simp only [recipient, hfind, Option.map_some, Option.toList_some]
    have hbound : QueuedBound s (s.sendUdp garbage c type data) (s.recipient c) ↔
        (e.2.udpAddr, e.1) ∈ s.udpConnectionCache := by
      unfold QueuedBound
      rw [hqueue, hrecipient]
      constructor
      · rintro ⟨sent, hsent, hall⟩
        rw [← List.append_cancel_left hsent] at hall
        exact (List.forall₂_cons.mp hall).1
      · intro hcache
        exact ⟨_, rfl, .cons hcache .nil⟩
    rw [hbound, h.mem_cache_iff hmem, hkey]
    constructor
    · intro hannounced _
      exact hannounced
    · intro hall
      exact hall ⟨e.2, hkey ▸ hmem⟩

/-- What `send_udp_all` queues does so exactly if all clients were. -/
theorem VerifiedInv.queuedBound_sendUdpAll_iff (h : VerifiedInv s) (garbage : UInt16)
    (type : MsgType) (data : List UInt8) :
    QueuedBound s (s.sendUdpAll garbage type data) (s.clients.map (·.1)) ↔
      ∀ e ∈ s.clients, .onUdpConnect e.1 ∈ s.calls := by
  have hqueue := sendUdpQueue_foldl (Packet.deserializeTyped garbage type data).serialize
    s.clients s
  have hbound : QueuedBound s (s.sendUdpAll garbage type data) (s.clients.map (·.1)) ↔
      ∀ e ∈ s.clients, (e.2.udpAddr, e.1) ∈ s.udpConnectionCache := by
    unfold QueuedBound sendUdpAll
    rw [hqueue]
    constructor
    · rintro ⟨sent, hsent, hall⟩
      rw [← List.append_cancel_left hsent, List.forall₂_map_left_iff, List.forall₂_map_right_iff,
        List.forall₂_same] at hall
      exact hall
    · intro hall
      refine ⟨_, rfl, ?_⟩
      rw [List.forall₂_map_left_iff, List.forall₂_map_right_iff, List.forall₂_same]
      exact hall
  rw [hbound]
  exact forall₂_congr fun e he => h.mem_cache_iff he

/-- **A datagram goes to a verified address exactly if its client was announced**: in every state of
every run in which no client that leaves takes another's entry of the cache, `send_udp` queues a
datagram for an address bound to the client, or none, if and only if the uuid is of no current
client or of one `on_udp_connect` was called for; and `send_udp_all` if and only if it was called
for every current client. -/
theorem queuedBound_iff_announced (transformNumber : UInt64 → UInt64) (s : Server)
    (hreach : (acts transformNumber).ReachUnder KeepsOthers s) :
    (∀ garbage c type data,
      QueuedBound s (s.sendUdp garbage c type data) (s.recipient c) ↔
        ((∃ client, (c, client) ∈ s.clients) → .onUdpConnect c ∈ s.calls)) ∧
    ∀ garbage type data,
      QueuedBound s (s.sendUdpAll garbage type data) (s.clients.map (·.1)) ↔
        ∀ e ∈ s.clients, .onUdpConnect e.1 ∈ s.calls := by
  have hs := verifiedInv hreach
  exact ⟨fun garbage c type data => hs.queuedBound_sendUdp_iff garbage c type data,
    fun garbage type data => hs.queuedBound_sendUdpAll_iff garbage type data⟩

/-- Client 9 has confirmed from its address, and is sent a datagram there. -/
theorem queuedBound_first : QueuedBound (connected.bindUdp peerAddr 9)
    ((connected.bindUdp peerAddr 9).sendUdp 0 9 256 [1]) [9] := by
  have hrun : (acts transformNumberFunction).RunUnder KeepsOthers fresh
      (connected.bindUdp peerAddr 9) :=
    Machine.RunUnder.trans
      (.step (a := .event (.table (.tcpConnection 1 9 77 0))) trivial step_connected)
      (.step (a := .event (.table (.udpData peerAddr confirmation))) trivial step_first)
  have hiff := (queuedBound_iff_announced transformNumberFunction _
    ⟨fresh, ⟨rfl, rfl, rfl, rfl, rfl⟩, hrun⟩).1 0 9 256 [1]
  exact hiff.mpr fun _ => List.mem_append_right _ List.mem_cons_self

/-- Before that it is sent one all the same, to the address 0.0.0.0:0. -/
theorem not_queuedBound_connected :
    ¬ ∀ s, (acts transformNumberFunction).Reach s → ∀ garbage c type data,
      QueuedBound s (s.sendUdp garbage c type data) (s.recipient c) := by
  intro hall
  have hreach : (acts transformNumberFunction).Reach connected :=
    ⟨fresh, ⟨rfl, rfl, rfl, rfl, rfl⟩,
      .step (a := .event (.table (.tcpConnection 1 9 77 0))) trivial step_connected⟩
  obtain ⟨sent, hsent, hbound⟩ := hall connected hreach 0 9 256 [1]
  have hrecipient : connected.recipient 9 = [9] := by decide
  rw [hrecipient] at hbound
  obtain ⟨datagram, rest, hcache, -, -⟩ := List.forall₂_cons_left_iff.mp hbound
  have hempty : connected.udpConnectionCache = [] := by decide
  rw [hempty] at hcache
  cases hcache

end ProjectE.Net.Server
