import ProjectE.Lib.Protocol
import ProjectE.Net.AddrOrder
import ProjectE.Net.Recipients

/-!
# Sessions of clients

The user of a hosting server is told of its clients by the virtual functions it calls. The calls
about one client follow a protocol (`Session.next`), and they tell all there is to know: the phase
they lead to is the one that the tables and `has_udp_connection` have the client in (`session`), and
`numberClients` counts the clients they lead to `bound`.

So it is in every run of events and of calls that send, in any order, in which no client confirms
twice and datagrams come from IPv4 addresses other than the one a client has before it is bound
(`Once`). A second confirmation would be announced again, and the entry it leaves in the cache would
outlive the client.
-/

namespace ProjectE.Net

open Verif Protocol

/-- What a call says about the client it names. -/
inductive ClientCall where
  | onTcpConnect
  | onTcpDisconnect
  | onUdpConnect
  | onPacket (packet : Packet)
deriving DecidableEq, Repr

/-- A callback, and the client it is about. -/
def Callback.about : Callback → ClientCall × Uuid
  | .onTcpConnect client => (.onTcpConnect, client)
  | .onTcpDisconnect client => (.onTcpDisconnect, client)
  | .onUdpConnect client => (.onUdpConnect, client)
  | .onPacket packet client => (.onPacket packet, client)

/-- How far the session of a client has got. -/
inductive Session where
  | unknown
  | connected
  | bound
  | gone
deriving DecidableEq, Repr

/-- Connected once, bound once at most, disconnected once, and packets in between. -/
def Session.next : Session → ClientCall → Option Session
  | .unknown, .onTcpConnect => some .connected
  | .connected, .onUdpConnect => some .bound
  | .connected, .onPacket _ => some .connected
  | .bound, .onPacket _ => some .bound
  | .connected, .onTcpDisconnect => some .gone
  | .bound, .onTcpDisconnect => some .gone
  | _, _ => none

namespace Server

/-- The session of a client, as the tables have it. -/
def session (s : Server) (c : Uuid) : Session :=
  match OrdMap.find Uuid.lt s.clients c with
  | some _ => if s.hasUdpConnection c then .bound else .connected
  | none => if c ∈ s.clientUUIDs then .gone else .unknown

/-- An address that a client does not have by default. -/
def Named (addr : SocketAddr) : Prop := addr.isIpv4 = true ∧ addr ≠ SocketAddr.default

/-- The condition on a step: a confirmation is for a client that was not bound, and datagrams come
from such addresses. -/
def Once (transformNumber : UInt64 → UInt64) (s : Server) : Act → Prop
  | .event (.table event) => BindsOnce transformNumber s event ∧
    ∀ addr data, event = .udpData addr data → Named addr
  | _ => True

/-- The table is right, and so is what is not in it: ids are given out once, and a client that has
an address has an entry in the cache. -/
structure SessionInv (s : Server) : Prop extends TableInv s where
  given : ∀ e ∈ s.clients, e.1 ∈ s.clientUUIDs
  uuids : s.clientUUIDs.Nodup
  bound : ∀ e ∈ s.clients,
    e.2.udpAddr = SocketAddr.default ∨ (e.2.udpAddr, e.1) ∈ s.udpConnectionCache
  named : ∀ e ∈ s.udpConnectionCache, Named e.1

variable {transformNumber : UInt64 → UInt64} {s t : Server} {c : Uuid} {client : Client}

/-! ## What the tables say -/

theorem SessionInv.toClientsInv (h : SessionInv s) : ClientsInv s := ⟨h.clients_sorted, h.given⟩

/-- Nobody is found under the default address. -/
theorem SessionInv.find_default (h : SessionInv s) :
    OrdMap.find SocketAddr.lt s.udpConnectionCache SocketAddr.default = none := by
  cases hfind : OrdMap.find SocketAddr.lt s.udpConnectionCache SocketAddr.default with
  | none => rfl
  | some e =>
    obtain ⟨hmem, hlt, hgt⟩ := OrdMap.find_some hfind
    obtain ⟨hfamily, hne⟩ := h.named e hmem
    exact absurd (SocketAddr.lt_tri hfamily ⟨hlt, hgt⟩) hne

theorem SessionInv.session_of_mem (h : SessionInv s) (hmem : (c, client) ∈ s.clients) :
    s.session c = if client.udpAddr = SocketAddr.default then .connected else .bound := by
  have hfind := OrdMap.find_of_mem Uuid.lt_irrefl h.clients_sorted hmem
  simp only [session, hasUdpConnection, hfind]
  by_cases hdefault : client.udpAddr = SocketAddr.default
  · rw [if_pos hdefault, hdefault, h.find_default]
    rfl
  · have hcache := (h.bound _ hmem).resolve_left hdefault
    rw [if_neg hdefault, OrdMap.find_of_mem SocketAddr.lt_irrefl h.cache_sorted hcache]
    rfl

theorem session_of_not_mem (h : ∀ client, (c, client) ∉ s.clients) :
    s.session c = if c ∈ s.clientUUIDs then .gone else .unknown := by
  cases hfind : OrdMap.find Uuid.lt s.clients c with
  | none => simp only [session, hfind]
  | some e =>
    have hkey : e.1 = c := OrdMap.find_key Uuid.lt_tri hfind
    exact absurd (hkey ▸ (OrdMap.find_some hfind).1) (h e.2)

/-- A client that is not given out is unknown. -/
theorem SessionInv.session_unknown (h : SessionInv s) (hc : c ∉ s.clientUUIDs) :
    s.session c = .unknown := by
  rw [session_of_not_mem fun client hmem => hc (h.given _ hmem), if_neg hc]

/-- The client an entry names is bound. -/
theorem SessionInv.session_of_entry (h : SessionInv s) {e : SocketAddr × Uuid}
    (he : e ∈ s.udpConnectionCache) : s.session e.2 = .bound := by
  obtain ⟨client, hclient, haddr⟩ := h.table e.1 e.2 he
  rw [h.session_of_mem hclient, haddr, if_neg (h.named e he).2]

/-- A current client takes packets. -/
theorem SessionInv.next_onPacket (h : SessionInv s) (hmem : (c, client) ∈ s.clients)
    (packet : Packet) : Session.next (s.session c) (.onPacket packet) = some (s.session c) := by
  rw [h.session_of_mem hmem]
  split <;> rfl

theorem SessionInv.next_onTcpDisconnect (h : SessionInv s) (hmem : (c, client) ∈ s.clients) :
    Session.next (s.session c) .onTcpDisconnect = some .gone := by
  rw [h.session_of_mem hmem]
  split <;> rfl

/-- A session is the same where the client and its address are. -/
theorem SessionInv.session_congr (hs : SessionInv s) (ht : SessionInv t)
    (hclients : ∀ client, (c, client) ∈ t.clients ↔ (c, client) ∈ s.clients)
    (huuids : c ∈ t.clientUUIDs ↔ c ∈ s.clientUUIDs) : t.session c = s.session c := by
  by_cases hmem : ∃ client, (c, client) ∈ s.clients
  · obtain ⟨client, hmem⟩ := hmem
    rw [hs.session_of_mem hmem, ht.session_of_mem ((hclients client).mpr hmem)]
  · have hnot := not_exists.mp hmem
    rw [session_of_not_mem hnot,
      session_of_not_mem fun client hclient => hnot client ((hclients client).mp hclient)]
    simp only [huuids]

/-! ## What an event keeps -/

theorem SessionInv.onTcpConnection (h : SessionInv s) (garbage : UInt16) (number : UInt64)
    (id : Uuid) (hc : c ∉ s.clientUUIDs) :
    SessionInv (s.onTcpConnection garbage c number id) where
  toTableInv := h.toTableInv.onTcpConnection garbage c number id
  given := (h.toClientsInv.onTcpConnection garbage number id hc).given
  uuids := List.nodup_cons.mpr ⟨hc, h.uuids⟩
  bound e he := by
    rcases (OrdMap.mem_insert_of_none (h.toClientsInv.find_none hc)).mp he with rfl | he
    · exact .inl rfl
    · exact h.bound e he
  named := h.named

/-- What a client that leaves takes along. -/
def leave (s : Server) (c : Uuid) (client : Client) : Server :=
  { s.call (.onTcpDisconnect c) with
    udpConnectionCache := OrdMap.erase SocketAddr.lt s.udpConnectionCache client.udpAddr
    clients := OrdMap.erase Uuid.lt s.clients c }

theorem onTcpDisconnection_eq_leave {id : Uuid} (hof : s.clientOf id = some (c, client)) :
    s.onTcpDisconnection id = s.leave c client := by
  simp only [onTcpDisconnection, hof]
  rfl

theorem SessionInv.leave (h : SessionInv s) {id : Uuid}
    (hof : s.clientOf id = some (c, client)) : SessionInv (s.leave c client) where
  toTableInv := onTcpDisconnection_eq_leave hof ▸ h.toTableInv.onTcpDisconnection id
  given e he := h.given e (OrdMap.mem_of_mem_erase he)
  uuids := h.uuids
  bound e he := by
    obtain ⟨hold, hne⟩ := (mem_erase_clients h.toClientsInv hof).mp he
    refine (h.bound e hold).imp_right fun hcache => ?_
    have hclient := List.mem_of_find?_eq_some hof
    -- the entry erased, if any, is the one of the client that leaves
    rcases h.bound _ hclient with hdefault | hentry
    · show _ ∈ OrdMap.erase SocketAddr.lt s.udpConnectionCache client.udpAddr
      rw [show client.udpAddr = SocketAddr.default from hdefault,
        OrdMap.erase_of_none h.find_default]
      exact hcache
    · have hfind := OrdMap.find_of_mem SocketAddr.lt_irrefl h.cache_sorted hentry
      refine (OrdMap.mem_erase_iff SocketAddr.lt_irrefl h.cache_sorted hfind).mpr ⟨hcache, ?_⟩
      intro heq
      exact hne (congrArg Prod.snd heq)
  named e he := h.named e (OrdMap.mem_of_mem_erase he)

/-- The client of an accepted confirmation has no address yet. -/
theorem SessionInv.default_of_confirms (h : SessionInv s) {data : List UInt8}
    (hconfirms : Confirms transformNumber s data c)
    (hfree : ∀ addr, (addr, c) ∉ s.udpConnectionCache) :
    ∃ client, (c, client) ∈ s.clients ∧ client.udpAddr = SocketAddr.default := by
  obtain ⟨client, hclient⟩ := hconfirms.mem_clients
  exact ⟨client, hclient, (h.bound _ hclient).resolve_right (hfree _)⟩

theorem SessionInv.bindUdp (h : SessionInv s) {addr : SocketAddr} {data : List UInt8}
    (hfind : OrdMap.find SocketAddr.lt s.udpConnectionCache addr = none)
    (hconfirms : Confirms transformNumber s data c)
    (hfree : ∀ addr, (addr, c) ∉ s.udpConnectionCache) (hnamed : Named addr) :
    SessionInv (s.bindUdp addr c) where
  toTableInv := by
    obtain ⟨_, entry, -, -, hentry, -⟩ := confirms_iff.mp hconfirms
    exact h.toTableInv.bindUdp hfind hentry hfree
  given e he := by
    obtain ⟨client, hold⟩ := (mem_clients_bindUdp_iff hconfirms e.1).mp ⟨e.2, he⟩
    exact h.given (e.1, client) hold
  uuids := h.uuids
  bound e he := by
    by_cases heq : e.1 = c
    · obtain ⟨pre, post, client, hclients, hbound⟩ := clients_bindUdp addr hconfirms
      have hmem : (c, { client with udpAddr := addr }) ∈ (s.bindUdp addr c).clients := by
        rw [hbound]
        exact List.mem_append_right _ List.mem_cons_self
      have hsorted := h.clients_sorted.modify c fun client : Client =>
        { client with udpAddr := addr }
      have hvalue : e.2 = { client with udpAddr := addr } :=
        OrdMap.value_unique Uuid.lt_irrefl hsorted (heq ▸ he) hmem
      rw [hvalue, heq]
      exact .inr ((OrdMap.mem_insert_of_none hfind).mpr (.inl rfl))
    · exact (h.bound e ((mem_clients_bindUdp_of_ne hconfirms heq).mp he)).imp_right
        fun hcache => (OrdMap.mem_insert_of_none hfind).mpr (.inr hcache)
  named e he := by
    rcases (OrdMap.mem_insert_of_none hfind).mp he with rfl | he
    · exact hnamed
    · exact h.named e he

/-- The tables are all that the invariant is about. -/
theorem SessionInv.congr (h : SessionInv s) (hclients : t.clients = s.clients)
    (hcache : t.udpConnectionCache = s.udpConnectionCache) (huuids : t.clientUUIDs = s.clientUUIDs)
    (hconfirmed : t.udpConfirmed = s.udpConfirmed) : SessionInv t where
  clients_sorted := hclients ▸ h.clients_sorted
  cache_sorted := hcache ▸ h.cache_sorted
  table := by
    unfold SessionTable
    rw [hclients, hcache]
    exact h.table
  hosts := hconfirmed.trans h.hosts
  given := by
    rw [hclients, huuids]
    exact h.given
  uuids := huuids ▸ h.uuids
  bound := by
    rw [hclients, hcache]
    exact h.bound
  named := hcache ▸ h.named

/-! ## What an event tells -/

/-- From `s` to `t`, and every session by the calls that were made. -/
structure Tells (s t : Server) : Prop where
  inv : SessionInv t
  calls : ∃ new, t.calls = s.calls ++ new ∧
    ∀ c, run Session.next (s.session c) (eventsOf c (new.map Callback.about)) = some (t.session c)

/-- Nothing was called. -/
theorem Tells.silent (ht : SessionInv t) (hcalls : t.calls = s.calls)
    (hsession : ∀ c, t.session c = s.session c) : Tells s t := by
  refine ⟨ht, [], hcalls.trans (List.append_nil _).symm, fun c => ?_⟩
  rw [hsession c]
  rfl

/-- One call was made, and only the session of the client it names has changed. -/
theorem Tells.one (ht : SessionInv t) {callback : Callback} {call : ClientCall}
    (hcalls : t.calls = s.calls ++ [callback]) (habout : callback.about = (call, c))
    (hnext : Session.next (s.session c) call = some (t.session c))
    (hothers : ∀ d, d ≠ c → t.session d = s.session d) : Tells s t := by
  refine ⟨ht, [callback], hcalls, fun d => ?_⟩
  rw [List.map_singleton, habout]
  by_cases heq : d = c
  · subst heq
    rw [eventsOf_cons_self, eventsOf_nil, run_cons, hnext]
    rfl
  · rw [eventsOf_cons_ne (Ne.symm heq), eventsOf_nil, run_nil, hothers d heq]

theorem tells_of_delivered {event : Event} (hs : SessionInv s)
    (honce : Once transformNumber s (.event event))
    (h : Delivered transformNumber s event t) : Tells s t := by
  cases h with
  | @connection id c number garbage hc =>
    have ht := hs.onTcpConnection garbage number id hc
    have hclients : ∀ e, e ∈ (s.onTcpConnection garbage c number id).clients ↔
        e = (c, Client.new id number) ∨ e ∈ s.clients :=
      fun e => OrdMap.mem_insert_of_none (hs.toClientsInv.find_none hc)
    refine .one ht rfl rfl ?_ fun d hd => hs.session_congr ht (fun client => ?_) ?_
    · rw [hs.session_unknown hc, ht.session_of_mem ((hclients _).mpr (.inl rfl))]
      rfl
    · rw [hclients, Prod.mk.injEq, or_iff_right fun heq => hd heq.1]
    · exact List.mem_cons.trans (or_iff_right hd)
  | stranger => exact .silent hs rfl fun _ => rfl
  | @disconnection id c client hof =>
    have ht := hs.leave hof
    have hmem := List.mem_of_find?_eq_some hof
    have hgone : (s.leave c client).session c = .gone := by
      rw [session_of_not_mem fun client hclient =>
        ((mem_erase_clients hs.toClientsInv hof).mp hclient).2 rfl]
      exact if_pos (hs.given _ hmem)
    refine .one ht rfl rfl ?_ fun d hd => hs.session_congr ht (fun client => ?_) Iff.rfl
    · exact (hs.next_onTcpDisconnect hmem).trans (congrArg some hgone.symm)
    · exact (mem_erase_clients hs.toClientsInv hof).trans (and_iff_left hd)
  | dropped => exact .silent hs rfl fun _ => rfl
  | @datagram addr data e packet hfind =>
    have ht : SessionInv (s.call (.onPacket packet e.2)) := hs.congr rfl rfl rfl rfl
    obtain ⟨client, hclient, -⟩ := hs.table e.1 e.2 (OrdMap.find_some hfind).1
    exact .one ht rfl rfl (hs.next_onPacket hclient packet) fun _ _ => rfl
  | @bound addr data c hnot hconfirms =>
    obtain ⟨honce, hnamed⟩ := honce
    have hfind := find_none_of_not_takesPackets hnot
    have hfree := honce hfind c hconfirms
    have ht := hs.bindUdp hfind hconfirms hfree (hnamed addr data rfl)
    obtain ⟨client, hclient, hdefault⟩ := hs.default_of_confirms hconfirms hfree
    have hentry : (addr, c) ∈ (s.bindUdp addr c).udpConnectionCache :=
      (OrdMap.mem_insert_of_none hfind).mpr (.inl rfl)
    refine .one ht rfl rfl ?_ fun d hd =>
      hs.session_congr ht (fun client => mem_clients_bindUdp_of_ne hconfirms hd) Iff.rfl
    rw [hs.session_of_mem hclient, if_pos hdefault, ht.session_of_entry hentry]
    rfl
  | answered => exact .silent (hs.congr rfl rfl rfl rfl) rfl fun _ => rfl
  | @packet id buffer garbage c client packet hof =>
    have ht : SessionInv (s.call (.onPacket packet c)) := hs.congr rfl rfl rfl rfl
    exact .one ht rfl rfl (hs.next_onPacket (List.mem_of_find?_eq_some hof) packet) fun _ _ => rfl

/-- Sending tells nothing. -/
theorem tells_of_onlyQueues (hs : SessionInv s) (h : OnlyQueues s t) : Tells s t := by
  have ht := hs.congr h.clients h.udpConnectionCache h.clientUUIDs h.udpConfirmed
  refine .silent ht h.calls fun c => hs.session_congr ht (fun client => ?_) ?_
  · rw [h.clients]
  · rw [h.clientUUIDs]

theorem tells_of_act {a : Act} (hs : SessionInv s) (honce : Once transformNumber s a)
    (h : s.act transformNumber a = some t) : Tells s t := by
  cases a with
  | event event => exact tells_of_delivered hs honce (delivered_of_deliver h)
  | sendTcp garbage c type data =>
    cases h
    exact tells_of_onlyQueues hs (onlyQueues_sendTcp garbage s c type data)
  | sendUdp garbage c type data =>
    cases h
    exact tells_of_onlyQueues hs (onlyQueues_sendUdp garbage s c type data)
  | sendTcpAll garbage type data =>
    cases h
    exact tells_of_onlyQueues hs (onlyQueues_sendTcpAll garbage s type data)
  | sendUdpAll garbage type data =>
    cases h
    exact tells_of_onlyQueues hs (onlyQueues_sendUdpAll garbage s type data)

/-! ## What the calls tell -/

/-- The phase the calls about a client lead to. -/
def told (s : Server) (c : Uuid) : Option Session :=
  run Session.next .unknown (eventsOf c (s.calls.map Callback.about))

theorem sessionInv_of_begins (h : Begins false s) :
    SessionInv s ∧ ∀ c, s.told c = some (s.session c) := by
  obtain ⟨hclients, hcache, huuids, hcalls, hconfirmed⟩ := h
  have hnone : ∀ c client, (c, client) ∉ s.clients := by
    intro c client hmem
    rw [hclients] at hmem
    cases hmem
  refine ⟨⟨⟨?_, ?_, ?_, hconfirmed⟩, ?_, ?_, ?_, ?_⟩, fun c => ?_⟩
  · rw [hclients]
    exact List.Pairwise.nil
  · rw [hcache]
    exact List.Pairwise.nil
  · intro addr c hmem
    rw [hcache] at hmem
    cases hmem
  · exact fun e he => absurd he (hnone e.1 e.2)
  · rw [huuids]
    exact List.nodup_nil
  · exact fun e he => absurd he (hnone e.1 e.2)
  · intro e he
    rw [hcache] at he
    cases he
  · rw [session_of_not_mem (hnone c), huuids, if_neg List.not_mem_nil, told, hcalls]
    rfl

theorem sessionInv_of_reach
    (h : (acts transformNumber).ReachUnder (Once transformNumber) s) :
    SessionInv s ∧ ∀ c, s.told c = some (s.session c) := by
  refine h.invariant (I := fun s => SessionInv s ∧ ∀ c, s.told c = some (s.session c))
    (fun s hs => sessionInv_of_begins hs) ?_
  intro s a t ⟨hs, htold⟩ honce hstep
  obtain ⟨ht, new, hcalls, hnew⟩ := tells_of_act hs honce hstep
  refine ⟨ht, fun c => ?_⟩
  have hbefore := htold c
  unfold told at hbefore ⊢
  rw [hcalls, List.map_append, eventsOf_append, run_append, hbefore]
  exact hnew c

/-- Who has an entry of the cache is bound, and the other way round. -/
theorem SessionInv.session_eq_bound_iff (h : SessionInv s) :
    s.session c = .bound ↔ c ∈ s.udpConnectionCache.map (·.2) := by
  constructor
  · intro hbound
    by_cases hmem : ∃ client, (c, client) ∈ s.clients
    · obtain ⟨client, hmem⟩ := hmem
      rw [h.session_of_mem hmem] at hbound
      split at hbound
      · cases hbound
      next hne => exact List.mem_map.mpr ⟨_, (h.bound _ hmem).resolve_left hne, rfl⟩
    · rw [session_of_not_mem (not_exists.mp hmem)] at hbound
      split at hbound <;> cases hbound
  · intro hmem
    obtain ⟨e, he, rfl⟩ := List.mem_map.mp hmem
    exact h.session_of_entry he

theorem SessionInv.numberClients_eq (h : SessionInv s) :
    s.numberClients = s.clientUUIDs.countP fun c => s.session c = .bound := by
  have hnodup : (s.udpConnectionCache.map (·.2)).Nodup :=
    List.pairwise_map.mpr h.pairwise_client
  have hperm : (s.udpConnectionCache.map (·.2)).Perm
      (s.clientUUIDs.filter fun c => s.session c = .bound) := by
    refine (List.perm_ext_iff_of_nodup hnodup (h.uuids.filter _)).mpr fun c => ?_
    rw [List.mem_filter, decide_eq_true_eq, h.session_eq_bound_iff]
    refine ⟨fun hmem => ⟨?_, hmem⟩, fun hmem => hmem.2⟩
    obtain ⟨e, he, rfl⟩ := List.mem_map.mp hmem
    obtain ⟨client, hclient, -⟩ := h.table e.1 e.2 he
    exact h.given _ hclient
  rw [List.countP_eq_length_filter, ← hperm.length_eq, List.length_map]
  rfl

/-- **The calls tell the sessions**: in every state of every run in which no client confirms twice,
and datagrams come from addresses that are not the default one, the calls made about any client
follow the protocol and lead to the phase that the tables have it in, and `number_clients` is the
number of uuids given out whose calls lead to `bound`. -/
theorem calls_tell_sessions
    (h : (acts transformNumber).ReachUnder (Once transformNumber) s) :
    (∀ c, s.told c = some (s.session c)) ∧
      s.numberClients = s.clientUUIDs.countP fun c => s.told c = some .bound := by
  obtain ⟨hs, htold⟩ := sessionInv_of_reach h
  refine ⟨htold, ?_⟩
  rw [hs.numberClients_eq]
  simp only [htold, Option.some.injEq]

/-- Client 9 connects, confirms and leaves. -/
theorem calls_tell_sessions_left : ∃ s : Server,
    s.calls = [.onTcpConnect 9, .onUdpConnect 9, .onTcpDisconnect 9] ∧
      (∀ c, s.told c = some (s.session c)) ∧ s.session 9 = .gone ∧
      s.numberClients = s.clientUUIDs.countP fun c => s.told c = some .bound := by
  have hconnected :
      Once transformNumberFunction fresh (.event (.table (.tcpConnection 1 9 77 0))) :=
    ⟨trivial, fun _ _ => Label.noConfusion⟩
  have hconfirmed : Once transformNumberFunction connected
      (.event (.table (.udpData peerAddr confirmation))) := by
    refine ⟨fun _ c _ addr hmem => ?_, fun addr data heq => ?_⟩
    · cases hmem
    · cases heq
      exact ⟨rfl, by decide⟩
  have hleft : Once transformNumberFunction (connected.bindUdp peerAddr 9)
      (.event (.table (.tcpDisconnection 1))) := ⟨trivial, fun _ _ => Label.noConfusion⟩
  have hrun : (acts transformNumberFunction).RunUnder (Once transformNumberFunction) fresh
      ((connected.bindUdp peerAddr 9).onTcpDisconnection 1) :=
    ((Machine.RunUnder.step hconnected step_connected).trans (.step hconfirmed step_first)).trans
      (.step hleft rfl)
  obtain ⟨htold, hcount⟩ := calls_tell_sessions ⟨fresh, ⟨rfl, rfl, rfl, rfl, rfl⟩, hrun⟩
  exact ⟨_, by decide +kernel, htold, by decide +kernel, hcount⟩

end Server

end ProjectE.Net
