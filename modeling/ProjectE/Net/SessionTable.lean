import Mathlib.Data.List.Perm.Subperm
import ProjectE.Lib.Transition
import ProjectE.Net.Handshake

/-!
# The UDP session table

A hosting server as a machine over the three events that touch its session table, and the invariant
that ties the cache of UDP addresses to the client records: every cached address is the address of
the current client it names (`SessionTable`).

A confirmation is not spent when it is accepted. The same bytes from a second address bind the
client again, and the entry of the first address stays behind. Where every accepted confirmation is
for a client without an entry (`BindsOnce`), the invariant holds in every state reached.
-/

namespace ProjectE.Net.Server

open Verif

/-- The events that touch the session table. The drawn uuid, the drawn number and the leftover
memory of a packet come with the event. -/
inductive Label where
  | tcpConnection (id clientUuid : Uuid) (number : UInt64) (garbage : UInt16)
  | tcpDisconnection (id : Uuid)
  | udpData (addr : SocketAddr) (data : List UInt8)
deriving DecidableEq, Repr

section Machine

variable (transformNumber : UInt64 → UInt64)

/-- What the handling of an event does to the server. `none`: the generator would draw an id it has
drawn before, or the end of the cache is dereferenced. -/
def step (s : Server) : Label → Option Server
  | .tcpConnection id clientUuid number garbage =>
    if clientUuid ∈ s.clientUUIDs then none
    else some (s.onTcpConnection garbage clientUuid number id)
  | .tcpDisconnection id => some (s.onTcpDisconnection id)
  | .udpData addr data => s.onUdpData transformNumber addr data

/-- A hosting server without clients. -/
def Hosts (s : Server) : Prop :=
  s.clients = [] ∧ s.udpConnectionCache = [] ∧ s.clientUUIDs = [] ∧ s.udpConfirmed = false

/-- The runs of a hosting server, from one that has seen nobody. -/
def machine : Machine Server Label where
  init := Hosts
  step := step transformNumber

/-- The condition on a step: a confirmation that would be accepted is for a client without an entry
in the cache. -/
def BindsOnce (s : Server) : Label → Prop
  | .udpData addr data => OrdMap.find SocketAddr.lt s.udpConnectionCache addr = none →
      ∀ c, Confirms transformNumber s data c → ∀ addr', (addr', c) ∉ s.udpConnectionCache
  | _ => True

end Machine

/-- Every cached address is the address of the current client it names. -/
def SessionTable (s : Server) : Prop :=
  ∀ addr c, (addr, c) ∈ s.udpConnectionCache →
    ∃ client, (c, client) ∈ s.clients ∧ client.udpAddr = addr

/-- The invariant: both maps are in order, and the session table is right. It is of a hosting
server, which is never confirmed itself. -/
structure TableInv (s : Server) : Prop where
  clients_sorted : OrdMap.Sorted Uuid.lt s.clients
  cache_sorted : OrdMap.Sorted SocketAddr.lt s.udpConnectionCache
  table : SessionTable s
  hosts : s.udpConfirmed = false

variable {transformNumber : UInt64 → UInt64} {s : Server}

/-! ## What each event keeps -/

theorem TableInv.onTcpConnection (h : TableInv s) (garbage : UInt16) (clientUuid : Uuid)
    (number : UInt64) (id : Uuid) :
    TableInv (s.onTcpConnection garbage clientUuid number id) where
  clients_sorted := h.clients_sorted.insert Uuid.lt_trans clientUuid _
  cache_sorted := h.cache_sorted
  table addr c hmem := by
    obtain ⟨client, hclient, haddr⟩ := h.table addr c hmem
    exact ⟨client, OrdMap.mem_insert_of_mem hclient, haddr⟩
  hosts := h.hosts

/-- The client of a connection is found under its own key. -/
theorem find_clientOf (h : TableInv s) {id c : Uuid} {client : Client}
    (hof : s.clientOf id = some (c, client)) :
    OrdMap.find Uuid.lt s.clients c = some (c, client) :=
  OrdMap.find_of_mem Uuid.lt_irrefl h.clients_sorted (List.mem_of_find?_eq_some hof)

/-- What a disconnection leaves of the two maps. -/
theorem onTcpDisconnection_maps {id c : Uuid} {client : Client}
    (hof : s.clientOf id = some (c, client)) :
    (s.onTcpDisconnection id).clients = OrdMap.erase Uuid.lt s.clients c ∧
      (s.onTcpDisconnection id).udpConnectionCache =
        OrdMap.erase SocketAddr.lt s.udpConnectionCache client.udpAddr ∧
      (s.onTcpDisconnection id).udpConfirmed = s.udpConfirmed := by
  simp only [onTcpDisconnection, hof]
  exact ⟨rfl, rfl, rfl⟩

/-- The entry a disconnection erases from the cache is the client's, if it has one. -/
theorem not_mem_cache_of_disconnected (h : TableInv s) {id c : Uuid} {client : Client}
    (hof : s.clientOf id = some (c, client)) :
    ∀ e ∈ (s.onTcpDisconnection id).udpConnectionCache, e.2 ≠ c := by
  rintro ⟨addr, c'⟩ hmem rfl
  rw [(onTcpDisconnection_maps hof).2.1] at hmem
  obtain ⟨client', hclient', haddr⟩ := h.table addr c' (OrdMap.mem_of_mem_erase hmem)
  -- the record that the entry points to is the one the disconnection found
  have heq : client' = client :=
    OrdMap.value_unique Uuid.lt_irrefl h.clients_sorted hclient' (List.mem_of_find?_eq_some hof)
  subst heq
  have hfind : OrdMap.find SocketAddr.lt s.udpConnectionCache client'.udpAddr =
      some (client'.udpAddr, c') :=
    OrdMap.find_of_mem SocketAddr.lt_irrefl h.cache_sorted
      (haddr ▸ OrdMap.mem_of_mem_erase hmem)
  have hne := ((OrdMap.mem_erase_iff SocketAddr.lt_irrefl h.cache_sorted hfind).mp hmem).2
  exact hne (by rw [haddr])

theorem TableInv.onTcpDisconnection (h : TableInv s) (id : Uuid) :
    TableInv (s.onTcpDisconnection id) := by
  cases hof : s.clientOf id with
  | none =>
    have heq : s.onTcpDisconnection id = s := by simp only [Server.onTcpDisconnection, hof]
    rwa [heq]
  | some e =>
    obtain ⟨c, client⟩ := e
    have hgone := not_mem_cache_of_disconnected h hof
    obtain ⟨hclients, hcache, hhosts⟩ := onTcpDisconnection_maps hof
    refine ⟨?_, ?_, ?_, hhosts.trans h.hosts⟩
    · rw [hclients]
      exact h.clients_sorted.erase c
    · rw [hcache]
      exact h.cache_sorted.erase client.udpAddr
    · intro addr c' hmem
      have hold := hmem
      rw [hcache] at hold
      obtain ⟨client', hclient', haddr⟩ := h.table addr c' (OrdMap.mem_of_mem_erase hold)
      refine ⟨client', ?_, haddr⟩
      rw [hclients, OrdMap.mem_erase_iff Uuid.lt_irrefl h.clients_sorted (find_clientOf h hof)]
      refine ⟨hclient', ?_⟩
      intro heq
      cases heq
      exact hgone _ hmem rfl

/-- Binding a client without an entry. -/
theorem TableInv.bindUdp (h : TableInv s) {addr : SocketAddr} {c : Uuid}
    {entry : Uuid × Client} (haddr : OrdMap.find SocketAddr.lt s.udpConnectionCache addr = none)
    (hentry : OrdMap.find Uuid.lt s.clients c = some entry)
    (hfree : ∀ addr', (addr', c) ∉ s.udpConnectionCache) : TableInv (s.bindUdp addr c) := by
  have hkey : entry.1 = c := OrdMap.find_key Uuid.lt_tri hentry
  have hmod := fun d : Uuid × Client =>
    OrdMap.mem_modify (f := fun client : Client => { client with udpAddr := addr }) (d := d) hentry
  refine ⟨h.clients_sorted.modify c fun client : Client => { client with udpAddr := addr },
    h.cache_sorted.insert SocketAddr.lt_trans addr c, ?_, h.hosts⟩
  intro addr' c' hmem
  rcases (OrdMap.mem_insert_of_none haddr).mp hmem with hnew | hold
  · cases hnew
    exact ⟨_, hkey ▸ (hmod entry).1, rfl⟩
  · obtain ⟨client, hclient, heq⟩ := h.table addr' c' hold
    refine ⟨client, (hmod (c', client)).2 hclient ?_, heq⟩
    rintro rfl
    exact hfree addr' (hkey ▸ hold)

theorem TableInv.onUdpData (h : TableInv s) {s' : Server} {addr : SocketAddr} {data : List UInt8}
    (honce : BindsOnce transformNumber s (.udpData addr data))
    (hs : s.onUdpData transformNumber addr data = some s') : TableInv s' := by
  cases hfind : OrdMap.find SocketAddr.lt s.udpConnectionCache addr with
  | some e =>
    simp only [Server.onUdpData, hfind, Option.isSome_some, Bool.true_or, if_true] at hs
    split at hs
    · cases hs
      exact h
    · cases hs
      exact ⟨h.clients_sorted, h.cache_sorted, h.table, h.hosts⟩
  | none =>
    rw [onUdpData_of_find_none h.hosts hfind] at hs
    cases hs
    by_cases hex : ∃ c, Confirms transformNumber s data c
    · obtain ⟨c, hc⟩ := hex
      rw [handleUdpConnectionRequest_of_confirms hc]
      obtain ⟨_, entry, -, -, hentry, -⟩ := confirms_iff.mp hc
      exact h.bindUdp hfind hentry (honce hfind c hc)
    · rw [handleUdpConnectionRequest_of_not fun c hc => hex ⟨c, hc⟩]
      exact h

theorem tableInv (h : (machine transformNumber).ReachUnder (BindsOnce transformNumber) s) :
    TableInv s := by
  refine h.invariant (I := TableInv) ?_ ?_
  · rintro s ⟨hclients, hcache, -, hhosts⟩
    refine ⟨?_, ?_, ?_, hhosts⟩
    · rw [hclients]
      exact List.Pairwise.nil
    · rw [hcache]
      exact List.Pairwise.nil
    · intro addr c hmem
      rw [hcache] at hmem
      cases hmem
  · intro s a t hs honce hstep
    cases a with
    | tcpConnection id clientUuid number garbage =>
      simp only [machine, step] at hstep
      split at hstep
      · cases hstep
      · cases hstep
        exact hs.onTcpConnection garbage clientUuid number id
    | tcpDisconnection id =>
      cases hstep
      exact hs.onTcpDisconnection id
    | udpData addr data => exact hs.onUdpData honce hstep

/-! ## What follows from the table -/

/-- Two entries of one client are the same entry. -/
theorem TableInv.entry_unique (h : TableInv s) {e e' : SocketAddr × Uuid}
    (he : e ∈ s.udpConnectionCache) (he' : e' ∈ s.udpConnectionCache) (heq : e.2 = e'.2) :
    e.1 = e'.1 := by
  obtain ⟨client, hclient, haddr⟩ := h.table e.1 e.2 he
  obtain ⟨client', hclient', haddr'⟩ := h.table e'.1 e'.2 he'
  rw [heq] at hclient
  rw [← haddr, ← haddr', OrdMap.value_unique Uuid.lt_irrefl h.clients_sorted hclient hclient']

/-- The clients named by the entries are pairwise different. -/
theorem TableInv.pairwise_client (h : TableInv s) :
    s.udpConnectionCache.Pairwise fun e e' => e.2 ≠ e'.2 := by
  refine List.Pairwise.imp_of_mem (fun he he' hlt heq => ?_) h.cache_sorted
  rw [h.entry_unique he he' heq, SocketAddr.lt_irrefl] at hlt
  cases hlt

theorem TableInv.entries_le_one (h : TableInv s) (c : Uuid) :
    (s.udpConnectionCache.filter fun e => e.2 = c).length ≤ 1 := by
  have hpair := h.pairwise_client.filter fun e => decide (e.2 = c)
  have hall : ∀ e ∈ s.udpConnectionCache.filter fun e => decide (e.2 = c), e.2 = c :=
    fun e he => of_decide_eq_true (List.mem_filter.mp he).2
  match hl : s.udpConnectionCache.filter fun e => decide (e.2 = c) with
  | [] =>
    rw [hl]
    exact Nat.zero_le _
  | [_] =>
    rw [hl]
    exact Nat.le_refl _
  | e :: e' :: _ =>
    rw [hl] at hpair hall
    have hne := (List.pairwise_cons.mp hpair).1 e' List.mem_cons_self
    rw [hall e List.mem_cons_self, hall e' (List.mem_cons_of_mem _ List.mem_cons_self)] at hne
    exact absurd rfl hne

theorem TableInv.numberClients_le (h : TableInv s) : s.numberClients ≤ s.clients.length := by
  have hnodup : (s.udpConnectionCache.map (·.2)).Nodup :=
    List.pairwise_map.mpr h.pairwise_client
  have hsub : s.udpConnectionCache.map (·.2) ⊆ s.clients.map (·.1) := by
    intro c hc
    obtain ⟨e, he, rfl⟩ := List.mem_map.mp hc
    obtain ⟨client, hclient, -⟩ := h.table e.1 e.2 he
    exact List.mem_map.mpr ⟨_, hclient, rfl⟩
  have hle := (hnodup.subperm hsub).length_le
  rwa [List.length_map, List.length_map] at hle

/-- **The session table is right as long as no client is bound twice**: in every state of every run
in which each accepted confirmation is for a client without an entry, each entry names a current
client whose address it is; so no client has two entries, there are no more entries than clients,
and disconnecting a client leaves no entry that names it. -/
theorem sessionTable_of_bindsOnce
    (h : (machine transformNumber).ReachUnder (BindsOnce transformNumber) s) :
    SessionTable s ∧
      (∀ c, (s.udpConnectionCache.filter fun e => e.2 = c).length ≤ 1) ∧
      s.numberClients ≤ s.clients.length ∧
      ∀ id c, (s.clientOf id).map (·.1) = some c →
        ∀ e ∈ (s.onTcpDisconnection id).udpConnectionCache, e.2 ≠ c := by
  have hinv := tableInv h
  refine ⟨hinv.table, hinv.entries_le_one, hinv.numberClients_le, ?_⟩
  intro id c hid
  obtain ⟨⟨c', client⟩, hof, rfl⟩ := Option.map_eq_some_iff.mp hid
  exact not_mem_cache_of_disconnected hinv hof

/-! ## One client, two addresses -/

/-- A hosting server without clients. -/
def fresh : Server where
  toBaseServer := BaseServer.hosting ∅
  clients := []
  udpConnectionCache := []
  clientUUIDs := []
  calls := []

/-- It accepted connection 1: client 9, with the number 77. -/
def connected : Server := fresh.onTcpConnection 0 9 77 1

/-- The client's confirmation. -/
def confirmation : List UInt8 := (responsePacket 0 9 (transformNumberFunction 77)).serialize

/-- Another address, from which the same confirmation arrives. -/
def secondAddr : SocketAddr := .v4 ⟨⟨#v[10, 0, 0, 2]⟩, 4000⟩

theorem step_connected : (machine transformNumberFunction).step fresh (.tcpConnection 1 9 77 0) =
    some connected := rfl

/-- From an address the cache does not find, the confirmation binds. -/
theorem step_confirmation {addr clientAddr : SocketAddr} (hhosts : s.udpConfirmed = false)
    (haddr : OrdMap.find SocketAddr.lt s.udpConnectionCache addr = none)
    (hentry : OrdMap.find Uuid.lt s.clients 9 = some (9, ⟨1, clientAddr, 77⟩)) :
    (machine transformNumberFunction).step s (.udpData addr confirmation) =
      some (s.bindUdp addr 9) := by
  have hconfirms := confirms_responsePacket transformNumberFunction 0 hentry
  simp only [machine, step, confirmation]
  rw [onUdpData_of_find_none hhosts haddr, handleUdpConnectionRequest_of_confirms hconfirms]

theorem step_first : (machine transformNumberFunction).step connected
    (.udpData peerAddr confirmation) = some (connected.bindUdp peerAddr 9) :=
  step_confirmation rfl rfl rfl

theorem step_second : (machine transformNumberFunction).step (connected.bindUdp peerAddr 9)
    (.udpData secondAddr confirmation) =
      some ((connected.bindUdp peerAddr 9).bindUdp secondAddr 9) :=
  step_confirmation rfl (by decide) rfl

/-- After the first confirmation the table has the one entry. -/
theorem sessionTable_first : SessionTable (connected.bindUdp peerAddr 9) := by
  have hrun : (machine transformNumberFunction).RunUnder (BindsOnce transformNumberFunction) fresh
      (connected.bindUdp peerAddr 9) := by
    refine Machine.RunUnder.trans (.step (a := .tcpConnection 1 9 77 0) trivial step_connected)
      (.step ?_ step_first)
    intro _ c _ addr' hmem
    cases hmem
  exact (sessionTable_of_bindsOnce ⟨fresh, ⟨rfl, rfl, rfl, rfl⟩, hrun⟩).1

/-- The same confirmation from a second address leaves the entry of the first behind. -/
theorem not_sessionTable_second :
    ¬ ∀ s, (machine transformNumberFunction).Reach s → SessionTable s := by
  intro hall
  have hreach : (machine transformNumberFunction).Reach
      ((connected.bindUdp peerAddr 9).bindUdp secondAddr 9) :=
    ⟨fresh, ⟨rfl, rfl, rfl, rfl⟩, Machine.RunUnder.trans (.step trivial step_connected)
      (Machine.RunUnder.trans (.step trivial step_first) (.step trivial step_second))⟩
  obtain ⟨client, hclient, haddr⟩ := hall _ hreach peerAddr 9 (by decide)
  have hclients : ((connected.bindUdp peerAddr 9).bindUdp secondAddr 9).clients =
      [(9, ⟨1, secondAddr, 77⟩)] := by decide
  rw [hclients, List.mem_singleton] at hclient
  cases hclient
  exact absurd haddr (by decide)

end ProjectE.Net.Server
