import ProjectE.Net.Delivery

/-!
# What a binding is worth

Two laws about clients bound to a UDP address, over every run of deliveries.

A confirmation can be replayed: the number sent to a client is not spent when its confirmation is
accepted, and the addresses that are not in the cache are exactly those a copy may come from. So a
binding lasts as long as no such copy arrives (`Unreplayed`), and every such copy makes it anew
(`sameBinding_iff`).

The client a datagram is handed to is the one the cache names, and the cache is emptied by the
address in the client's record only. So it names a current client as long as every client that
leaves has no other entry (`LeavesClean`). A peer that connected has no cache at all: there every
complete packet is handed to whatever stands behind the end of it.
-/

namespace ProjectE.Net.Server

open Verif

variable {transformNumber : UInt64 → UInt64} {confirmed : Bool} {s t : Server} {c : Uuid}

/-! ## Frame lemmas -/

/-- The client a confirmation names is a current one. -/
theorem Confirms.mem_clients {data : List UInt8} (h : Confirms transformNumber s data c) :
    ∃ client, (c, client) ∈ s.clients := by
  obtain ⟨_, entry, -, -, hfind, -⟩ := confirms_iff.mp h
  have hkey : entry.1 = c := OrdMap.find_key Uuid.lt_tri hfind
  exact ⟨entry.2, hkey ▸ (OrdMap.find_some hfind).1⟩

/-- Binding rewrites the record of its client and no other. -/
theorem clients_bindUdp {data : List UInt8} (addr : SocketAddr)
    (h : Confirms transformNumber s data c) :
    ∃ pre post client, s.clients = pre ++ (c, client) :: post ∧
      (s.bindUdp addr c).clients = pre ++ (c, { client with udpAddr := addr }) :: post := by
  obtain ⟨_, entry, -, -, hfind, -⟩ := confirms_iff.mp h
  have hkey : entry.1 = c := OrdMap.find_key Uuid.lt_tri hfind
  obtain ⟨pre, post, hm, hmod⟩ :=
    OrdMap.modify_of_some (f := fun client : Client => { client with udpAddr := addr }) hfind
  subst hkey
  exact ⟨pre, post, entry.2, hm, hmod⟩

/-- The keys stay. -/
theorem mem_clients_bindUdp_iff {data : List UInt8} {addr : SocketAddr}
    (h : Confirms transformNumber s data c) (d : Uuid) :
    (∃ client, (d, client) ∈ (s.bindUdp addr c).clients) ↔ ∃ client, (d, client) ∈ s.clients := by
  obtain ⟨pre, post, client, hclients, hbound⟩ := clients_bindUdp addr h
  rw [hclients, hbound]
  simp only [List.mem_append, List.mem_cons, Prod.mk.injEq]
  grind

/-- So do the records of the others. -/
theorem mem_clients_bindUdp_of_ne {data : List UInt8} {addr : SocketAddr} {e : Uuid × Client}
    (h : Confirms transformNumber s data c) (hne : e.1 ≠ c) :
    e ∈ (s.bindUdp addr c).clients ↔ e ∈ s.clients := by
  obtain ⟨pre, post, client, hclients, hbound⟩ := clients_bindUdp addr h
  rw [hclients, hbound]
  simp only [List.mem_append, List.mem_cons]
  grind

theorem find_none_of_not_takesPackets {addr : SocketAddr} (h : ¬ TakesPackets s addr) :
    OrdMap.find SocketAddr.lt s.udpConnectionCache addr = none := by
  cases hfind : OrdMap.find SocketAddr.lt s.udpConnectionCache addr with
  | none => rfl
  | some e => exact absurd (.inl (Option.isSome_iff_exists.mpr ⟨e, hfind⟩)) h

/-! ## Who was announced -/

/-- Who was announced as bound by UDP got its uuid from the generator. -/
structure GivenInv (s : Server) : Prop extends ClientsInv s where
  announced : ∀ c, .onUdpConnect c ∈ s.calls → c ∈ s.clientUUIDs

theorem GivenInv.call {callback : Callback} (h : GivenInv s)
    (hnew : ∀ c, callback = .onUdpConnect c → c ∈ s.clientUUIDs) : GivenInv (s.call callback) where
  sorted := h.sorted
  given := h.given
  announced c hmem := by
    rcases List.mem_append.mp hmem with hmem | hmem
    · exact h.announced c hmem
    · exact hnew c (List.mem_singleton.mp hmem).symm

theorem Delivered.givenInv {event : Event} (hs : GivenInv s)
    (h : Delivered transformNumber s event t) : GivenInv t := by
  cases h with
  | @connection id c number garbage hc =>
    refine ⟨hs.toClientsInv.onTcpConnection garbage number id hc, ?_⟩
    intro c' hmem
    rcases List.mem_append.mp hmem with hmem | hmem
    · exact List.mem_cons_of_mem _ (hs.announced c' hmem)
    · cases List.mem_singleton.mp hmem
  | stranger => exact hs
  | @disconnection id c client hof =>
    have hcall : GivenInv (s.call (.onTcpDisconnect c)) := hs.call fun _ => Callback.noConfusion
    exact ⟨⟨hs.sorted.erase c, fun e he => hs.given e (OrdMap.mem_of_mem_erase he)⟩,
      hcall.announced⟩
  | dropped => exact hs
  | datagram => exact hs.call fun _ => Callback.noConfusion
  | @bound addr data c hnot hconfirms =>
    obtain ⟨client, hclient⟩ := hconfirms.mem_clients
    have hgiven : c ∈ s.clientUUIDs := hs.given _ hclient
    have hcall : GivenInv (s.call (.onUdpConnect c)) := by
      apply hs.call
      intro c' heq
      cases heq
      exact hgiven
    refine ⟨⟨hs.sorted.modify c fun client : Client => { client with udpAddr := addr }, ?_⟩,
      hcall.announced⟩
    intro e he
    obtain ⟨client', hold⟩ := (mem_clients_bindUdp_iff hconfirms e.1).mp ⟨e.2, he⟩
    exact hs.given (e.1, client') hold
  | answered => exact ⟨⟨hs.sorted, hs.given⟩, hs.announced⟩
  | packet => exact hs.call fun _ => Callback.noConfusion

theorem givenInv (h : (deliveries transformNumber confirmed).Reach s) : GivenInv s := by
  refine Machine.Reach.invariant ?_ ?_ h
  · rintro s ⟨hclients, -, -, hcalls, -⟩
    refine ⟨⟨?_, ?_⟩, ?_⟩
    · rw [hclients]
      exact List.Pairwise.nil
    · intro e he
      rw [hclients] at he
      cases he
    · intro c hmem
      rw [hcalls] at hmem
      cases hmem
  · intro s event t hs hstep
    exact (delivered_of_deliver hstep).givenInv hs

/-! ## Replays -/

/-- Client `c` is bound in `t` as it was in `s`: the same record, no further entry of the cache, and
nothing announced again. -/
structure SameBinding (c : Uuid) (s t : Server) : Prop where
  record : ∀ client, (c, client) ∈ t.clients ↔ (c, client) ∈ s.clients
  entries : ∀ addr, (addr, c) ∈ t.udpConnectionCache → (addr, c) ∈ s.udpConnectionCache
  announced : t.calls.count (.onUdpConnect c) = s.calls.count (.onUdpConnect c)

/-- The condition on an event: no confirmation for the client from an unknown address. -/
def Unreplayed (transformNumber : UInt64 → UInt64) (c : Uuid) (s : Server) : Event → Prop
  | .table (.udpData addr data) => ¬ TakesPackets s addr → ¬ Confirms transformNumber s data c
  | _ => True

theorem SameBinding.refl (c : Uuid) (s : Server) : SameBinding c s s :=
  ⟨fun _ => Iff.rfl, fun _ h => h, rfl⟩

theorem SameBinding.trans {u : Server} (h₁ : SameBinding c s t) (h₂ : SameBinding c t u) :
    SameBinding c s u where
  record client := (h₂.record client).trans (h₁.record client)
  entries addr h := h₁.entries addr (h₂.entries addr h)
  announced := h₂.announced.trans h₁.announced

/-- A call that announces no binding of the client. -/
theorem SameBinding.call {callback : Callback} (h : callback ≠ .onUdpConnect c) :
    SameBinding c s (s.call callback) where
  record _ := Iff.rfl
  entries _ hmem := hmem
  announced := by
    show (s.calls ++ [callback]).count _ = _
    rw [List.count_append, List.count_singleton, if_neg (by simpa using h), Nat.add_zero]

/-- What is left of the clients after one of them left. -/
theorem mem_erase_clients {id d : Uuid} {client : Client} {e : Uuid × Client} (hs : ClientsInv s)
    (hof : s.clientOf id = some (d, client)) :
    e ∈ OrdMap.erase Uuid.lt s.clients d ↔ e ∈ s.clients ∧ e.1 ≠ d := by
  have hmem := List.mem_of_find?_eq_some hof
  have hfind := OrdMap.find_of_mem Uuid.lt_irrefl hs.sorted hmem
  rw [OrdMap.mem_erase_iff Uuid.lt_irrefl hs.sorted hfind]
  constructor
  · rintro ⟨he, hne⟩
    refine ⟨he, ?_⟩
    rintro rfl
    exact hne (Prod.ext rfl (OrdMap.value_unique Uuid.lt_irrefl hs.sorted he hmem))
  · rintro ⟨he, hne⟩
    refine ⟨he, ?_⟩
    rintro rfl
    exact hne rfl

/-- An event that leaves the client connected binds it anew exactly if it is a replay. -/
theorem Delivered.sameBinding_iff {event : Event} (hs : GivenInv s) (hc : c ∈ s.clientUUIDs)
    (h : Delivered transformNumber s event t) (hlasts : ∃ client, (c, client) ∈ t.clients) :
    SameBinding c s t ↔ Unreplayed transformNumber c s event := by
  cases h with
  | @connection id c' number garbage hnew =>
    have hne : c ≠ c' := by
      rintro rfl
      exact hnew hc
    refine iff_of_true ⟨fun client => ?_, fun _ hmem => hmem, ?_⟩ trivial
    · show (c, client) ∈ OrdMap.insert Uuid.lt s.clients c' _ ↔ _
      rw [OrdMap.mem_insert_of_none (hs.find_none hnew)]
      simp only [Prod.mk.injEq, hne, false_and, false_or]
    · have hcall : SameBinding c s (s.call (.onTcpConnect c')) := .call Callback.noConfusion
      exact hcall.announced
  | stranger => exact iff_of_true (.refl c s) trivial
  | @disconnection id c' client' hof =>
    obtain ⟨client, hclient⟩ := hlasts
    have hne : c ≠ c' := ((mem_erase_clients hs.toClientsInv hof).mp hclient).2
    refine iff_of_true ⟨fun client => ?_, fun _ hmem => OrdMap.mem_of_mem_erase hmem, ?_⟩ trivial
    · rw [mem_erase_clients hs.toClientsInv hof]
      exact and_iff_left hne
    · have hcall : SameBinding c s (s.call (.onTcpDisconnect c')) := .call Callback.noConfusion
      exact hcall.announced
  | dropped _ hconfirms =>
    refine iff_of_true (.refl c s) ?_
    intro hnot hc'
    exact hnot (hconfirms ⟨c, hc'⟩)
  | @datagram addr data e packet hfind =>
    refine iff_of_true (.call Callback.noConfusion) ?_
    intro hnot
    exact absurd (.inl (Option.isSome_iff_exists.mpr ⟨e, hfind⟩)) hnot
  | @bound addr data c' hnot hconfirms =>
    constructor
    · -- the announcement of a replay is one too many
      intro hsame _ hc'
      cases hconfirms.unique hc'
      have hcount : (s.calls ++ [Callback.onUdpConnect c]).count (.onUdpConnect c) = _ :=
        hsame.announced
      rw [List.count_append, List.count_singleton_self] at hcount
      omega
    · intro hunreplayed
      have hne : c ≠ c' := by
        rintro rfl
        exact hunreplayed hnot hconfirms
      refine ⟨fun client => mem_clients_bindUdp_of_ne hconfirms hne, fun addr' hmem => ?_, ?_⟩
      · rcases (OrdMap.mem_insert_of_none (find_none_of_not_takesPackets hnot)).mp hmem with
          heq | hmem
        · cases heq
          exact absurd rfl hne
        · exact hmem
      · have hcall : Callback.onUdpConnect c' ≠ .onUdpConnect c := by
          intro heq
          cases heq
          exact hne rfl
        exact (SameBinding.call (s := s) hcall).announced
  | answered => exact iff_of_true ⟨fun _ => Iff.rfl, fun _ hmem => hmem, rfl⟩ trivial
  | packet => exact iff_of_true (.call Callback.noConfusion) trivial

/-- Calls are never taken back, uuids never returned. -/
theorem Delivered.mono {event : Event} (h : Delivered transformNumber s event t) :
    s.calls ⊆ t.calls ∧ s.clientUUIDs ⊆ t.clientUUIDs := by
  cases h with
  | connection => exact ⟨List.subset_append_left _ _, List.subset_cons_self _ _⟩
  | stranger => exact ⟨List.Subset.refl _, List.Subset.refl _⟩
  | disconnection => exact ⟨List.subset_append_left _ _, List.Subset.refl _⟩
  | dropped => exact ⟨List.Subset.refl _, List.Subset.refl _⟩
  | datagram => exact ⟨List.subset_append_left _ _, List.Subset.refl _⟩
  | bound => exact ⟨List.subset_append_left _ _, List.Subset.refl _⟩
  | answered => exact ⟨List.Subset.refl _, List.Subset.refl _⟩
  | packet => exact ⟨List.subset_append_left _ _, List.Subset.refl _⟩

/-- A client that left does not come back. -/
theorem Delivered.mem_clients {event : Event} (hs : GivenInv s) (hc : c ∈ s.clientUUIDs)
    (h : Delivered transformNumber s event t) (hlasts : ∃ client, (c, client) ∈ t.clients) :
    ∃ client, (c, client) ∈ s.clients := by
  cases h with
  | @connection id c' number garbage hnew =>
    obtain ⟨client, hclient⟩ := hlasts
    rcases (OrdMap.mem_insert_of_none (hs.find_none hnew)).mp hclient with heq | hold
    · cases heq
      exact absurd hc hnew
    · exact ⟨client, hold⟩
  | stranger => exact hlasts
  | disconnection =>
    obtain ⟨client, hclient⟩ := hlasts
    exact ⟨client, OrdMap.mem_of_mem_erase hclient⟩
  | dropped => exact hlasts
  | datagram => exact hlasts
  | bound _ hconfirms => exact (mem_clients_bindUdp_iff hconfirms c).mp hlasts
  | answered => exact hlasts
  | packet => exact hlasts

theorem sameBinding_of_runUnder (hs : GivenInv s) (hc : c ∈ s.clientUUIDs)
    (hrun : (deliveries transformNumber confirmed).RunUnder (Unreplayed transformNumber c) s t)
    (hlasts : ∃ client, (c, client) ∈ t.clients) : SameBinding c s t := by
  have h : GivenInv t ∧ c ∈ t.clientUUIDs ∧
      ((∃ client, (c, client) ∈ t.clients) → SameBinding c s t) := by
    refine hrun.invariant (I := fun t => GivenInv t ∧ c ∈ t.clientUUIDs ∧
      ((∃ client, (c, client) ∈ t.clients) → SameBinding c s t)) ?_
      ⟨hs, hc, fun _ => .refl c s⟩
    rintro u event v ⟨hu, hcu, hsame⟩ hunreplayed hstep
    have hdel := delivered_of_deliver hstep
    refine ⟨hdel.givenInv hu, hdel.mono.2 hcu, ?_⟩
    intro hv
    exact (hsame (hdel.mem_clients hu hcu hv)).trans
      ((hdel.sameBinding_iff hu hcu hv).mpr hunreplayed)
  exact h.2.2 hlasts

/-- **A binding lasts until it is replayed**: once `on_udp_connect` was called for a client of a
hosting server, its address, its entries and the calls stay as they are through every run in which
no confirmation for it comes from an unknown address, as long as its connection lasts; and every
such confirmation binds it anew. -/
theorem sameBinding_iff_unreplayed (transformNumber : UInt64 → UInt64) (s : Server) (c : Uuid)
    (hreach : (deliveries transformNumber false).Reach s)
    (hannounced : .onUdpConnect c ∈ s.calls) :
    (∀ t, (deliveries transformNumber false).RunUnder (Unreplayed transformNumber c) s t →
      (∃ client, (c, client) ∈ t.clients) → SameBinding c s t) ∧
    ∀ event t, s.deliver transformNumber event = some t → (∃ client, (c, client) ∈ t.clients) →
      (SameBinding c s t ↔ Unreplayed transformNumber c s event) := by
  have hs := givenInv hreach
  have hc := hs.announced c hannounced
  constructor
  · intro t hrun hlasts
    exact sameBinding_of_runUnder hs hc hrun hlasts
  · intro event t hstep hlasts
    exact (delivered_of_deliver hstep).sameBinding_iff hs hc hlasts

/-- Its own confirmation, once more from the address it bound, does nothing to client 9's. -/
theorem sameBinding_retransmitted : SameBinding 9 (connected.bindUdp peerAddr 9)
    ((connected.bindUdp peerAddr 9).call (.onPacket retransmitted 9)) := by
  have hknown : TakesPackets (connected.bindUdp peerAddr 9) peerAddr := .inl (by decide)
  exact (sameBinding_iff_unreplayed transformNumberFunction _ 9 reach_first
    (List.mem_append_right _ List.mem_cons_self)).1 _
    (.step (a := .table (.udpData peerAddr confirmation)) (fun hnot => absurd hknown hnot)
      step_retransmitted) ⟨⟨1, peerAddr, 77⟩, by decide⟩

/-- A copy of it from another address makes that the client's address. -/
theorem not_sameBinding_replayed :
    ¬ ∀ s t c, (deliveries transformNumberFunction false).Reach s → .onUdpConnect c ∈ s.calls →
      (deliveries transformNumberFunction false).RunUnder Machine.Any s t →
      (∃ client, (c, client) ∈ t.clients) → SameBinding c s t := by
  intro hall
  have hsame := hall _ _ 9 reach_first (List.mem_append_right _ List.mem_cons_self)
    (.step (a := .table (.udpData secondAddr confirmation)) trivial step_second)
    ⟨⟨1, secondAddr, 77⟩, by decide⟩
  have hmem := (hsame.record ⟨1, secondAddr, 77⟩).mp (by decide)
  exact absurd hmem (by decide)

/-! ## Whom a datagram is handed to -/

/-- `on_udp_data` stays within the cache, and a packet it hands on is for a current client. -/
def HandsToClient (transformNumber : UInt64 → UInt64) (s : Server) (addr : SocketAddr)
    (data : List UInt8) : Prop :=
  ∃ t, s.onUdpData transformNumber addr data = some t ∧
    ∀ packet c, t.calls = s.calls ++ [.onPacket packet c] → ∃ client, (c, client) ∈ s.clients

/-- The condition on an event: the client that leaves has no entry in the cache but the one its
address is found under. -/
def LeavesClean (s : Server) : Event → Prop
  | .table (.tcpDisconnection id) => ∀ c client, s.clientOf id = some (c, client) →
      ∀ e ∈ s.udpConnectionCache, e.2 = c →
        OrdMap.find SocketAddr.lt s.udpConnectionCache client.udpAddr = some e
  | _ => True

/-- Every entry of the cache names a current client, and a peer that connected has none. A server
plays one role for its whole life. -/
structure NamedInv (confirmed : Bool) (s : Server) : Prop extends ClientsInv s where
  cache_sorted : OrdMap.Sorted SocketAddr.lt s.udpConnectionCache
  named : ∀ e ∈ s.udpConnectionCache, ∃ client, (e.2, client) ∈ s.clients
  role : s.udpConfirmed = confirmed
  peer : confirmed = true → s.udpConnectionCache = []

theorem takesPackets_of_confirmed (hs : NamedInv true s) (addr : SocketAddr) :
    TakesPackets s addr := .inr hs.role

theorem Delivered.namedInv {event : Event} (hs : NamedInv confirmed s)
    (hclean : LeavesClean s event) (h : Delivered transformNumber s event t) :
    NamedInv confirmed t := by
  cases h with
  | @connection id c number garbage hc =>
    refine ⟨hs.toClientsInv.onTcpConnection garbage number id hc, hs.cache_sorted, ?_, hs.role,
      hs.peer⟩
    intro e he
    obtain ⟨client, hclient⟩ := hs.named e he
    exact ⟨client, OrdMap.mem_insert_of_mem hclient⟩
  | stranger => exact hs
  | @disconnection id c client hof =>
    refine ⟨⟨hs.sorted.erase c, fun e he => hs.given e (OrdMap.mem_of_mem_erase he)⟩,
      hs.cache_sorted.erase _, ?_, hs.role, ?_⟩
    · intro e he
      have hold := OrdMap.mem_of_mem_erase he
      obtain ⟨client', hclient'⟩ := hs.named e hold
      refine ⟨client', (mem_erase_clients hs.toClientsInv hof).mpr ⟨hclient', ?_⟩⟩
      -- an entry of the client that left is the one that was erased
      intro heq
      have hfind := hclean c client hof e hold heq
      exact ((OrdMap.mem_erase_iff SocketAddr.lt_irrefl hs.cache_sorted hfind).mp he).2 rfl
    · intro hpeer
      apply List.eq_nil_iff_forall_not_mem.mpr
      intro e he
      have hold := OrdMap.mem_of_mem_erase he
      rw [hs.peer hpeer] at hold
      cases hold
  | dropped => exact hs
  | datagram => exact ⟨⟨hs.sorted, hs.given⟩, hs.cache_sorted, hs.named, hs.role, hs.peer⟩
  | @bound addr data c hnot hconfirms =>
    refine ⟨⟨hs.sorted.modify c fun client : Client => { client with udpAddr := addr }, ?_⟩,
      hs.cache_sorted.insert SocketAddr.lt_trans addr c, ?_, hs.role, ?_⟩
    · intro e he
      obtain ⟨client', hold⟩ := (mem_clients_bindUdp_iff hconfirms e.1).mp ⟨e.2, he⟩
      exact hs.given (e.1, client') hold
    · intro e he
      apply (mem_clients_bindUdp_iff hconfirms e.2).mpr
      rcases (OrdMap.mem_insert_of_none (find_none_of_not_takesPackets hnot)).mp he with rfl | he
      · exact hconfirms.mem_clients
      · exact hs.named e he
    · rintro rfl
      exact absurd (takesPackets_of_confirmed hs addr) hnot
  | answered => exact ⟨⟨hs.sorted, hs.given⟩, hs.cache_sorted, hs.named, hs.role, hs.peer⟩
  | packet => exact ⟨⟨hs.sorted, hs.given⟩, hs.cache_sorted, hs.named, hs.role, hs.peer⟩

theorem namedInv (h : (deliveries transformNumber confirmed).ReachUnder LeavesClean s) :
    NamedInv confirmed s := by
  refine h.invariant (I := NamedInv confirmed) ?_ ?_
  · rintro s ⟨hclients, hcache, -, -, hrole⟩
    refine ⟨⟨?_, ?_⟩, ?_, ?_, hrole, fun _ => hcache⟩
    · rw [hclients]
      exact List.Pairwise.nil
    · intro e he
      rw [hclients] at he
      cases he
    · rw [hcache]
      exact List.Pairwise.nil
    · intro e he
      rw [hcache] at he
      cases he
  · intro s event t hs hclean hstep
    exact (delivered_of_deliver hstep).namedInv hs hclean

/-- In a peer that connected, only a datagram without a complete packet is survived. -/
theorem onUdpData_of_peer (hs : NamedInv true s) (addr : SocketAddr) (data : List UInt8) :
    s.onUdpData transformNumber addr data =
      if (Packet.deserialize data).isSome then none else some s := by
  have hfind : OrdMap.find SocketAddr.lt s.udpConnectionCache addr = none := by
    rw [hs.peer rfl]
    rfl
  simp only [onUdpData, hfind, hs.role, Option.isSome_none, Bool.or_true, if_true]
  cases Packet.deserialize data with
  | none => rfl
  | some packet => rfl

/-- In a hosting server the handler answers every datagram. -/
theorem exists_onUdpData (hs : NamedInv false s) (addr : SocketAddr) (data : List UInt8) :
    ∃ t, s.onUdpData transformNumber addr data = some t := by
  cases hfind : OrdMap.find SocketAddr.lt s.udpConnectionCache addr with
  | none => exact ⟨_, onUdpData_of_find_none hs.role hfind⟩
  | some e =>
    simp only [onUdpData, hfind, Option.isSome_some, Bool.true_or, if_true, Option.map_some]
    cases Packet.deserialize data with
    | none => exact ⟨s, rfl⟩
    | some packet => exact ⟨_, rfl⟩

/-- A packet handed on is for a client the cache names. -/
theorem Delivered.mem_cache {addr : SocketAddr} {data : List UInt8} {packet : Packet}
    (h : Delivered transformNumber s (.table (.udpData addr data)) t)
    (hcalls : t.calls = s.calls ++ [.onPacket packet c]) :
    ∃ e ∈ s.udpConnectionCache, e.2 = c := by
  cases h with
  | dropped => exact absurd hcalls (by simp)
  | @datagram _ _ e packet' hfind =>
    have hlast := List.append_cancel_left (hcalls : s.calls ++ [_] = _)
    cases hlast
    exact ⟨e, (OrdMap.find_some hfind).1, rfl⟩
  | bound =>
    have hlast := List.append_cancel_left (hcalls : s.calls ++ [_] = _)
    cases hlast

theorem handsToClient_iff_of_namedInv (hs : NamedInv confirmed s) (addr : SocketAddr)
    (data : List UInt8) : HandsToClient transformNumber s addr data ↔
      (confirmed = true → Packet.deserialize data = none) := by
  cases confirmed with
  | true =>
    unfold HandsToClient
    rw [onUdpData_of_peer hs addr data]
    cases hdes : Packet.deserialize data with
    | none =>
      refine iff_of_true ⟨s, rfl, ?_⟩ fun _ => rfl
      intro packet c hcalls
      exact absurd hcalls (by simp)
    | some packet =>
      refine iff_of_false ?_ ?_
      · rintro ⟨t, ht, -⟩
        cases ht
      · intro h
        cases h rfl
  | false =>
    refine iff_of_true ?_ Bool.noConfusion
    have hexists : ∃ t, s.onUdpData transformNumber addr data = some t :=
      exists_onUdpData hs addr data
    obtain ⟨t, ht⟩ := hexists
    refine ⟨t, ht, ?_⟩
    intro packet c hcalls
    obtain ⟨e, he, rfl⟩ := (delivered_onUdpData ht).mem_cache hcalls
    exact hs.named e he

/-- The entry an unclean departure leaves hands the next packet from its address to nobody. -/
theorem not_handsToClient_of_unclean (hs : NamedInv false s) {id : Uuid} {client : Client}
    (hof : s.clientOf id = some (c, client)) {e : SocketAddr × Uuid}
    (he : e ∈ s.udpConnectionCache) (hec : e.2 = c)
    (hstale : OrdMap.find SocketAddr.lt s.udpConnectionCache client.udpAddr ≠ some e)
    {data : List UInt8} (hdata : Packet.deserialize data ≠ none) :
    ¬ HandsToClient transformNumber (s.onTcpDisconnection id) e.1 data := by
  obtain ⟨hclients, hcache, -⟩ := onTcpDisconnection_maps hof
  have hkept : e ∈ OrdMap.erase SocketAddr.lt s.udpConnectionCache client.udpAddr := by
    cases hfind : OrdMap.find SocketAddr.lt s.udpConnectionCache client.udpAddr with
    | none => rwa [OrdMap.erase_of_none hfind]
    | some d =>
      apply (OrdMap.mem_erase_iff SocketAddr.lt_irrefl hs.cache_sorted hfind).mpr
      refine ⟨he, ?_⟩
      rintro rfl
      exact hstale hfind
  have hfind : OrdMap.find SocketAddr.lt (s.onTcpDisconnection id).udpConnectionCache e.1 =
      some e := by
    rw [hcache]
    exact OrdMap.find_of_mem SocketAddr.lt_irrefl (hs.cache_sorted.erase _) hkept
  obtain ⟨packet, hpacket⟩ := Option.ne_none_iff_exists'.mp hdata
  rintro ⟨t, ht, hclient⟩
  simp only [onUdpData, hfind, hpacket, Option.isSome_some, Bool.true_or, if_true,
    Option.map_some] at ht
  cases ht
  obtain ⟨client', hclient'⟩ := hclient packet e.2 rfl
  rw [hclients] at hclient'
  exact ((mem_erase_clients hs.toClientsInv hof).mp hclient').2 hec

/-- **Every packet is for a current client, of a hosting server whose clients leave clean**: in
every run in which each client that leaves has no stale entry, `on_udp_data` stays within the cache
and hands a packet to a current client whatever arrives; in a peer that connected it does so only
for datagrams without a complete packet. A client that leaves a stale entry behind has the packets
from that address handed to nobody. -/
theorem handsToClient_iff (transformNumber : UInt64 → UInt64) (confirmed : Bool) (s : Server)
    (hreach : (deliveries transformNumber confirmed).ReachUnder LeavesClean s) :
    (∀ addr data, HandsToClient transformNumber s addr data ↔
      (confirmed = true → Packet.deserialize data = none)) ∧
    ∀ id, ¬ LeavesClean s (.table (.tcpDisconnection id)) → ∃ addr, ∀ data,
      Packet.deserialize data ≠ none →
        ¬ HandsToClient transformNumber (s.onTcpDisconnection id) addr data := by
  have hs := namedInv hreach
  constructor
  · intro addr data
    exact handsToClient_iff_of_namedInv hs addr data
  · intro id hunclean
    simp only [LeavesClean, not_forall] at hunclean
    obtain ⟨c, client, hof, e, he, hec, hstale⟩ := hunclean
    have hhosts : confirmed = false := by
      cases confirmed with
      | false => rfl
      | true =>
        rw [hs.peer rfl] at he
        cases he
    subst hhosts
    exact ⟨e.1, fun data hdata => not_handsToClient_of_unclean hs hof he hec hstale hdata⟩

/-- Client 9 is bound, and another client came and left. -/
def stayed : Server := ((connected.bindUdp peerAddr 9).onTcpConnection 0 8 5 2).onTcpDisconnection 2

theorem reach_stayed :
    (deliveries transformNumberFunction false).ReachUnder LeavesClean stayed := by
  refine ⟨fresh, ⟨rfl, rfl, rfl, rfl, rfl⟩, ?_⟩
  refine Machine.RunUnder.trans
    (.step (a := .table (.tcpConnection 1 9 77 0)) trivial step_connected) ?_
  refine Machine.RunUnder.trans
    (.step (a := .table (.udpData peerAddr confirmation)) trivial step_first) ?_
  refine Machine.RunUnder.trans (.step (a := .table (.tcpConnection 2 8 5 0)) trivial rfl) ?_
  refine .step (a := .table (.tcpDisconnection 2)) ?_ rfl
  intro c client hof e he hec
  -- The one entry is client 9's.
  have hleft : c = 8 := by
    have hfound : clientOf ((connected.bindUdp peerAddr 9).onTcpConnection 0 8 5 2) 2 =
        some (8, Client.new 2 5) := by decide
    rw [hfound] at hof
    cases hof
    rfl
  have hentry : e = (peerAddr, 9) := List.mem_singleton.mp he
  rw [hleft, hentry] at hec
  exact absurd hec (by decide)

/-- What arrives from the bound address is a packet, and it is handed to client 9. -/
theorem handsToClient_stayed : (∃ client, (9, client) ∈ stayed.clients) ∧
    stayed.onUdpData transformNumberFunction peerAddr confirmation =
      some (stayed.call (.onPacket retransmitted 9)) ∧
    HandsToClient transformNumberFunction stayed peerAddr confirmation := by
  refine ⟨⟨⟨1, peerAddr, 77⟩, by decide⟩, ?_, ?_⟩
  · have hfind : OrdMap.find SocketAddr.lt stayed.udpConnectionCache peerAddr =
        some (peerAddr, 9) := by decide
    simp only [onUdpData, hfind, deserialize_confirmation, Option.isSome_some, Bool.true_or,
      if_true, Option.map_some]
  · exact ((handsToClient_iff transformNumberFunction false stayed reach_stayed).1 peerAddr
      confirmation).mpr fun hconfirmed => absurd hconfirmed Bool.false_ne_true

/-- A peer that connected. -/
def freshPeer : Server := { fresh with udpConfirmed := true }

/-- Neither role is safe: a host hands packets to a client that left after it was bound twice, a
peer dereferences the end of its empty cache at the first complete packet. -/
theorem not_handsToClient :
    (¬ ∀ s, (deliveries transformNumberFunction false).Reach s → ∀ addr data,
      HandsToClient transformNumberFunction s addr data) ∧
    ¬ ∀ s, (deliveries transformNumberFunction true).Reach s → ∀ addr data,
      HandsToClient transformNumberFunction s addr data := by
  constructor
  · intro hall
    have hbound := reach_first.run
      (.step (a := .table (.udpData secondAddr confirmation)) trivial step_second)
    have hleft := hbound.run (.step (a := .table (.tcpDisconnection 1)) trivial rfl)
    obtain ⟨t, ht, hclient⟩ := hall _ hleft peerAddr confirmation
    have hfind : OrdMap.find SocketAddr.lt (((connected.bindUdp peerAddr 9).bindUdp secondAddr
        9).onTcpDisconnection 1).udpConnectionCache peerAddr = some (peerAddr, 9) := by decide
    simp only [onUdpData, hfind, deserialize_confirmation, Option.isSome_some, Bool.true_or,
      if_true, Option.map_some] at ht
    cases ht
    obtain ⟨client, hmem⟩ := hclient retransmitted 9 rfl
    have hnone : (((connected.bindUdp peerAddr 9).bindUdp secondAddr
        9).onTcpDisconnection 1).clients = [] := by decide
    rw [hnone] at hmem
    cases hmem
  · intro hall
    obtain ⟨t, ht, -⟩ := hall freshPeer
      ⟨freshPeer, ⟨rfl, rfl, rfl, rfl, rfl⟩, Relation.ReflTransGen.refl⟩ peerAddr confirmation
    have hfind : OrdMap.find SocketAddr.lt freshPeer.udpConnectionCache peerAddr = none := rfl
    have hrole : freshPeer.udpConfirmed = true := rfl
    simp only [onUdpData, hfind, hrole, deserialize_confirmation, Bool.or_true, if_true,
      Option.map_none] at ht
    cases ht

end ProjectE.Net.Server
