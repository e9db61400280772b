import ProjectE.Net.Context

/-!
# Dispatch inside a batch

The events of a batch name descriptors, and the handlers of a batch close descriptors and accept new
ones, so an event could reach a connection that is younger than the batch. What prevents it is an
order. The poll table begins with the UDP socket and the listener (`Poll.Headed`), so the event that
accepts comes before every event of a connection. Until then the batch has closed nothing: all that
it reports is still open, and the new descriptor is none of it (`Untouched`). After it nothing is
accepted any more (`Spared`).

The table may list a descriptor that is not the server's, which a failed `set_nonblocking` left
there. If another part of the process has it, the batch may report it, and that part may close it
before the listener is served: then `accept` may answer the very descriptor that an event further on
names. `batch_spares_fresh` holds in every run where that does not happen.
-/

namespace ProjectE.Net

open Verif

namespace BaseServer

/-- The connection that `handle_read`, `handle_write` or `handle_error` dispatches an event to. -/
def connectionFor (s : BaseServer) (event : PollEvent) :
    Option (ConnectionKind × Uuid × TcpConnection) :=
  match event.type with
  | .write =>
    if s.udpSocket = some event.fd then none
    else if s.tcpConnection.map (·.2.stream.fd) = some event.fd then
      s.tcpConnection.map fun pair => (.outgoing, pair.1, pair.2)
    else (s.getTcpConnection event.fd).map fun pair => (.accepted, pair.1, pair.2)
  | _ => s.connectionOn event.fd

variable {s t : BaseServer} {event : PollEvent} {kind : ConnectionKind} {id : Uuid} {fd : Fd}
  {connection : TcpConnection} {os : OsAnswers} {ready : Prop}

/-- The two searches that end every dispatch. -/
theorem fdOf_of_dispatch
    (h : (if s.tcpConnection.map (·.2.stream.fd) = some fd then
        s.tcpConnection.map fun pair => (ConnectionKind.outgoing, pair.1, pair.2)
      else (s.getTcpConnection fd).map fun pair => (.accepted, pair.1, pair.2)) =
        some (kind, id, connection)) :
    s.fdOf (.connection kind id) = some fd := by
  split at h
  next hout =>
    obtain ⟨pair, hpair, heq⟩ := Option.map_eq_some_iff.mp h
    cases heq
    obtain ⟨pair', hpair', hfd⟩ := Option.map_eq_some_iff.mp hout
    cases hpair.symm.trans hpair'
    exact fdOf_outgoing_iff.mpr ⟨pair.2, hpair, hfd⟩
  next =>
    obtain ⟨pair, hget, heq⟩ := Option.map_eq_some_iff.mp h
    cases heq
    exact fdOf_getTcpConnection hget

/-- An event is dispatched by its descriptor. -/
theorem fdOf_connectionFor (h : s.connectionFor event = some (kind, id, connection)) :
    s.fdOf (.connection kind id) = some event.fd := by
  have hon : s.connectionOn event.fd = some (kind, id, connection) →
      s.fdOf (.connection kind id) = some event.fd := by
    intro h
    unfold connectionOn at h
    split at h
    · cases h
    split at h
    · cases h
    exact fdOf_of_dispatch h
  unfold connectionFor at h
  split at h
  · split at h
    · cases h
    exact fdOf_of_dispatch h
  · exact hon h

/-- No step of the loop makes or closes one of the two sockets. -/
theorem Change.sockets (h : Change os ready s t) :
    t.udpSocket = s.udpSocket ∧ t.tcpListener = s.tcpListener := by
  have hfixed : ∀ fdOf', t.fdOf = fdOf' → fdOf' .udpSocket = s.fdOf .udpSocket →
      fdOf' .tcpListener = s.fdOf .tcpListener →
      t.udpSocket = s.udpSocket ∧ t.tcpListener = s.tcpListener := by
    rintro fdOf' rfl hudp hlistener
    exact ⟨hudp, hlistener⟩
  cases h with
  | keeps h => exact hfixed _ h.fdOf rfl rfl
  | detaches kind id fd hfd ht => exact hfixed _ ht rfl rfl
  | accepts fd hready hok ht => exact hfixed _ ht rfl rfl
  | acceptFails fd e hready hok herror h => exact hfixed _ h.fdOf rfl rfl

/-! ## A connection on another descriptor -/

theorem connection_congr (hin : t.tcpConnections = s.tcpConnections)
    (hout : t.tcpConnection = s.tcpConnection) : t.connection kind id = s.connection kind id := by
  cases kind with
  | accepted => simp only [BaseServer.connection, hin]
  | outgoing => simp only [BaseServer.connection, hout]

theorem connection_setConnection {id' : Uuid} (connection : TcpConnection)
    (h : kind = .accepted → id ≠ id') :
    (s.setConnection id' connection).connection kind id = s.connection kind id := by
  cases kind with
  | accepted => exact AList.lookup_insert_ne (h rfl)
  | outgoing => rfl

theorem connection_disconnectTcpConnection {id' : Uuid} (h : kind = .accepted → id ≠ id') :
    (s.disconnectTcpConnection id').connection kind id = s.connection kind id := by
  unfold disconnectTcpConnection detachConnection
  split
  next =>
    split
    next => exact connection_congr rfl rfl
    next connection' _ =>
      cases kind with
      | accepted => exact AList.lookup_erase_ne (h rfl)
      | outgoing => rfl
  next => rfl

/-- The search by another descriptor finds another connection. -/
theorem ne_of_getTcpConnection {id' : Uuid} {connection' : TcpConnection}
    (h : s.connection kind id = some connection) (hfd : connection.stream.fd ≠ fd)
    (hget : s.getTcpConnection fd = some (id', connection')) : kind = .accepted → id ≠ id' := by
  rintro rfl rfl
  have hon := fdOf_getTcpConnection hget
  rw [fdOf_connection h] at hon
  cases hon
  exact hfd rfl

theorem connection_handleTcpReadEvents (h : s.connection kind id = some connection)
    (hfd : connection.stream.fd ≠ fd) :
    (s.handleTcpReadEvents fd os).connection kind id = some connection := by
  unfold handleTcpReadEvents
  split
  next => exact h
  next id' connection' hget =>
  have hne := ne_of_getTcpConnection h hfd hget
  simp only
  split
  next => exact (connection_setConnection _ hne).trans h
  next =>
    split
    · exact (connection_disconnectTcpConnection hne).trans
        ((connection_setConnection _ hne).trans h)
    · exact (connection_congr rfl rfl).trans ((connection_setConnection _ hne).trans h)

theorem connection_handleTcpWriteEvents (h : s.connection kind id = some connection)
    (hfd : connection.stream.fd ≠ fd) :
    (s.handleTcpWriteEvents fd os).connection kind id = some connection := by
  unfold handleTcpWriteEvents
  split
  next => exact h
  next id' connection' hget =>
  have hne := ne_of_getTcpConnection h hfd hget
  simp only
  split
  next =>
    exact (connection_disconnectTcpConnection hne).trans ((connection_setConnection _ hne).trans h)
  next => exact (connection_setConnection _ hne).trans h

/-- A handler of the outgoing connection, which has another descriptor. -/
theorem connection_of_outgoing (h : s.connection kind id = some connection)
    (hfd : connection.stream.fd ≠ fd) (hout : s.tcpConnection.map (·.2.stream.fd) = some fd)
    (ht : t.tcpConnections = s.tcpConnections) : t.connection kind id = some connection := by
  cases kind with
  | accepted =>
    simp only [BaseServer.connection, ht]
    exact h
  | outgoing =>
    rw [connection_outgoing_iff.mp h] at hout
    cases hout
    exact absurd rfl hfd

theorem tcpConnections_handleTcpReadConnection (s : BaseServer) (os : OsAnswers) :
    (s.handleTcpReadConnection os).tcpConnections = s.tcpConnections := by
  unfold handleTcpReadConnection
  split
  next => rfl
  next =>
    simp only
    split
    next => rfl
    next => split <;> rfl

theorem tcpConnections_disconnectTcpConnectionSingle (s : BaseServer) :
    s.disconnectTcpConnectionSingle.tcpConnections = s.tcpConnections := by
  unfold disconnectTcpConnectionSingle
  split <;> rfl

theorem tcpConnections_handleTcpWriteConnection (s : BaseServer) (os : OsAnswers) :
    (s.handleTcpWriteConnection os).tcpConnections = s.tcpConnections := by
  unfold handleTcpWriteConnection
  split
  next => rfl
  next =>
    simp only
    split
    next => exact tcpConnections_disconnectTcpConnectionSingle _
    next => rfl

theorem connection_handleUdpReadEvent (isValidUdpMessage : List UInt8 → Bool) (s : BaseServer)
    (os : OsAnswers) : (s.handleUdpReadEvent isValidUdpMessage os).connection kind id =
      s.connection kind id := by
  unfold handleUdpReadEvent
  split
  next => rfl
  next =>
    simp only
    split
    next => rfl
    next =>
      split
      next => rfl
      next => exact connection_congr rfl rfl

theorem connection_handleNewTcpConnections (hs : Sound s)
    (hnew : os.newUuid ∉ s.generatedUUIDs) (h : s.connection kind id = some connection) :
    (s.handleNewTcpConnections os).connection kind id = some connection := by
  have hne : kind = .accepted → id ≠ os.newUuid := by
    rintro - rfl
    exact hnew (hs.given kind _ _ (fdOf_connection h))
  unfold handleNewTcpConnections
  split
  next => exact h
  next fd hok =>
    simp only
    split
    next => exact (connection_congr rfl rfl).trans h
    next =>
      simp only [addAccepted, emplaceConnection, if_neg (hs.not_mem hnew)]
      refine (connection_congr (t := pushEvent _ _ _) rfl rfl).trans ?_
      exact (connection_setConnection _ hne).trans ((connection_congr rfl rfl).trans h)

/-- **What an event does not name, it does not touch.** -/
theorem connection_handleEvent (isValidUdpMessage : List UInt8 → Bool) (hs : Sound s)
    (hnew : os.newUuid ∉ s.generatedUUIDs) (h : s.connection kind id = some connection)
    (hfd : connection.stream.fd ≠ event.fd) :
    (s.handleEvent isValidUdpMessage event os).connection kind id = some connection := by
  unfold handleEvent
  split
  next =>
    unfold handleRead
    split
    next => exact (connection_handleUdpReadEvent isValidUdpMessage s os).trans h
    next =>
    split
    next => exact connection_handleNewTcpConnections hs hnew h
    next =>
    split
    next hout =>
      exact connection_of_outgoing h hfd hout (tcpConnections_handleTcpReadConnection s os)
    next => exact connection_handleTcpReadEvents h hfd
  next =>
    unfold handleWrite
    split
    next => exact (connection_congr rfl rfl).trans h
    next =>
    split
    next hout =>
      exact connection_of_outgoing h hfd hout (tcpConnections_handleTcpWriteConnection s os)
    next => exact connection_handleTcpWriteEvents h hfd
  next =>
    unfold handleError
    split
    next => exact h
    next =>
    split
    next => exact h
    next =>
    split
    next hout =>
      exact connection_of_outgoing h hfd hout (tcpConnections_disconnectTcpConnectionSingle s)
    next =>
      split
      next => exact h
      next id' connection' hget =>
        exact (connection_disconnectTcpConnection (ne_of_getTcpConnection h hfd hget)).trans h

theorem mem_tcpConnections_iff :
    id ∈ s.tcpConnections ↔ ∃ fd, s.fdOf (.connection .accepted id) = some fd := by
  rw [← AList.lookup_isSome, Option.isSome_iff_exists]
  constructor
  · rintro ⟨connection, hlookup⟩
    exact ⟨_, fdOf_accepted_iff.mpr ⟨connection, hlookup, rfl⟩⟩
  · rintro ⟨fd, hfd⟩
    obtain ⟨connection, hlookup, -⟩ := fdOf_accepted_iff.mp hfd
    exact ⟨connection, hlookup⟩

/-- Only an accept makes a connection. -/
theorem Change.shrinks_or (h : Change os ready s t) :
    (∀ o fd, t.fdOf o = some fd → s.fdOf o = some fd) ∨
      (ready ∧ ∃ fd, os.accept = .ok fd ∧
        t.fdOf = Function.update s.fdOf (.connection .accepted os.newUuid) (some fd)) := by
  cases h with
  | keeps h => exact .inl fun o fd hfd => h.fdOf ▸ hfd
  | detaches kind id fd hfd ht =>
    refine .inl fun o fd' hfd' => ?_
    rw [ht] at hfd'
    rcases update_eq_some hfd' with ⟨-, hnone⟩ | ⟨-, hold⟩
    · cases hnone
    · exact hold
  | accepts fd hready hok ht => exact .inr ⟨hready, fd, hok, ht⟩
  | acceptFails fd e hready hok herror h => exact .inl fun o fd hfd => h.fdOf ▸ hfd

end BaseServer

namespace Context

open BaseServer

variable {isValidUdpMessage : List UInt8 → Bool} {s t : Context} {a : Label}
  {events rest : List PollEvent} {event : PollEvent} {id : Uuid}

/-! ## The batch when the poll answers -/

/-- The events of the UDP socket come first, and at most the next one is an event to accept. -/
def ListenerFirst (s : BaseServer) (events : List PollEvent) : Prop :=
  ∃ pre post, events = pre ++ post ∧ (∀ event ∈ pre, s.udpSocket = some event.fd) ∧
    ∀ event ∈ post.tail, ¬ s.Accepting event

/-- The order of the table is the order of the batch. -/
theorem listenerFirst_of_headed {server : BaseServer} {polled : List (Poll.Entry × Poll.Revents)}
    (h : Poll.Headed server.sockets ⟨polled.map (·.1)⟩) :
    ListenerFirst server (Poll.events polled) := by
  obtain ⟨pre, post, hfds, hpre, hpost⟩ := h
  obtain ⟨front, behind, rfl, rfl, rfl⟩ := List.map_eq_append_iff.mp hfds
  have hfront : (front.map (·.1)).map (·.fd) =
      server.udpSocket.toList ++ server.tcpListener.toList := Poll.fds_of_front hpre
  rw [List.map_map] at hfront
  obtain ⟨udp, listener, rfl, hudp, hlistener⟩ := List.map_eq_append_iff.mp hfront
  have hbehind : ∀ event ∈ Poll.events behind, ¬ server.Accepting event := by
    intro event hevent haccepting
    obtain ⟨pair, hpair, hfd, -⟩ := Poll.mem_events hevent
    apply hpost pair.1 (List.mem_map_of_mem hpair)
    rw [← hfd]
    exact mem_sockets_iff.mpr (.inr haccepting.2)
  refine ⟨Poll.events udp, Poll.events listener ++ Poll.events behind, ?_, ?_, ?_⟩
  · simp only [Poll.events, List.flatMap_append, List.append_assoc]
  · intro event hevent
    obtain ⟨pair, hpair, hfd, -⟩ := Poll.mem_events hevent
    have hmem : pair.1.fd ∈ server.udpSocket.toList := hudp ▸ List.mem_map_of_mem hpair
    rw [hfd]
    exact Option.mem_toList.mp hmem
  · intro event hevent haccepting
    cases listener with
    | nil => exact hbehind event (List.mem_of_mem_tail hevent) haccepting
    | cons pair listener =>
      -- there is one listener
      have hnil : listener = [] := by
        cases hlistens : server.tcpListener with
        | none =>
          rw [hlistens] at hlistener
          cases hlistener
        | some fd =>
          rw [hlistens] at hlistener
          exact List.map_eq_nil_iff.mp (List.cons.inj hlistener).2
      subst hnil
      have hone : Poll.events [pair] = pair.1.events pair.2 := List.append_nil _
      rw [hone] at hevent
      rcases Poll.mem_tail_entry_events hevent with htype | hevent
      · exact htype haccepting.1
      · exact hbehind event hevent haccepting

/-! ## The batch while it is processed -/

/-- Nothing of the batch has been served but the UDP socket: what it reports is still open, nothing
was accepted in it, and the listener, if it is reported, comes before the streams. -/
structure Untouched (s : Context) (events : List PollEvent) : Prop where
  fresh : s.fresh = []
  opened : ∀ event ∈ events, event.fd ∈ s.opened
  order : ListenerFirst s.server events

/-- The event of the listener is behind: nothing will be accepted any more, and no event left names
the descriptor of a connection accepted in this batch. -/
structure Spared (s : Context) (events : List PollEvent) : Prop where
  served : ∀ event ∈ events, ¬ s.server.Accepting event
  apart : ∀ id ∈ s.fresh, ∀ kind fd, s.server.fdOf (.connection kind id) = some fd →
    ∀ event ∈ events, event.fd ≠ fd

/-- The events of the batch that are not handled yet. -/
def pending (s : Context) : List PollEvent :=
  match s.pos with
  | .batch events => events
  | _ => []

/-- The condition on a step: as long as the listener is still to be served, another part of the
process closes nothing that the batch reports. -/
def KeepsReported (s : Context) : Label → Prop
  | .environment others => (∃ event ∈ s.pending, s.server.Accepting event) →
      ∀ event ∈ s.pending, event.fd ∈ s.others → event.fd ∈ others
  | _ => True

/-- What is known of the table and of the batch. -/
structure BatchInv (s : Context) : Prop where
  headed : s.running = true → s.server.poll.Headed s.server.sockets
  batch : ∀ events, s.pos = .batch events → Untouched s events ∨ Spared s events

theorem accepting_congr {s t : BaseServer} (h : t.tcpListener = s.tcpListener) :
    t.Accepting event ↔ s.Accepting event := by
  rw [Accepting, Accepting, h]

theorem sockets_congr {s t : BaseServer}
    (h : t.udpSocket = s.udpSocket ∧ t.tcpListener = s.tcpListener) : t.sockets = s.sockets := by
  rw [sockets, sockets, h.1, h.2]

theorem same_sockets {s t : BaseServer} (h : t.fdOf = s.fdOf) :
    t.udpSocket = s.udpSocket ∧ t.tcpListener = s.tcpListener :=
  ⟨congrFun h .udpSocket, congrFun h .tcpListener⟩

theorem ListenerFirst.congr {s t : BaseServer}
    (h : t.udpSocket = s.udpSocket ∧ t.tcpListener = s.tcpListener)
    (hs : ListenerFirst s events) : ListenerFirst t events := by
  obtain ⟨pre, post, heq, hpre, hpost⟩ := hs
  refine ⟨pre, post, heq, ?_, ?_⟩
  · rw [h.1]
    exact hpre
  · intro event hevent
    rw [accepting_congr h.2]
    exact hpost event hevent

/-- The same tables, the same batch, and what it reports is still open. -/
theorem batch_congr (hfdOf : t.server.fdOf = s.server.fdOf) (hfresh : t.fresh = s.fresh)
    (hopened : ∀ event ∈ events, event.fd ∈ s.opened → event.fd ∈ t.opened)
    (hs : Untouched s events ∨ Spared s events) : Untouched t events ∨ Spared t events := by
  have hsockets := same_sockets hfdOf
  rcases hs with hs | hs
  · refine .inl ⟨hfresh.trans hs.fresh, ?_, hs.order.congr hsockets⟩
    intro event hevent
    exact hopened event hevent (hs.opened event hevent)
  · refine .inr ⟨?_, ?_⟩
    · intro event hevent
      rw [accepting_congr hsockets.2]
      exact hs.served event hevent
    · rw [hfresh, hfdOf]
      exact hs.apart

theorem mem_opened_congr {fd : Fd} (hfdOf : t.server.fdOf = s.server.fdOf)
    (hothers : t.others = s.others) (h : fd ∈ s.opened) : fd ∈ t.opened := by
  rw [opened, List.mem_append, hothers, mem_descriptors, hfdOf, ← mem_descriptors]
  exact List.mem_append.mp h

theorem accepted_of_shrinks {os : OsAnswers} {server : BaseServer}
    (h : ∀ o fd, server.fdOf o = some fd → s.server.fdOf o = some fd) :
    s.accepted os server = s.fresh := by
  unfold accepted
  split
  next hnew =>
    obtain ⟨hin, hout⟩ := hnew
    obtain ⟨fd, hfd⟩ := mem_tcpConnections_iff.mp hin
    exact absurd (mem_tcpConnections_iff.mpr ⟨fd, h _ fd hfd⟩) hout
  next => rfl

/-- One event of an untouched batch. -/
theorem Untouched.turn {os : OsAnswers} (hs : Untouched s (event :: rest)) (hinv : Inv s)
    (hunused : s.unused os.accept = true) (hnew : os.newUuid ∉ s.server.generatedUUIDs)
    (ht : t.server = s.server.handleEvent isValidUdpMessage event os)
    (hfresh : t.fresh = s.accepted os t.server) (hothers : t.others = s.others) :
    Untouched t rest ∨ Spared t rest := by
  obtain ⟨pre, post, heq, hpre, hpost⟩ := hs.order
  have hchange := change_handleEvent isValidUdpMessage event (hinv.sound.not_mem hnew)
  rw [← ht] at hchange
  cases pre with
  | cons udp pre =>
    -- the UDP socket is served
    cases List.cons.inj heq with
    | intro hevent hrest =>
    subst hevent
    have hkeeps : Keeps s.server t.server := by
      rw [ht]
      exact keeps_handleEvent_udpSocket isValidUdpMessage os (hpre event List.mem_cons_self)
    have hsockets := same_sockets hkeeps.fdOf
    refine .inl ⟨?_, ?_, ListenerFirst.congr hsockets ⟨pre, post, hrest, ?_, hpost⟩⟩
    · rw [hfresh, accepted_of_shrinks fun o fd hfd => hkeeps.fdOf ▸ hfd, hs.fresh]
    · intro event hevent
      exact mem_opened_congr hkeeps.fdOf hothers (hs.opened event (List.mem_cons_of_mem _ hevent))
    · intro event hevent
      exact hpre event (List.mem_cons_of_mem _ hevent)
  | nil =>
    -- the event that may accept is behind
    rw [List.nil_append] at heq
    subst heq
    have hsockets := hchange.sockets
    right
    refine ⟨?_, ?_⟩
    · intro event hevent
      rw [accepting_congr hsockets.2]
      exact hpost event hevent
    · intro id hid kind fd hfd event hevent
      rcases hchange.shrinks_or with hshrinks | ⟨hready, fd', hok, hfdOf⟩
      · rw [hfresh, accepted_of_shrinks hshrinks, hs.fresh] at hid
        cases hid
      · have hid : id = os.newUuid := by
          rw [hfresh, accepted, hs.fresh] at hid
          split at hid
          · exact List.mem_singleton.mp hid
          · cases hid
        subst hid
        rw [hfdOf] at hfd
        rcases update_eq_some hfd with ⟨-, hfd⟩ | ⟨-, hold⟩
        · cases hfd
          rintro rfl
          rw [hok] at hunused
          exact not_mem_opened hunused (hs.opened event (List.mem_cons_of_mem _ hevent))
        · exact absurd (hinv.sound.given _ _ _ hold) hnew

/-- One event of a spared batch. -/
theorem Spared.turn {os : OsAnswers} (hs : Spared s (event :: rest)) (hinv : Inv s)
    (hnew : os.newUuid ∉ s.server.generatedUUIDs)
    (ht : t.server = s.server.handleEvent isValidUdpMessage event os)
    (hfresh : t.fresh = s.accepted os t.server) : Spared t rest := by
  have hchange := change_handleEvent isValidUdpMessage event (hinv.sound.not_mem hnew)
  rw [← ht] at hchange
  rcases hchange.shrinks_or with hshrinks | ⟨hready, -⟩
  · refine ⟨?_, ?_⟩
    · intro event hevent
      rw [accepting_congr hchange.sockets.2]
      exact hs.served event (List.mem_cons_of_mem _ hevent)
    · intro id hid kind fd hfd event hevent
      rw [hfresh, accepted_of_shrinks hshrinks] at hid
      exact hs.apart id hid kind fd (hshrinks _ fd hfd) event (List.mem_cons_of_mem _ hevent)
  · exact absurd hready (hs.served event List.mem_cons_self)

/-- Other parts of the process open and close descriptors. Where no event is one to accept, an
untouched batch is a spared one. -/
theorem batch_environment (ht : t.server = s.server) (hfresh : t.fresh = s.fresh)
    (hkeeps : (∃ event ∈ events, s.server.Accepting event) →
      ∀ event ∈ events, event.fd ∈ s.others → event.fd ∈ t.others)
    (hs : Untouched s events ∨ Spared s events) : Untouched t events ∨ Spared t events := by
  have hspared : Spared s events → Spared t events := by
    intro hold
    exact ⟨ht ▸ hold.served, by rw [hfresh, ht]; exact hold.apart⟩
  rcases hs with hold | hold
  · by_cases hready : ∃ event ∈ events, s.server.Accepting event
    · -- the listener is still to be served
      refine .inl ⟨hfresh.trans hold.fresh, ?_, ht ▸ hold.order⟩
      intro event hevent
      rw [opened, ht]
      refine List.mem_append.mpr ?_
      exact (List.mem_append.mp (hold.opened event hevent)).imp_right (hkeeps hready event hevent)
    · refine .inr (hspared ⟨?_, ?_⟩)
      · intro event hevent haccepting
        exact hready ⟨event, hevent, haccepting⟩
      · intro id hid
        rw [hold.fresh] at hid
        cases hid
  · exact .inr (hspared hold)

/-- Preparing the poll table leaves the two sockets in front. -/
theorem headed_prepareWrite {server : BaseServer} {front : List Fd}
    (h : server.poll.Headed front) : server.prepareWrite.poll.Headed front := by
  obtain ⟨poll, heq, hpoll⟩ := prepareWrite_induction (P := Poll.Headed front)
    (fun _ fd _ h => h.addWrite fd) (fun _ fd _ h => h.removeWrite fd) h
  rw [heq]
  exact hpoll

/-- A turn of the loop leaves the two sockets in front. -/
theorem headed_of_change {s t : BaseServer} {os : OsAnswers} {ready : Prop} (hs : s.Sound)
    (h : Change os ready s t) (hheaded : s.poll.Headed s.sockets) : t.poll.Headed t.sockets := by
  rw [sockets_congr h.sockets]
  cases h with
  | keeps h => exact h.poll ▸ hheaded
  | detaches kind id fd hfd ht hpoll => exact hpoll ▸ hheaded.remove (hs.connection_free hfd)
  | accepts fd hready hok ht hpoll => exact hpoll ▸ hheaded.add fd
  | acceptFails fd e hready hok herror h hpoll => exact hpoll ▸ hheaded.add fd

theorem headed_runContext {server : BaseServer} (hs : server.Sound) :
    server.runContext.poll.Headed server.runContext.sockets := by
  show server.runContext.poll.Headed server.sockets
  rw [hs.poll_runContext]
  refine ⟨_, _, List.map_append .., rfl, ?_⟩
  intro pfd hpfd
  obtain ⟨fd, hfd, rfl⟩ := List.mem_map.mp hpfd
  exact hs.outgoing_free fd (Option.mem_toList.mp hfd)

theorem BatchInv.step (hs : BatchInv s) (hinv : Inv s) (hkeeps : KeepsReported s a)
    (h : (machine isValidUdpMessage).step s a = some t) : BatchInv t := by
  cases effect_of_step h with
  | setUp hrunning hopens hplace =>
    refine ⟨?_, ?_⟩
    · intro hrunning'
      rw [hplace.running, hrunning] at hrunning'
      cases hrunning'
    · intro events hpos
      rw [hplace.pos, hinv.halted hrunning] at hpos
      cases hpos
  | quiet hsame hplace hpopped hothers =>
    refine ⟨?_, ?_⟩
    · intro hrunning
      rw [hsame.poll, sockets_congr (same_sockets hsame.fdOf)]
      exact hs.headed (hplace.running ▸ hrunning)
    · intro events hpos
      refine batch_congr hsame.fdOf hplace.fresh ?_ (hs.batch events (hplace.pos ▸ hpos))
      intro event _ hopened
      exact mem_opened_congr hsame.fdOf hothers hopened
  | popEvent ht =>
    subst ht
    refine ⟨hs.headed, ?_⟩
    intro events hpos
    refine batch_congr (fdOf_popEvent s) rfl ?_ (hs.batch events hpos)
    intro event _ hopened
    exact mem_opened_congr (fdOf_popEvent s) rfl hopened
  | startContext hrunning ht hpos =>
    refine ⟨fun _ => ht ▸ headed_runContext hinv.sound, ?_⟩
    intro events hpos'
    rw [hpos] at hpos'
    cases hpos'
  | stopContext ht hpos hrunning =>
    refine ⟨?_, ?_⟩
    · intro hrunning'
      rw [hrunning] at hrunning'
      cases hrunning'
    · intro events hpos'
      rw [hpos] at hpos'
      cases hpos'
  | waitFails hpos ht hpos' hrunning =>
    refine ⟨?_, ?_⟩
    · intro hrunning'
      rw [ht, sockets_congr (same_sockets (sameTables_prepareWrite s.server).fdOf)]
      exact headed_prepareWrite (hs.headed (hrunning ▸ hrunning'))
    · intro events hbatch
      rw [hpos'] at hbatch
      cases hbatch
  | @wait polled hpos ht hpos' hpolled hopen hrunning hfresh hpopped hothers =>
    have hsame := sameTables_prepareWrite s.server
    have hsockets := same_sockets hsame.fdOf
    have hheaded : t.running = true → t.server.poll.Headed t.server.sockets := by
      intro hrunning'
      rw [ht, sockets_congr hsockets]
      exact headed_prepareWrite (hs.headed (hrunning ▸ hrunning'))
    refine ⟨hheaded, ?_⟩
    intro events hbatch
    rw [hpos'] at hbatch
    cases hbatch
    have hrunning' : t.running = true := hrunning.trans (hinv.running_of_pos (by simp [hpos]))
    refine .inl ⟨hfresh, ?_, listenerFirst_of_headed ?_⟩
    · intro event hevent
      obtain ⟨pair, hpair, hfd, hreports⟩ := Poll.mem_events hevent
      rw [hfd]
      exact mem_opened_congr (ht ▸ hsame.fdOf) hothers (hopen pair hpair hreports)
    · rw [hpolled]
      exact hheaded hrunning'
  | @turn os hunused hturn hrunning hfresh hpopped hothers =>
    refine ⟨?_, ?_⟩
    · intro hrunning'
      exact headed_of_change hinv.sound (change_of_turn hinv.sound hturn)
        (hs.headed (hrunning ▸ hrunning'))
    · intro events hbatch
      obtain ⟨event, hpos, hnew, ht⟩ := hturn.served hbatch
      rcases hs.batch _ hpos with hold | hold
      · exact hold.turn hinv hunused hnew ht hfresh hothers
      · exact .inr (hold.turn hinv hnew ht hfresh)
  | @environment others ht hplace hpopped hothers =>
    refine ⟨?_, ?_⟩
    · rw [ht, hplace.running]
      exact hs.headed
    · intro events hbatch
      have hpos : s.pos = .batch events := hplace.pos ▸ hbatch
      have hpending : s.pending = events := by rw [pending, hpos]
      refine batch_environment ht hplace.fresh ?_ (hs.batch events hpos)
      rintro ⟨event, hevent, haccepting⟩ event' hevent'
      rw [hothers]
      rw [KeepsReported, hpending] at hkeeps
      exact hkeeps ⟨event, hevent, haccepting⟩ event' hevent'

theorem batchInv_of_reach (h : (machine isValidUdpMessage).ReachUnder KeepsReported s) :
    BatchInv s := by
  refine Machine.ReachUnder.induction (J := Inv) (fun _ => inv_of_reach) ?_ ?_ h
  · intro s ⟨_, hpos, _, hrunning, _⟩
    refine ⟨?_, ?_⟩
    · intro hrunning'
      rw [hrunning] at hrunning'
      cases hrunning'
    · intro events hpos'
      rw [hpos] at hpos'
      cases hpos'
  · intro s a t hs _ hbatch hkeeps hstep
    exact hbatch.step hs hkeeps hstep

/-- The event at the front of a batch does not name the descriptor of a connection accepted in
it. -/
theorem BatchInv.apart (hs : BatchInv s) (hpos : s.pos = .batch (event :: rest))
    (hid : id ∈ s.fresh) {kind : ConnectionKind} {fd : Fd}
    (hfd : s.server.fdOf (.connection kind id) = some fd) :
    event.fd ≠ fd := by
  rcases hs.batch _ hpos with hold | hold
  · rw [hold.fresh] at hid
    cases hid
  · exact hold.apart id hid kind fd hfd event List.mem_cons_self

/-- **No event of a batch is dispatched to a connection accepted while the batch is processed**, and
so none changes such a connection, in every run in which no other part of the process closes a
descriptor that the batch reports before the listener is served. -/
theorem batch_spares_fresh (h : (machine isValidUdpMessage).ReachUnder KeepsReported s)
    (hpos : s.pos = .batch (event :: rest)) :
    (∀ kind id connection, s.server.connectionFor event = some (kind, id, connection) →
      id ∉ s.fresh) ∧
    ∀ os id connection, os.newUuid ∉ s.server.generatedUUIDs → id ∈ s.fresh →
      s.server.connection .accepted id = some connection →
      (s.server.handleEvent isValidUdpMessage event os).connection .accepted id =
        some connection := by
  have hbatch := batchInv_of_reach h
  refine ⟨?_, ?_⟩
  · intro kind id connection hfor hid
    exact hbatch.apart hpos hid (fdOf_connectionFor hfor) rfl
  · intro os id connection hnew hid hconnection
    refine connection_handleEvent isValidUdpMessage (inv_of_reach h.any).sound hnew hconnection ?_
    intro heq
    exact hbatch.apart hpos hid (fdOf_connection hconnection) heq.symm

/-! ## A descriptor that comes back -/

/-- Connection 1 on descriptor 7 is accepted, and a later batch accepts connection 2 on descriptor 9
before it serves connection 1. -/
theorem batch_spares_fresh_second : ∃ s : Context, s.pos = .batch [⟨.read, 7⟩] ∧ s.fresh = [2] ∧
    ∀ kind id connection, s.server.connectionFor ⟨.read, 7⟩ = some (kind, id, connection) →
      id ∉ s.fresh := by
  let listens : Poll.Entry × Poll.Revents := (⟨3, true, false⟩, readable)
  let os := acceptAnswer (.ok ())
  let idle := readAnswer (.ok [])
  let labels := hostLabels ++ [.turn os, .turn idle, .turn idle, .turn idle,
    .wait (.ok [listens, (⟨7, true, false⟩, readable)]),
    .turn { os with accept := .ok 9, newUuid := 2 }]
  have hlabels : ∀ a ∈ labels, ∀ s, KeepsReported s a := by
    simp [labels, hostLabels, KeepsReported]
  have hexec : ((machine fun _ => true).exec Machine.Any made labels).any (fun s =>
      s.pos = .batch [⟨.read, 7⟩] ∧ s.fresh = [2]) = true := by
    decide
  obtain ⟨s, hreach, hs⟩ := Machine.reachUnder_of_labels starts_made hlabels hexec
  obtain ⟨hpos, hfresh⟩ := of_decide_eq_true hs
  exact ⟨s, hpos, hfresh, (batch_spares_fresh hreach hpos).1⟩

/-- The stream on descriptor 7 cannot be made nonblocking, and stays in the poll table. Another part
of the process opens 7, the poll reports it behind the listener, it is closed again, and `accept`
answers 7: the event for what it was goes to the new connection. -/
theorem not_batch_spares_fresh : ¬ ∀ (s : Context) event rest kind id connection,
    (machine fun _ => true).Reach s → s.pos = .batch (event :: rest) →
    s.server.connectionFor event = some (kind, id, connection) → id ∉ s.fresh := by
  intro hall
  let listens : Poll.Entry × Poll.Revents := (⟨3, true, false⟩, readable)
  have hexec : ((machine fun _ => true).exec Machine.Any made
      (hostLabels ++ [.turn (acceptAnswer (.error 22)), .turn (acceptAnswer (.error 22)),
        .turn (acceptAnswer (.error 22)), .turn (acceptAnswer (.error 22)), .environment [7],
        .wait (.ok [listens, (⟨7, true, false⟩, readable)]), .environment [],
        .turn (acceptAnswer (.ok ()))])).any (fun s => s.pos = .batch [⟨.read, 7⟩] ∧
          (s.server.connectionFor ⟨.read, 7⟩).any (fun found => found.2.1 ∈ s.fresh)) = true := by
    decide
  obtain ⟨s, hreach, hs⟩ := Machine.reachUnder_of_exec starts_made hexec
  obtain ⟨hpos, hfor⟩ := of_decide_eq_true hs
  obtain ⟨⟨kind, id, connection⟩, hfound, hfresh⟩ := (Option.any_eq_true _ _).mp hfor
  exact hall s _ _ kind id connection hreach hpos hfound (of_decide_eq_true hfresh)

end Context

end ProjectE.Net
