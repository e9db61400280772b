import Mathlib.Logic.Function.Basic
import ProjectE.Net.ReadPath

/-!
# The sockets of a server

A server has its sockets in four places: the UDP socket, the listener, the outgoing connection and
the map of accepted connections. `fdOf` reads them as one table from owners to descriptors. Every
handler of an event then does one of four things to that table, the poll table and the record of
announcements (`Change`): it keeps them, it takes one connection out, it puts one accepted
connection in, or it registers a descriptor it has closed again.
-/

namespace ProjectE.Net

open Verif

/-- Who may have a descriptor. -/
inductive Owner where
  | udpSocket
  | tcpListener
  | connection (kind : BaseServer.ConnectionKind) (id : Uuid)
deriving DecidableEq, Repr

namespace BaseServer

/-- The descriptor of an owner, if it is there. -/
def fdOf (s : BaseServer) : Owner → Option Fd
  | .udpSocket => s.udpSocket
  | .tcpListener => s.tcpListener
  | .connection kind id => (s.connection kind id).map (·.stream.fd)

/-- The descriptors a server has. -/
def descriptors (s : BaseServer) : List Fd :=
  s.udpSocket.toList ++ s.tcpListener.toList ++
    (s.tcpConnection.map (·.2.stream.fd)).toList ++
    s.tcpConnections.entries.map (·.2.stream.fd)

/-- The descriptors of the sockets that `run_context` puts at the front of the poll table, and that
no handler takes out. -/
def sockets (s : BaseServer) : List Fd := s.udpSocket.toList ++ s.tcpListener.toList

/-- The connections announced or torn down that the main thread has not heard of yet. -/
def announcements (s : BaseServer) : List (TCPEvent × Uuid) :=
  s.tcpEvents.filter fun event => event.1 ≠ .tcpRead

variable {s t : BaseServer} {id : Uuid} {kind : ConnectionKind}
  {connection connection' : TcpConnection}
  {fd : Fd} {os : OsAnswers} {ready : Prop}

/-- A connection owns the descriptor of its stream. -/
theorem fdOf_connection (h : s.connection kind id = some connection) :
    s.fdOf (.connection kind id) = some connection.stream.fd := by
  rw [fdOf, h, Option.map_some]

/-- And an owner among the connections is a connection with that stream. -/
theorem connection_of_fdOf (h : s.fdOf (.connection kind id) = some fd) :
    ∃ connection, s.connection kind id = some connection ∧ connection.stream.fd = fd :=
  Option.map_eq_some_iff.mp h

/-- The outgoing connection is the one of its id. -/
theorem connection_outgoing_iff :
    s.connection .outgoing id = some connection ↔ s.tcpConnection = some (id, connection) := by
  unfold BaseServer.connection
  cases s.tcpConnection with
  | none => simp
  | some pair =>
    obtain ⟨id', connection'⟩ := pair
    simp [Option.filter_some]

/-- The outgoing connection owns a descriptor under its own id. -/
theorem fdOf_outgoing_iff : s.fdOf (.connection .outgoing id) = some fd ↔
    ∃ connection, s.tcpConnection = some (id, connection) ∧ connection.stream.fd = fd := by
  rw [fdOf, Option.map_eq_some_iff]
  simp only [connection_outgoing_iff]

/-- An accepted connection owns one under the id it is found by. -/
theorem fdOf_accepted_iff : s.fdOf (.connection .accepted id) = some fd ↔
    ∃ connection, s.tcpConnections.lookup id = some connection ∧ connection.stream.fd = fd :=
  Option.map_eq_some_iff

/-- The descriptors of the server are those that have an owner. -/
theorem mem_descriptors : fd ∈ s.descriptors ↔ ∃ o, s.fdOf o = some fd := by
  simp only [descriptors, List.mem_append, Option.mem_toList, Option.map_eq_some_iff,
    List.mem_map]
  constructor
  · rintro (((h | h) | ⟨pair, hpair, rfl⟩) | ⟨pair, hpair, rfl⟩)
    · exact ⟨.udpSocket, h⟩
    · exact ⟨.tcpListener, h⟩
    · exact ⟨.connection .outgoing pair.1, fdOf_outgoing_iff.mpr ⟨pair.2, hpair, rfl⟩⟩
    · exact ⟨.connection .accepted pair.1,
        fdOf_accepted_iff.mpr ⟨pair.2, AList.mem_lookup_iff.mpr hpair, rfl⟩⟩
  · rintro ⟨o, ho⟩
    cases o with
    | udpSocket => exact .inl (.inl (.inl ho))
    | tcpListener => exact .inl (.inl (.inr ho))
    | connection kind id =>
      cases kind with
      | accepted =>
        obtain ⟨connection, hlookup, heq⟩ := fdOf_accepted_iff.mp ho
        exact .inr ⟨⟨id, connection⟩, AList.mem_lookup_iff.mp hlookup, heq⟩
      | outgoing =>
        obtain ⟨connection, hout, heq⟩ := fdOf_outgoing_iff.mp ho
        exact .inl (.inr ⟨(id, connection), hout, heq⟩)

/-- The sockets are the UDP socket and the listener. -/
theorem mem_sockets_iff : fd ∈ s.sockets ↔ s.udpSocket = some fd ∨ s.tcpListener = some fd := by
  simp only [sockets, List.mem_append, Option.mem_toList]

/-- What a search by descriptor finds has it. -/
theorem fdOf_getTcpConnection (h : s.getTcpConnection fd = some (id, connection)) :
    s.fdOf (.connection .accepted id) = some fd := by
  have hlookup := getTcpConnection_lookup h
  obtain ⟨pair, hfind, heq⟩ := Option.map_eq_some_iff.mp h
  cases heq
  have hfd := List.find?_some hfind
  exact fdOf_accepted_iff.mpr ⟨pair.2, hlookup, of_decide_eq_true hfd⟩

/-! ## What a handler does to the table -/

/-- The sockets, their descriptors, the ids given out and the announcements stay. Buffers, queues
and the poll table may change. -/
structure SameTables (s t : BaseServer) : Prop where
  fdOf : t.fdOf = s.fdOf
  generatedUUIDs : t.generatedUUIDs = s.generatedUUIDs
  announcements : t.announcements = s.announcements

/-- The poll table stays too. -/
structure Keeps (s t : BaseServer) : Prop extends SameTables s t where
  poll : t.poll = s.poll

/-- What one event, or one request, does to the table. `os` is what the OS answered; `ready` holds
where the event says that the listener has a stream to accept. -/
inductive Change (os : OsAnswers) (ready : Prop) (s t : BaseServer) : Prop
  | keeps : Keeps s t → Change os ready s t
  /-- A connection is taken out, with its entry of the poll table. -/
  | detaches (kind : ConnectionKind) (id : Uuid) (fd : Fd) :
      s.fdOf (.connection kind id) = some fd →
      t.fdOf = Function.update s.fdOf (.connection kind id) none → t.poll = s.poll.remove fd →
      t.generatedUUIDs = s.generatedUUIDs →
      t.announcements = s.announcements ++ [(.tcpDisconnection, id)] → Change os ready s t
  /-- A stream is accepted. -/
  | accepts (fd : Fd) : ready → os.accept = .ok fd →
      t.fdOf = Function.update s.fdOf (.connection .accepted os.newUuid) (some fd) →
      t.poll = s.poll.add fd → t.generatedUUIDs = os.newUuid :: s.generatedUUIDs →
      t.announcements = s.announcements ++ [(.tcpConnection, os.newUuid)] → Change os ready s t
  /-- A stream is registered and closed again. -/
  | acceptFails (fd : Fd) (e : ErrorCode) : ready → os.accept = .ok fd →
      os.setNonblocking = .error e →
      SameTables s t → t.poll = s.poll.add fd → Change os ready s t

/-- Two steps that change no table. -/
theorem SameTables.trans {s' : BaseServer} (h : SameTables s s') (h' : SameTables s' t) :
    SameTables s t :=
  ⟨h'.fdOf.trans h.fdOf, h'.generatedUUIDs.trans h.generatedUUIDs,
    h'.announcements.trans h.announcements⟩

/-- Nothing happened. -/
theorem Keeps.refl (s : BaseServer) : Keeps s s := ⟨⟨rfl, rfl, rfl⟩, rfl⟩

/-- Two steps that keep the owners and announce nothing. -/
theorem Keeps.trans {s' : BaseServer} (h : Keeps s s') (h' : Keeps s' t) : Keeps s t :=
  ⟨h.toSameTables.trans h'.toSameTables, h'.poll.trans h.poll⟩

/-- Where at most the queues of messages and of requests differ. -/
theorem keeps_of_eq (hudp : t.udpSocket = s.udpSocket) (hlistener : t.tcpListener = s.tcpListener)
    (hout : t.tcpConnection = s.tcpConnection) (hin : t.tcpConnections = s.tcpConnections)
    (hpoll : t.poll = s.poll) (hgiven : t.generatedUUIDs = s.generatedUUIDs)
    (hevents : t.tcpEvents = s.tcpEvents) : Keeps s t := by
  refine ⟨⟨?_, hgiven, ?_⟩, hpoll⟩
  · funext o
    cases o with
    | udpSocket => exact hudp
    | tcpListener => exact hlistener
    | connection kind id =>
      cases kind with
      | accepted => simp only [fdOf, BaseServer.connection, hin]
      | outgoing => simp only [fdOf, BaseServer.connection, hout]
  · rw [announcements, hevents, announcements]

/-- What was allowed stays allowed. -/
theorem Change.mono {ready' : Prop} (hready : ready → ready') (h : Change os ready s t) :
    Change os ready' s t := by
  cases h with
  | keeps h => exact .keeps h
  | detaches kind id fd hfd ht hp hg ha => exact .detaches kind id fd hfd ht hp hg ha
  | accepts fd hr hok ht hp hg ha => exact .accepts fd (hready hr) hok ht hp hg ha
  | acceptFails fd e hr hok herror h hp => exact .acceptFails fd e (hready hr) hok herror h hp

/-- What comes after a step that keeps the tables. -/
theorem Change.after {s' : BaseServer} (h : Keeps s s') (h' : Change os ready s' t) :
    Change os ready s t := by
  have hfdOf := h.fdOf
  have hgiven := h.generatedUUIDs
  have hannounced := h.announcements
  have hpoll := h.poll
  cases h' with
  | keeps h' => exact .keeps (h.trans h')
  | detaches kind id fd hfd ht hp hg ha =>
    rw [hfdOf] at hfd ht
    rw [hpoll] at hp
    exact .detaches kind id fd hfd ht hp (hg.trans hgiven) (hannounced ▸ ha)
  | accepts fd hready hok ht hp hg ha =>
    rw [hfdOf] at ht
    rw [hpoll] at hp
    rw [hgiven] at hg
    exact .accepts fd hready hok ht hp hg (hannounced ▸ ha)
  | acceptFails fd e hready hok herror hsame hp =>
    rw [hpoll] at hp
    exact .acceptFails fd e hready hok herror (h.toSameTables.trans hsame) hp

/-- Pushing a Read event announces nothing. -/
theorem announcements_pushRead (s : BaseServer) (id : Uuid) :
    (s.pushEvent .tcpRead id).announcements = s.announcements := by
  simp [announcements, pushEvent]

/-- An event that says there are bytes announces nothing. -/
theorem Keeps.pushRead (h : Keeps s t) (id : Uuid) : Keeps s (t.pushEvent .tcpRead id) :=
  ⟨⟨h.fdOf, h.generatedUUIDs, (announcements_pushRead t id).trans h.announcements⟩, h.poll⟩

/-- Any other event is an announcement, in the order of the events. -/
theorem announcements_push {event : TCPEvent} (h : event ≠ .tcpRead) (s : BaseServer) (id : Uuid) :
    (s.pushEvent event id).announcements = s.announcements ++ [(event, id)] := by
  simp [announcements, pushEvent, h]

/-- A connection of the map changed in place, on its descriptor. -/
theorem keeps_setConnection (h : s.tcpConnections.lookup id = some connection)
    (hfd : connection'.stream.fd = connection.stream.fd) :
    Keeps s (s.setConnection id connection') := by
  refine ⟨⟨?_, rfl, rfl⟩, rfl⟩
  funext o
  cases o with
  | udpSocket => rfl
  | tcpListener => rfl
  | connection kind id' =>
    cases kind with
    | outgoing => rfl
    | accepted =>
      show ((s.tcpConnections.insert id connection').lookup id').map _ =
        (s.tcpConnections.lookup id').map _
      by_cases heq : id' = id
      · rw [heq, AList.lookup_insert, h, Option.map_some, Option.map_some, hfd]
      · rw [AList.lookup_insert_ne heq]

/-- The outgoing connection changed in place, on its descriptor. -/
theorem keeps_outgoing (h : s.tcpConnection = some (id, connection))
    (hfd : connection'.stream.fd = connection.stream.fd) :
    Keeps s { s with tcpConnection := some (id, connection') } := by
  refine ⟨⟨?_, rfl, rfl⟩, rfl⟩
  funext o
  cases o with
  | udpSocket => rfl
  | tcpListener => rfl
  | connection kind id' =>
    cases kind with
    | accepted => rfl
    | outgoing =>
      by_cases heq : id = id'
      · simp [fdOf, BaseServer.connection, h, Option.filter_some, heq, hfd]
      · simp [fdOf, BaseServer.connection, h, Option.filter_some, heq]

/-- Using a reader touches no socket. -/
theorem keeps_setReader (s : BaseServer) (kind : ConnectionKind) (id : Uuid) (reader : BufReader) :
    Keeps s (s.setReader kind id reader) := by
  cases kind with
  | accepted =>
    simp only [setReader]
    split
    next => exact .refl s
    next connection hlookup => exact keeps_setConnection hlookup rfl
  | outgoing =>
    simp only [setReader]
    cases hout : s.tcpConnection with
    | none =>
      simp only [Option.map_none]
      exact keeps_of_eq rfl rfl hout.symm rfl rfl rfl rfl
    | some pair => exact keeps_outgoing hout rfl

/-- The outgoing connection is made. -/
theorem fdOf_connected (h : s.tcpConnection = none) :
    { s with tcpConnection := some (id, TcpConnection.new fd) }.fdOf =
      Function.update s.fdOf (.connection .outgoing id) (some fd) := by
  funext o
  cases o with
  | udpSocket => rfl
  | tcpListener => rfl
  | connection kind id' =>
    cases kind with
    | accepted => rfl
    | outgoing =>
      by_cases heq : id = id'
      · subst heq
        rw [Function.update_self]
        simp [fdOf, BaseServer.connection, Option.filter_some, TcpConnection.new]
      · have hne : ¬ id' = id := fun h => heq h.symm
        rw [Function.update_of_ne (by simpa using hne)]
        simp [fdOf, BaseServer.connection, h, Option.filter_some, heq]

/-- The connection of the id goes out of the map. -/
theorem fdOf_disconnectTcpConnection (h : s.tcpConnections.lookup id = some connection) :
    (s.disconnectTcpConnection id).fdOf =
      Function.update s.fdOf (.connection .accepted id) none := by
  have hin : id ∈ s.tcpConnections := AList.lookup_isSome.mp (Option.isSome_of_eq_some h)
  funext o
  rw [disconnectTcpConnection, if_pos hin, detachConnection, h]
  cases o with
  | udpSocket => rfl
  | tcpListener => rfl
  | connection kind id' =>
    cases kind with
    | outgoing => rfl
    | accepted =>
      show ((s.tcpConnections.erase id).lookup id').map _ = _
      by_cases heq : id' = id
      · rw [heq, AList.lookup_erase, Function.update_self, Option.map_none]
      · rw [AList.lookup_erase_ne heq, Function.update_of_ne (by simpa using heq)]
        rfl

/-- The outgoing connection is reset. -/
theorem fdOf_disconnectTcpConnectionSingle (h : s.tcpConnection = some (id, connection)) :
    s.disconnectTcpConnectionSingle.fdOf =
      Function.update s.fdOf (.connection .outgoing id) none := by
  funext o
  simp only [disconnectTcpConnectionSingle, h]
  cases o with
  | udpSocket => rfl
  | tcpListener => rfl
  | connection kind id' =>
    cases kind with
    | accepted => rfl
    | outgoing =>
      by_cases heq : id = id'
      · subst heq
        rw [Function.update_self]
        rfl
      · have hne : ¬ id' = id := fun h => heq h.symm
        rw [Function.update_of_ne (by simpa using hne)]
        simp [fdOf, BaseServer.connection, h, Option.filter_some, heq, resetConnection]

/-- An accepted stream gets its place in the map. -/
theorem fdOf_addAccepted (hnew : id ∉ s.tcpConnections) :
    (s.addAccepted id fd).fdOf = Function.update s.fdOf (.connection .accepted id) (some fd) := by
  simp only [addAccepted, emplaceConnection, if_neg hnew]
  funext o
  cases o with
  | udpSocket => rfl
  | tcpListener => rfl
  | connection kind id' =>
    cases kind with
    | outgoing => rfl
    | accepted =>
      show ((s.tcpConnections.insert id (TcpConnection.new fd)).lookup id').map _ = _
      by_cases heq : id' = id
      · rw [heq, AList.lookup_insert, Function.update_self]
        rfl
      · rw [AList.lookup_insert_ne heq, Function.update_of_ne (by simpa using heq)]
        rfl

/-- `disconnect_tcp_connection` takes one connection down, or nothing happens. -/
theorem change_disconnectTcpConnection (os : OsAnswers) (ready : Prop) (s : BaseServer)
    (id : Uuid) :
    Change os ready s (s.disconnectTcpConnection id) := by
  by_cases hin : id ∈ s.tcpConnections
  · obtain ⟨connection, hlookup⟩ := Option.isSome_iff_exists.mp (AList.lookup_isSome.mpr hin)
    refine .detaches .accepted id connection.stream.fd
      (fdOf_accepted_iff.mpr ⟨connection, hlookup, rfl⟩) (fdOf_disconnectTcpConnection hlookup)
      ?_ ?_ ?_
    · rw [disconnectTcpConnection, if_pos hin, detachConnection, hlookup]
      rfl
    · rw [disconnectTcpConnection, if_pos hin, detachConnection, hlookup]
      rfl
    · rw [disconnectTcpConnection, if_pos hin, announcements_push (by decide), detachConnection,
        hlookup]
      rfl
  · rw [disconnectTcpConnection, if_neg hin]
    exact .keeps (.refl s)

/-- And so does its sibling for the outgoing connection. -/
theorem change_disconnectTcpConnectionSingle (os : OsAnswers) (ready : Prop) (s : BaseServer) :
    Change os ready s s.disconnectTcpConnectionSingle := by
  cases hout : s.tcpConnection with
  | none =>
    simp only [disconnectTcpConnectionSingle, hout]
    exact .keeps (.refl s)
  | some pair =>
    obtain ⟨id, connection⟩ := pair
    have hfdOf := fdOf_disconnectTcpConnectionSingle hout
    simp only [disconnectTcpConnectionSingle, hout] at hfdOf ⊢
    exact .detaches .outgoing id connection.stream.fd
      (fdOf_outgoing_iff.mpr ⟨connection, hout, rfl⟩) hfdOf rfl rfl
      (announcements_push (by decide) _ _)

/-- `handle_new_tcp_connections` makes one connection, or nothing happens. -/
theorem change_handleNewTcpConnections (hnew : os.newUuid ∉ s.tcpConnections) (hready : ready) :
    Change os ready s (s.handleNewTcpConnections os) := by
  unfold handleNewTcpConnections
  split
  next => exact .keeps (.refl s)
  next fd hok =>
  simp only
  split
  next e herror => exact .acceptFails fd e hready hok herror ⟨rfl, rfl, rfl⟩ rfl
  next =>
    refine .accepts fd hready hok (fdOf_addAccepted hnew) ?_ ?_ ?_
    · simp only [addAccepted, emplaceConnection, if_neg hnew]
      rfl
    · simp only [addAccepted, emplaceConnection, if_neg hnew]
      rfl
    · simp only [addAccepted, emplaceConnection, if_neg hnew]
      exact announcements_push (by decide) _ _

/-- Reading from the outgoing connection changes no owner, whatever the answer. -/
theorem keeps_handleTcpReadConnection (s : BaseServer) (os : OsAnswers) :
    Keeps s (s.handleTcpReadConnection os) := by
  unfold handleTcpReadConnection
  split
  next => exact .refl s
  next id connection hout =>
  have hkeeps : Keeps s { s with tcpConnection := some (id, { connection with
      reader := (connection.reader.fillBuf os.read).1 }) } := keeps_outgoing hout rfl
  simp only
  split
  next => exact hkeeps
  next =>
    split
    · exact hkeeps
    · exact hkeeps.pushRead id

/-- Reading from an accepted connection may take it down. -/
theorem change_handleTcpReadEvents (s : BaseServer) (fd : Fd) (os : OsAnswers) (ready : Prop) :
    Change os ready s (s.handleTcpReadEvents fd os) := by
  unfold handleTcpReadEvents
  split
  next => exact .keeps (.refl s)
  next id connection hget =>
  have hkeeps : Keeps s (s.setConnection id { connection with
      reader := (connection.reader.fillBuf os.read).1 }) :=
    keeps_setConnection (getTcpConnection_lookup hget) rfl
  simp only
  split
  next => exact .keeps hkeeps
  next =>
    split
    · exact Change.after hkeeps (change_disconnectTcpConnection os ready _ id)
    · exact .keeps (hkeeps.pushRead id)

/-- Writing to an accepted connection may take it down. -/
theorem change_handleTcpWriteEvents (s : BaseServer) (fd : Fd) (os : OsAnswers) (ready : Prop) :
    Change os ready s (s.handleTcpWriteEvents fd os) := by
  unfold handleTcpWriteEvents
  split
  next => exact .keeps (.refl s)
  next id connection hget =>
  have hkeeps : Keeps s (s.setConnection id (flushed connection
      (connection.writer.flush os.write).1 (connection.writer.flush os.write).2.1)) :=
    keeps_setConnection (getTcpConnection_lookup hget) rfl
  simp only
  split
  next => exact Change.after hkeeps (change_disconnectTcpConnection os ready _ id)
  next => exact .keeps hkeeps

/-- Writing to the outgoing connection may take it down. -/
theorem change_handleTcpWriteConnection (s : BaseServer) (os : OsAnswers) (ready : Prop) :
    Change os ready s (s.handleTcpWriteConnection os) := by
  unfold handleTcpWriteConnection
  split
  next => exact .keeps (.refl s)
  next id connection hout =>
  have hkeeps : Keeps s { s with tcpConnection := some (id, flushed connection
      (connection.writer.flush os.write).1 (connection.writer.flush os.write).2.1) } :=
    keeps_outgoing hout rfl
  simp only
  split
  next => exact Change.after hkeeps (change_disconnectTcpConnectionSingle os ready _)
  next => exact .keeps hkeeps

/-- A datagram changes no owner. -/
theorem keeps_handleUdpReadEvent (isValidUdpMessage : List UInt8 → Bool) (s : BaseServer)
    (os : OsAnswers) : Keeps s (s.handleUdpReadEvent isValidUdpMessage os) := by
  unfold handleUdpReadEvent
  split
  next => exact .refl s
  next =>
    simp only
    split
    · exact .refl s
    · split
      · exact .refl s
      · exact keeps_of_eq rfl rfl rfl rfl rfl rfl rfl

/-- Nor does one that is sent. -/
theorem keeps_handleUdpWriteEvent (s : BaseServer) : Keeps s s.handleUdpWriteEvent :=
  keeps_of_eq rfl rfl rfl rfl rfl rfl rfl

/-- An error takes the connection down whose descriptor it is, if there is one. -/
theorem change_handleError (os : OsAnswers) (ready : Prop) (s : BaseServer) (fd : Fd) :
    Change os ready s (s.handleError fd) := by
  unfold handleError
  split
  next => exact .keeps (.refl s)
  next =>
  split
  next => exact .keeps (.refl s)
  next =>
  split
  next => exact change_disconnectTcpConnectionSingle os ready s
  next =>
    split
    next => exact .keeps (.refl s)
    next => exact change_disconnectTcpConnection os ready s _

/-- The event says that the listener has a stream to accept. -/
def Accepting (s : BaseServer) (event : PollEvent) : Prop :=
  event.type = .read ∧ s.tcpListener = some event.fd

/-- **What one event of a batch does to the table.** -/
theorem change_handleEvent (isValidUdpMessage : List UInt8 → Bool) (event : PollEvent)
    (hnew : os.newUuid ∉ s.tcpConnections) :
    Change os (s.Accepting event) s (s.handleEvent isValidUdpMessage event os) := by
  unfold handleEvent
  split
  next htype =>
    unfold handleRead
    split
    next => exact .keeps (keeps_handleUdpReadEvent isValidUdpMessage s os)
    next =>
    split
    next hlistener => exact change_handleNewTcpConnections hnew ⟨htype, hlistener⟩
    next =>
    split
    · exact .keeps (keeps_handleTcpReadConnection s os)
    · exact change_handleTcpReadEvents s event.fd os _
  next =>
    unfold handleWrite
    split
    next => exact .keeps (keeps_handleUdpWriteEvent s)
    next =>
    split
    · exact change_handleTcpWriteConnection s os _
    · exact change_handleTcpWriteEvents s event.fd os _
  next => exact change_handleError os _ s event.fd

/-- An event of the UDP socket. -/
theorem keeps_handleEvent_udpSocket (isValidUdpMessage : List UInt8 → Bool) (os : OsAnswers)
    {event : PollEvent} (h : s.udpSocket = some event.fd) :
    Keeps s (s.handleEvent isValidUdpMessage event os) := by
  unfold handleEvent handleRead handleWrite handleError
  rw [if_pos h, if_pos h, if_pos h]
  split
  · exact keeps_handleUdpReadEvent isValidUdpMessage s os
  · exact keeps_handleUdpWriteEvent s
  · exact .refl s

/-- A request takes one connection down, or nobody. -/
theorem change_handleDisconnection (os : OsAnswers) (ready : Prop) (s : BaseServer) :
    Change os ready s s.handleDisconnection := by
  unfold handleDisconnection
  split
  next => exact .keeps (.refl s)
  next id rest _ =>
    have hkeeps : Keeps s { s with disconnectQueue := rest } :=
      keeps_of_eq rfl rfl rfl rfl rfl rfl rfl
    exact Change.after hkeeps (change_disconnectTcpConnection os ready _ id)

/-- Bytes that go from the queue to a writer change no owner. -/
theorem keeps_appendQueued (s : BaseServer) : Keeps s s.appendQueued := by
  unfold appendQueued
  split
  next => exact .refl s
  next id data rest _ =>
    have hkeeps : Keeps s { s with sendTcpQueue := rest } :=
      keeps_of_eq rfl rfl rfl rfl rfl rfl rfl
    simp only
    split
    next => exact hkeeps
    next connection hlookup =>
      exact hkeeps.trans (keeps_setConnection hlookup rfl)

/-! ## Preparing the poll table -/

/-- The poll table is none of the tables. -/
theorem sameTables_poll (s : BaseServer) (poll : Poll) : SameTables s { s with poll := poll } := by
  refine ⟨?_, rfl, rfl⟩
  funext o
  cases o with
  | udpSocket => rfl
  | tcpListener => rfl
  | connection kind id => cases kind <;> rfl

section Prepare

variable {P : Poll → Prop} {poll : Poll}

/-- What holds after either answer of `poll_writer` holds after it. -/
theorem pollWriter_induction (hadd : P (poll.addWrite connection.stream.fd))
    (hremove : P (poll.removeWrite connection.stream.fd)) : P (pollWriter poll connection) := by
  unfold pollWriter
  split
  · exact hremove
  · exact hadd

/-- And what one turn of the loop over the connections keeps, the loop keeps. -/
theorem foldl_pollWriter_induction {entries : List (Sigma fun _ : Uuid => TcpConnection)}
    (hstep : ∀ poll, ∀ pair ∈ entries, P poll → P (pollWriter poll pair.2)) :
    ∀ {poll : Poll}, P poll → P (entries.foldl (fun poll pair => pollWriter poll pair.2) poll) := by
  induction entries with
  | nil => exact id
  | cons pair entries ih =>
    intro poll h
    refine ih ?_ (hstep poll pair List.mem_cons_self h)
    intro poll pair hpair
    exact hstep poll pair (List.mem_cons_of_mem _ hpair)

/-- What asking for the write events of the server's own descriptors, and no longer asking for them,
keeps of the poll table, `prepare_write` keeps; and it changes nothing else. -/
theorem prepareWrite_induction
    (hadd : ∀ poll fd, fd ∈ s.descriptors → P poll → P (poll.addWrite fd))
    (hremove : ∀ poll fd, fd ∈ s.descriptors → P poll → P (poll.removeWrite fd)) (h : P s.poll) :
    ∃ poll, s.prepareWrite = { s with poll := poll } ∧ P poll := by
  have hwriter : ∀ poll (connection : TcpConnection), connection.stream.fd ∈ s.descriptors →
      P poll → P (pollWriter poll connection) := fun poll connection hfd hP =>
    pollWriter_induction (hadd poll _ hfd hP) (hremove poll _ hfd hP)
  have hout : ∃ poll, s.handleTcpConnectionWrite = { s with poll := poll } ∧ P poll := by
    unfold handleTcpConnectionWrite
    split
    next => exact ⟨s.poll, rfl, h⟩
    next id connection hout =>
      refine ⟨_, rfl, hwriter s.poll connection (mem_descriptors.mpr ?_) h⟩
      exact ⟨.connection .outgoing id, fdOf_outgoing_iff.mpr ⟨connection, hout, rfl⟩⟩
  obtain ⟨poll, heq, hpoll⟩ := hout
  have hin : P (s.tcpConnections.entries.foldl (fun poll pair => pollWriter poll pair.2) poll) := by
    refine foldl_pollWriter_induction ?_ hpoll
    intro poll pair hpair
    refine hwriter poll pair.2 (mem_descriptors.mpr ?_)
    exact ⟨.connection .accepted pair.1,
      fdOf_accepted_iff.mpr ⟨pair.2, AList.mem_lookup_iff.mpr hpair, rfl⟩⟩
  simp only [prepareWrite, heq, handleTcpConnectionsWrite, handleUdpSocketWrite]
  split
  next => exact ⟨_, rfl, hin⟩
  next fd hudp =>
    have hfd : fd ∈ s.descriptors := mem_descriptors.mpr ⟨.udpSocket, hudp⟩
    refine ⟨_, rfl, ?_⟩
    split
    · exact hremove _ fd hfd hin
    · exact hadd _ fd hfd hin

end Prepare

/-! ## No descriptor and no id twice -/

/-- No two owners share a descriptor, no two connections share an id, and every id comes from the
generator. -/
structure Sound (s : BaseServer) : Prop where
  distinct : ∀ o o' fd, s.fdOf o = some fd → s.fdOf o' = some fd → o = o'
  given : ∀ kind id fd, s.fdOf (.connection kind id) = some fd → id ∈ s.generatedUUIDs
  oneKind : ∀ kind kind' id fd fd', s.fdOf (.connection kind id) = some fd →
    s.fdOf (.connection kind' id) = some fd' → kind = kind'

/-- What is found after an update is the new value, or it was there before. -/
theorem update_eq_some {f : Owner → Option Fd} {o o' : Owner} {v : Option Fd}
    (h : Function.update f o v o' = some fd) :
    (o' = o ∧ v = some fd) ∨ (o' ≠ o ∧ f o' = some fd) := by
  by_cases heq : o' = o
  · subst heq
    rw [Function.update_self] at h
    exact .inl ⟨rfl, h⟩
  · rw [Function.update_of_ne heq] at h
    exact .inr ⟨heq, h⟩

/-- A step that changes no table keeps them sound. -/
theorem Sound.same (hs : Sound s) (h : SameTables s t) : Sound t where
  distinct := h.fdOf ▸ hs.distinct
  given := by
    rw [h.fdOf, h.generatedUUIDs]
    exact hs.given
  oneKind := h.fdOf ▸ hs.oneKind

/-- An owner that goes takes its descriptor along, so that no two owners share one. -/
theorem Sound.detach (hs : Sound s) {o : Owner} (ht : t.fdOf = Function.update s.fdOf o none)
    (hgiven : t.generatedUUIDs = s.generatedUUIDs) : Sound t := by
  have hold : ∀ o' fd, t.fdOf o' = some fd → s.fdOf o' = some fd := by
    intro o' fd h
    rw [ht] at h
    rcases update_eq_some h with ⟨-, hnone⟩ | ⟨-, hfd⟩
    · cases hnone
    · exact hfd
  refine ⟨?_, ?_, ?_⟩
  · intro o₁ o₂ fd h₁ h₂
    exact hs.distinct o₁ o₂ fd (hold o₁ fd h₁) (hold o₂ fd h₂)
  · intro kind id fd h
    rw [hgiven]
    exact hs.given kind id fd (hold _ fd h)
  · intro kind kind' id fd fd' h h'
    exact hs.oneKind kind kind' id fd fd' (hold _ fd h) (hold _ fd' h')

/-- A new descriptor goes to an owner, which is a socket or a connection with a new id. -/
theorem Sound.attach (hs : Sound s) {o : Owner} (hfd : fd ∉ s.descriptors)
    (ht : t.fdOf = Function.update s.fdOf o (some fd))
    (hnew : ∀ kind id, o = .connection kind id → id ∉ s.generatedUUIDs ∧ id ∈ t.generatedUUIDs)
    (hgiven : s.generatedUUIDs ⊆ t.generatedUUIDs) : Sound t := by
  have hfree : ∀ o', s.fdOf o' ≠ some fd := by
    intro o' h
    exact hfd (mem_descriptors.mpr ⟨o', h⟩)
  refine ⟨?_, ?_, ?_⟩
  · intro o₁ o₂ fd' h₁ h₂
    rw [ht] at h₁ h₂
    rcases update_eq_some h₁ with ⟨heq₁, hv₁⟩ | ⟨-, h₁⟩
    · cases hv₁
      rcases update_eq_some h₂ with ⟨heq₂, -⟩ | ⟨-, h₂⟩
      · rw [heq₁, heq₂]
      · exact absurd h₂ (hfree o₂)
    · rcases update_eq_some h₂ with ⟨-, hv₂⟩ | ⟨-, h₂⟩
      · cases hv₂
        exact absurd h₁ (hfree o₁)
      · exact hs.distinct o₁ o₂ fd' h₁ h₂
  · intro kind id fd' h
    rw [ht] at h
    rcases update_eq_some h with ⟨heq, -⟩ | ⟨-, h⟩
    · exact (hnew kind id heq.symm).2
    · exact hgiven (hs.given kind id fd' h)
  · intro kind kind' id fd₁ fd₂ h₁ h₂
    rw [ht] at h₁ h₂
    rcases update_eq_some h₁ with ⟨heq₁, -⟩ | ⟨-, h₁⟩
    · rcases update_eq_some h₂ with ⟨heq₂, -⟩ | ⟨-, h₂⟩
      · cases heq₁.trans heq₂.symm
        rfl
      · exact absurd (hs.given kind' id fd₂ h₂) (hnew kind id heq₁.symm).1
    · rcases update_eq_some h₂ with ⟨heq₂, -⟩ | ⟨-, h₂⟩
      · exact absurd (hs.given kind id fd₁ h₁) (hnew kind' id heq₂.symm).1
      · exact hs.oneKind kind kind' id fd₁ fd₂ h₁ h₂

/-- A handler keeps the tables sound, as the OS makes no descriptor that is open and no id is given
out twice. -/
theorem Sound.change (hs : Sound s) (hnew : ready → os.newUuid ∉ s.generatedUUIDs)
    (hunused : ∀ fd, os.accept = .ok fd → fd ∉ s.descriptors) (h : Change os ready s t) :
    Sound t := by
  cases h with
  | keeps h => exact hs.same h.toSameTables
  | detaches kind id fd hfd ht hpoll hgiven => exact hs.detach ht hgiven
  | accepts fd hready hok ht hpoll hgiven =>
    refine hs.attach (hunused fd hok) ht ?_ ?_
    · intro kind id heq
      cases heq
      exact ⟨hnew hready, hgiven ▸ List.mem_cons_self⟩
    · rw [hgiven]
      exact List.subset_cons_self _ _
  | acceptFails fd e hready hok herror h => exact hs.same h

/-- An id that was not given out has no connection. -/
theorem Sound.not_mem (hs : Sound s) (h : id ∉ s.generatedUUIDs) : id ∉ s.tcpConnections := by
  intro hin
  obtain ⟨connection, hlookup⟩ := Option.isSome_iff_exists.mp (AList.lookup_isSome.mpr hin)
  exact h (hs.given .accepted id _ (fdOf_accepted_iff.mpr ⟨connection, hlookup, rfl⟩))

/-- The listener is not the UDP socket. -/
theorem Sound.listener_free (hs : Sound s) :
    ∀ fd ∈ s.tcpListener, fd ∉ s.udpSocket.toList := by
  intro fd hfd hudp
  cases hs.distinct .tcpListener .udpSocket fd hfd (Option.mem_toList.mp hudp)

/-- No connection has the descriptor of a socket. -/
theorem Sound.connection_free (hs : Sound s) (h : s.fdOf (.connection kind id) = some fd) :
    fd ∉ s.sockets := by
  intro hsocket
  rcases mem_sockets_iff.mp hsocket with hudp | hlistener
  · cases hs.distinct _ .udpSocket fd h hudp
  · cases hs.distinct _ .tcpListener fd h hlistener

/-- The outgoing connection's descriptor is neither of them. -/
theorem Sound.outgoing_free (hs : Sound s) :
    ∀ fd ∈ s.tcpConnection.map (·.2.stream.fd), fd ∉ s.sockets := by
  intro fd hfd
  obtain ⟨pair, hpair, heq⟩ := Option.map_eq_some_iff.mp hfd
  exact hs.connection_free (fdOf_outgoing_iff.mpr ⟨pair.2, hpair, heq⟩)

/-- So the table that `run_context` makes has each descriptor once. -/
theorem Sound.nodup_front (hs : Sound s) :
    (s.sockets ++ (s.tcpConnection.map (·.2.stream.fd)).toList).Nodup := by
  have hudp : s.udpSocket.toList.Nodup :=
    Poll.nodup_append_toList List.nodup_nil s.udpSocket fun _ _ => List.not_mem_nil
  exact Poll.nodup_append_toList
    (Poll.nodup_append_toList hudp s.tcpListener hs.listener_free) _ hs.outgoing_free

/-- The table the loop starts with: the sockets in front, then the outgoing connection. -/
theorem Sound.poll_runContext (hs : Sound s) : s.runContext.poll =
    Poll.polling (s.sockets ++ (s.tcpConnection.map (·.2.stream.fd)).toList) := by
  have hudp : s.udpSocket.elim ⟨[]⟩ (Poll.add ⟨[]⟩) = Poll.polling s.udpSocket.toList :=
    Poll.elim_add s.udpSocket fun _ _ => List.not_mem_nil
  have hmap : ∀ poll : Poll, s.tcpConnection.elim poll (fun pair => poll.add pair.2.stream.fd) =
      (s.tcpConnection.map (·.2.stream.fd)).elim poll poll.add := by
    intro poll
    cases s.tcpConnection <;> rfl
  simp only [runContext]
  rw [hudp, Poll.elim_add s.tcpListener hs.listener_free, hmap, ← sockets,
    Poll.elim_add _ hs.outgoing_free]

end BaseServer

end ProjectE.Net
