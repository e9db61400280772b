import ProjectE.Lib.Custody
import ProjectE.Net.Context
import ProjectE.Net.Setup

/-!
# Descriptors in the hands of the server

Which descriptors the server gets from the OS, and which it closes, in the order of the calls, for
each handler of the loop and each call that makes a socket; and what becomes of its tables next to
that (`Custody.Transfer`).

A `TcpConnection` closes its stream when it is destroyed, and every path that takes a connection
down has closed the stream before that: `disconnect_tcp_connection` and its sibling, and the
destructor of the server. A stream that cannot be set up after `accept` is closed once.

A socket goes through several calls of the OS before the server has it (`Making`). Where `bind` or
`connect` fails it is closed once, and where `set_reuse_addr` fails it is closed too, but kept if
`listen` succeeds all the same. Where `listen` fails nothing closes it, and nothing closes a socket
that another one is put in the place of (`Making.lost`).
-/

namespace ProjectE.Net

open Verif Protocol

/-- What a handler gets from the OS, and what it closes. -/
structure Handed where
  obtained : List Fd
  closes : List Fd
deriving DecidableEq

/-- Nothing is obtained or closed. -/
def Handed.nothing : Handed := ⟨[], []⟩

/-- `close_socket`: it calls `shutdown`, and `close` only where that succeeds. -/
def closeSocket (shutdown : Bool) (fd : Fd) : List (Custody.Event × Fd) :=
  (Custody.attempt shutdown).map fun event => (event, fd)

/-- The calls into the OS, where `oks` says which of the calls of `shutdown` succeed. -/
def Handed.calls (handed : Handed) (oks : List Bool) : List (Custody.Event × Fd) :=
  handed.obtained.map (fun fd => (.obtained, fd)) ++
    (oks.zip handed.closes).flatMap fun (ok, fd) => closeSocket ok fd

/-- `close`, by `close_socket`. -/
def TcpStream.close (stream : TcpStream) : List Fd := [stream.fd]

/-- `~TcpConnection`: it closes its stream, whether that was closed before or not. -/
def TcpConnection.destroy (connection : TcpConnection) : List Fd := connection.stream.close

/-- A socket that cannot be bound is closed. -/
def Socket.createHanded (os : SocketCalls) : Handed :=
  match os.socket with
  | .error _ => .nothing
  | .ok sockfd =>
    match os.bind with
    | .error _ => ⟨[sockfd], [sockfd]⟩
    | .ok () => ⟨[sockfd], []⟩

/-- A socket on which `set_reuse_addr` fails is closed there. One on which `listen` fails is not. -/
def TcpListener.bindHanded (os : SocketCalls) : Handed :=
  match Socket.create os with
  | .error _ => Socket.createHanded os
  | .ok sockfd =>
    match os.setsockopt with
    | .error _ => ⟨[sockfd], [sockfd]⟩
    | .ok () => ⟨[sockfd], []⟩

/-- A socket that cannot be connected is closed. -/
def TcpStream.connectHanded (os : SocketCalls) : Handed :=
  match os.socket with
  | .error _ => .nothing
  | .ok sockfd =>
    match os.connect with
    | .error _ => ⟨[sockfd], [sockfd]⟩
    | .ok () => ⟨[sockfd], []⟩

/-- How the making of a socket can go: what is obtained and closed, and the socket the call has in
the end, if it has one. -/
inductive Makes : Handed → Option Fd → Prop
  | none : Makes .nothing none
  | kept (fd : Fd) : Makes ⟨[fd], []⟩ (some fd)
  | refused (fd : Fd) : Makes ⟨[fd], [fd]⟩ none
  /-- `listen` fails. -/
  | left (fd : Fd) : Makes ⟨[fd], []⟩ none
  /-- `set_reuse_addr` fails and `listen` does not. -/
  | keptClosed (fd : Fd) : Makes ⟨[fd], [fd]⟩ (some fd)

/-- `Socket::create` closes what it cannot bind. -/
theorem makes_create (os : SocketCalls) :
    Makes (Socket.createHanded os) (Socket.create os).toOption := by
  unfold Socket.createHanded Socket.create
  cases os.socket with
  | error e => exact .none
  | ok sockfd =>
    cases os.bind with
    | error e => exact .refused sockfd
    | ok u => exact .kept sockfd

/-- `TcpListener::bind` can go all five ways. -/
theorem makes_bind (os : SocketCalls) :
    Makes (TcpListener.bindHanded os) (TcpListener.bind os).toOption := by
  have hcreate := makes_create os
  unfold TcpListener.bindHanded TcpListener.bind
  cases hres : Socket.create os with
  | error e =>
    rw [hres] at hcreate
    exact hcreate
  | ok sockfd =>
    cases os.setsockopt with
    | error e =>
      cases os.listen with
      | error e' => exact .refused sockfd
      | ok u => exact .keptClosed sockfd
    | ok u =>
      cases os.listen with
      | error e' => exact .left sockfd
      | ok u' => exact .kept sockfd

/-- `TcpStream::connect` closes what it cannot connect, whether or not the close succeeds. -/
theorem makes_connect (os : SocketCalls) :
    Makes (TcpStream.connectHanded os) (TcpStream.connect os).toOption := by
  unfold TcpStream.connectHanded TcpStream.connect
  cases os.socket with
  | error e => exact .none
  | ok sockfd =>
    cases os.connect with
    | error e =>
      cases os.close with
      | error e' => exact .refused sockfd
      | ok u => exact .refused sockfd
    | ok u => exact .kept sockfd

namespace BaseServer

/-- `disconnect_tcp_connection_single`: the stream is closed, and again by
`tcp_connection.reset`. -/
def disconnectTcpConnectionSingleHanded (s : BaseServer) : Handed :=
  match s.tcpConnection with
  | some (_, connection) => ⟨[], connection.stream.close ++ connection.destroy⟩
  | none => .nothing

/-- `disconnect_tcp_connection`: the stream is closed, and again by `tcp_connections.erase`. -/
def disconnectTcpConnectionHanded (s : BaseServer) (id : Uuid) : Handed :=
  match s.tcpConnections.lookup id with
  | none => .nothing
  | some connection => ⟨[], connection.stream.close ++ connection.destroy⟩

/-- A stream that cannot be set up is closed; no connection is made of it. -/
def handleNewTcpConnectionsHanded (os : OsAnswers) : Handed :=
  match os.accept with
  | .error _ => .nothing
  | .ok fd =>
    match os.setNonblocking with
    | .error _ => ⟨[fd], (TcpStream.mk fd []).close⟩
    | .ok () => ⟨[fd], []⟩

/-- Only the end of the stream takes the connection down; an error leaves it as it is. -/
def handleTcpReadEventsHanded (s : BaseServer) (fd : Fd) (os : OsAnswers) : Handed :=
  match s.getTcpConnection fd with
  | none => .nothing
  | some (id, connection) =>
    let (reader, res) := connection.reader.fillBuf os.read
    let s := s.setConnection id { connection with reader := reader }
    match res with
    | .error _ => .nothing
    | .ok buf => if buf.empty then s.disconnectTcpConnectionHanded id else .nothing

/-- An error of the flush takes the connection down. -/
def handleTcpWriteEventsHanded (s : BaseServer) (fd : Fd) (os : OsAnswers) : Handed :=
  match s.getTcpConnection fd with
  | none => .nothing
  | some (id, connection) =>
    let (writer, taken, res) := connection.writer.flush os.write
    let s := s.setConnection id (flushed connection writer taken)
    match res with
    | .error _ => s.disconnectTcpConnectionHanded id
    | .ok () => .nothing

/-- The outgoing connection goes the same way. -/
def handleTcpWriteConnectionHanded (s : BaseServer) (os : OsAnswers) : Handed :=
  match s.tcpConnection with
  | none => .nothing
  | some (id, connection) =>
    let (writer, taken, res) := connection.writer.flush os.write
    let s := { s with tcpConnection := some (id, flushed connection writer taken) }
    match res with
    | .error _ => s.disconnectTcpConnectionSingleHanded
    | .ok () => .nothing

/-- Of the four readers two have to do with descriptors: the listener and an accepted connection. -/
def handleReadHanded (s : BaseServer) (fd : Fd) (os : OsAnswers) : Handed :=
  if s.udpSocket = some fd then .nothing
  else if s.tcpListener = some fd then handleNewTcpConnectionsHanded os
  else if s.tcpConnection.map (·.2.stream.fd) = some fd then .nothing
  else s.handleTcpReadEventsHanded fd os

/-- A connection can be taken down by a write; a UDP socket cannot. -/
def handleWriteHanded (s : BaseServer) (fd : Fd) (os : OsAnswers) : Handed :=
  if s.udpSocket = some fd then .nothing
  else if s.tcpConnection.map (·.2.stream.fd) = some fd then s.handleTcpWriteConnectionHanded os
  else s.handleTcpWriteEventsHanded fd os

/-- An error on a connection takes it down; on a listener or a UDP socket nothing is done. -/
def handleErrorHanded (s : BaseServer) (fd : Fd) : Handed :=
  if s.udpSocket = some fd then .nothing
  else if s.tcpListener = some fd then .nothing
  else if s.tcpConnection.map (·.2.stream.fd) = some fd then s.disconnectTcpConnectionSingleHanded
  else
    match s.getTcpConnection fd with
    | none => .nothing
    | some (id, _) => s.disconnectTcpConnectionHanded id

/-- One turn of the loop over the batch of poll events. -/
def handleEventHanded (s : BaseServer) (event : PollEvent) (os : OsAnswers) : Handed :=
  match event.type with
  | .read => s.handleReadHanded event.fd os
  | .write => s.handleWriteHanded event.fd os
  | .error => s.handleErrorHanded event.fd

/-- One turn of the loop of `handle_disconnection`. -/
def handleDisconnectionHanded (s : BaseServer) : Handed :=
  match s.disconnectQueue with
  | [] => .nothing
  | id :: rest => { s with disconnectQueue := rest }.disconnectTcpConnectionHanded id

/-- `~BaseServer`: the body closes the accepted connections, the listener, the UDP socket and the
outgoing connection. Then the members are destroyed, the last one declared first. -/
def destroyCloses (s : BaseServer) : List Fd :=
  s.tcpConnections.entries.flatMap (fun pair => pair.2.stream.close) ++ s.tcpListener.toList ++
    s.udpSocket.toList ++ s.tcpConnection.toList.flatMap (fun pair => pair.2.stream.close) ++
    s.tcpConnections.entries.flatMap (fun pair => pair.2.destroy) ++
    s.tcpConnection.toList.flatMap (fun pair => pair.2.destroy)

/-! ## What a handler does with descriptors -/

variable {s t : BaseServer} {id : Uuid} {connection : TcpConnection} {fd : Fd} {os : OsAnswers}

/-- What a handler obtains and closes, next to what it does to the table. -/
inductive Hands (os : OsAnswers) (s t : BaseServer) : Handed → Prop
  | keeps : t.fdOf = s.fdOf → Hands os s t .nothing
  /-- A connection is taken down. -/
  | detaches (o : Owner) (fd : Fd) : s.fdOf o = some fd → t.fdOf = Function.update s.fdOf o none →
      Hands os s t ⟨[], [fd, fd]⟩
  /-- A stream is accepted. -/
  | attaches (o : Owner) (fd : Fd) : s.fdOf o = none → os.accept = .ok fd →
      t.fdOf = Function.update s.fdOf o (some fd) → Hands os s t ⟨[fd], []⟩
  /-- A stream is accepted and closed again. -/
  | refuses (fd : Fd) : os.accept = .ok fd → t.fdOf = s.fdOf → Hands os s t ⟨[fd], [fd]⟩

/-- What comes before a handler's own work and leaves the table alone does not count. -/
theorem Hands.after {s' : BaseServer} {handed : Handed} (h : s'.fdOf = s.fdOf)
    (h' : Hands os s' t handed) : Hands os s t handed := by
  cases h' with
  | keeps ht => exact .keeps (ht.trans h)
  | detaches o fd hfd ht => exact .detaches o fd (h ▸ hfd) (h ▸ ht)
  | attaches o fd hfd hok ht => exact .attaches o fd (h ▸ hfd) hok (h ▸ ht)
  | refuses fd hok ht => exact .refuses fd hok (ht.trans h)

/-- A connection of the table is closed twice, by its own close and by its destructor. -/
theorem hands_disconnectTcpConnection (os : OsAnswers) (s : BaseServer) (id : Uuid) :
    Hands os s (s.disconnectTcpConnection id) (s.disconnectTcpConnectionHanded id) := by
  unfold disconnectTcpConnectionHanded
  cases hlookup : s.tcpConnections.lookup id with
  | none =>
    have hout : id ∉ s.tcpConnections := AList.lookup_eq_none.mp hlookup
    rw [disconnectTcpConnection, if_neg hout]
    exact .keeps rfl
  | some connection =>
    exact .detaches (.connection .accepted id) connection.stream.fd
      (fdOf_accepted_iff.mpr ⟨connection, hlookup, rfl⟩) (fdOf_disconnectTcpConnection hlookup)

/-- So is the outgoing connection. -/
theorem hands_disconnectTcpConnectionSingle (os : OsAnswers) (s : BaseServer) :
    Hands os s s.disconnectTcpConnectionSingle s.disconnectTcpConnectionSingleHanded := by
  unfold disconnectTcpConnectionSingleHanded
  cases hout : s.tcpConnection with
  | none =>
    simp only [disconnectTcpConnectionSingle, hout]
    exact .keeps rfl
  | some pair =>
    obtain ⟨id, connection⟩ := pair
    exact .detaches (.connection .outgoing id) connection.stream.fd
      (fdOf_outgoing_iff.mpr ⟨connection, hout, rfl⟩) (fdOf_disconnectTcpConnectionSingle hout)

/-- An accepted stream gets a place of its own, as its id is new, or it is closed again. -/
theorem hands_handleNewTcpConnections (hnew : os.newUuid ∉ s.tcpConnections) :
    Hands os s (s.handleNewTcpConnections os) (handleNewTcpConnectionsHanded os) := by
  unfold handleNewTcpConnections handleNewTcpConnectionsHanded
  cases hok : os.accept with
  | error e => exact .keeps rfl
  | ok fd =>
    cases hset : os.setNonblocking with
    | error e => exact .refuses fd hok (sameTables_poll s _).fdOf
    | ok u =>
      have hfree : s.fdOf (.connection .accepted os.newUuid) = none := by
        rw [fdOf, BaseServer.connection, AList.lookup_eq_none.mpr hnew, Option.map_none]
      refine .attaches (.connection .accepted os.newUuid) fd hfree hok ?_
      have hpoll := (sameTables_poll s (s.poll.add fd)).fdOf
      rw [← hpoll]
      exact fdOf_addAccepted hnew

/-- Filling the buffer hands nothing over; the disconnection at the end of the stream does. -/
theorem hands_handleTcpReadEvents (s : BaseServer) (fd : Fd) (os : OsAnswers) :
    Hands os s (s.handleTcpReadEvents fd os) (s.handleTcpReadEventsHanded fd os) := by
  unfold handleTcpReadEvents handleTcpReadEventsHanded
  cases hget : s.getTcpConnection fd with
  | none => exact .keeps rfl
  | some pair =>
    obtain ⟨id, connection⟩ := pair
    have hkeeps : Keeps s (s.setConnection id { connection with
        reader := (connection.reader.fillBuf os.read).1 }) :=
      keeps_setConnection (getTcpConnection_lookup hget) rfl
    simp only
    cases (connection.reader.fillBuf os.read).2 with
    | error e => exact .keeps hkeeps.fdOf
    | ok buf =>
      simp only
      split
      · exact Hands.after hkeeps.fdOf (hands_disconnectTcpConnection os _ id)
      · exact .keeps (hkeeps.pushRead id).fdOf

/-- Flushing hands nothing over; the disconnection after an error does. -/
theorem hands_handleTcpWriteEvents (s : BaseServer) (fd : Fd) (os : OsAnswers) :
    Hands os s (s.handleTcpWriteEvents fd os) (s.handleTcpWriteEventsHanded fd os) := by
  unfold handleTcpWriteEvents handleTcpWriteEventsHanded
  cases hget : s.getTcpConnection fd with
  | none => exact .keeps rfl
  | some pair =>
    obtain ⟨id, connection⟩ := pair
    have hkeeps : Keeps s (s.setConnection id (flushed connection
        (connection.writer.flush os.write).1 (connection.writer.flush os.write).2.1)) :=
      keeps_setConnection (getTcpConnection_lookup hget) rfl
    simp only
    cases (connection.writer.flush os.write).2.2 with
    | error e => exact Hands.after hkeeps.fdOf (hands_disconnectTcpConnection os _ id)
    | ok u => exact .keeps hkeeps.fdOf

/-- The same for the outgoing connection. -/
theorem hands_handleTcpWriteConnection (s : BaseServer) (os : OsAnswers) :
    Hands os s (s.handleTcpWriteConnection os) (s.handleTcpWriteConnectionHanded os) := by
  unfold handleTcpWriteConnection handleTcpWriteConnectionHanded
  cases hout : s.tcpConnection with
  | none => exact .keeps rfl
  | some pair =>
    obtain ⟨id, connection⟩ := pair
    have hkeeps : Keeps s { s with tcpConnection := some (id, flushed connection
        (connection.writer.flush os.write).1 (connection.writer.flush os.write).2.1) } :=
      keeps_outgoing hout rfl
    simp only
    cases (connection.writer.flush os.write).2.2 with
    | error e => exact Hands.after hkeeps.fdOf (hands_disconnectTcpConnectionSingle os _)
    | ok u => exact .keeps hkeeps.fdOf

/-- An error event hands over what a disconnection does. -/
theorem hands_handleError (os : OsAnswers) (s : BaseServer) (fd : Fd) :
    Hands os s (s.handleError fd) (s.handleErrorHanded fd) := by
  unfold handleError handleErrorHanded
  split
  · exact .keeps rfl
  split
  · exact .keeps rfl
  split
  · exact hands_disconnectTcpConnectionSingle os s
  · cases s.getTcpConnection fd with
    | none => exact .keeps rfl
    | some pair => exact hands_disconnectTcpConnection os s pair.1

/-- One event of a batch. -/
theorem hands_handleEvent (isValidUdpMessage : List UInt8 → Bool) (event : PollEvent)
    (hnew : os.newUuid ∉ s.tcpConnections) :
    Hands os s (s.handleEvent isValidUdpMessage event os)
      (s.handleEventHanded event os) := by
  unfold handleEvent handleEventHanded
  cases event.type with
  | read =>
    simp only [handleRead, handleReadHanded]
    split
    · exact .keeps (keeps_handleUdpReadEvent isValidUdpMessage s os).fdOf
    split
    · exact hands_handleNewTcpConnections hnew
    split
    · exact .keeps (keeps_handleTcpReadConnection s os).fdOf
    · exact hands_handleTcpReadEvents s event.fd os
  | write =>
    simp only [handleWrite, handleWriteHanded]
    split
    · exact .keeps (keeps_handleUdpWriteEvent s).fdOf
    split
    · exact hands_handleTcpWriteConnection s os
    · exact hands_handleTcpWriteEvents s event.fd os
  | error => exact hands_handleError os s event.fd

/-- Whether the id asked for is still there is `disconnect_tcp_connection`'s own question. -/
theorem hands_handleDisconnection (os : OsAnswers) (s : BaseServer) :
    Hands os s s.handleDisconnection s.handleDisconnectionHanded := by
  unfold handleDisconnection handleDisconnectionHanded
  cases s.disconnectQueue with
  | nil => exact .keeps rfl
  | cons id rest =>
    have hkeeps : Keeps s { s with disconnectQueue := rest } :=
      keeps_of_eq rfl rfl rfl rfl rfl rfl rfl
    exact Hands.after hkeeps.fdOf (hands_disconnectTcpConnection os _ id)

/-! ## The owners' side of it -/

/-- A connection that is taken down is closed twice. -/
theorem transfer_detach {o : Owner} (hs : Sound s) (hfd : s.fdOf o = some fd)
    (ht : t.fdOf = Function.update s.fdOf o none) :
    Custody.Transfer (· ∈ s.descriptors) (· ∈ t.descriptors) [] [] [fd, fd] [] := by
  have hold : ∀ fd', fd' ∈ t.descriptors → fd' ∈ s.descriptors ∧ fd' ≠ fd := by
    intro fd' hmem
    obtain ⟨o', ho'⟩ := mem_descriptors.mp hmem
    rw [ht] at ho'
    rcases update_eq_some ho' with ⟨-, hnone⟩ | ⟨hne, ho'⟩
    · cases hnone
    · refine ⟨mem_descriptors.mpr ⟨o', ho'⟩, ?_⟩
      rintro rfl
      exact hne (hs.distinct o' o fd' ho' hfd)
  refine ⟨List.nodup_nil, by simp, by simp, ?_, ?_, by simp, fun fd' h => .inl (hold fd' h).1⟩
  · intro fd' hmem
    have heq : fd' = fd := by simpa using hmem
    rw [heq]
    exact ⟨.inl (mem_descriptors.mpr ⟨o, hfd⟩),
      iff_of_false (fun h => (hold fd h).2 rfl) List.not_mem_nil⟩
  · intro fd' hmem hclosed _
    obtain ⟨o', ho'⟩ := mem_descriptors.mp hmem
    refine mem_descriptors.mpr ⟨o', ?_⟩
    rw [ht, Function.update_of_ne, ho']
    rintro rfl
    rw [hfd] at ho'
    cases ho'
    exact hclosed List.mem_cons_self

/-- A new descriptor, which may have been closed on the way; the one its owner had before is
dropped. -/
theorem transfer_attach {o : Owner} (closes kept : List Fd) (hs : Sound s)
    (hfd : fd ∉ s.descriptors) (hcloses : ∀ fd' ∈ closes, fd' = fd ∧ fd ∈ kept)
    (ht : t.fdOf = Function.update s.fdOf o (some fd)) :
    Custody.Transfer (· ∈ s.descriptors) (· ∈ t.descriptors) [fd] (s.fdOf o).toList closes
      kept := by
  have hnew : fd ∈ t.descriptors := by
    refine mem_descriptors.mpr ⟨o, ?_⟩
    rw [ht, Function.update_self]
  refine ⟨List.nodup_singleton fd, ?_, ?_, ?_, ?_, ?_, ?_⟩
  · intro fd' hmem
    rwa [List.mem_singleton.mp hmem]
  · intro old hmem
    have hold : s.fdOf o = some old := Option.mem_toList.mp hmem
    have hin : old ∈ s.descriptors := mem_descriptors.mpr ⟨o, hold⟩
    refine ⟨.inl hin, ?_, ?_⟩
    · intro hmem'
      obtain ⟨o', ho'⟩ := mem_descriptors.mp hmem'
      rw [ht] at ho'
      rcases update_eq_some ho' with ⟨-, heq⟩ | ⟨hne, ho'⟩
      · cases heq
        exact hfd hin
      · exact hne (hs.distinct o' o old ho' hold)
    · intro hclosed
      rw [(hcloses old hclosed).1] at hin
      exact hfd hin
  · intro fd' hclosed
    obtain ⟨rfl, hkept⟩ := hcloses fd' hclosed
    exact ⟨.inr List.mem_cons_self, iff_of_true hnew hkept⟩
  · intro fd' hmem _ hkept
    obtain ⟨o', ho'⟩ := mem_descriptors.mp hmem
    refine mem_descriptors.mpr ⟨o', ?_⟩
    rw [ht, Function.update_of_ne, ho']
    rintro rfl
    exact hkept (Option.mem_toList.mpr ho')
  · intro fd' hmem _ _
    rwa [List.mem_singleton.mp hmem]
  · intro fd' hmem
    obtain ⟨o', ho'⟩ := mem_descriptors.mp hmem
    rw [ht] at ho'
    rcases update_eq_some ho' with ⟨-, heq⟩ | ⟨-, ho'⟩
    · cases heq
      exact .inr List.mem_cons_self
    · exact .inl (mem_descriptors.mpr ⟨o', ho'⟩)

/-- A step that leaves the table alone moves no descriptor. -/
theorem transfer_keeps (ht : t.fdOf = s.fdOf) :
    Custody.Transfer (· ∈ s.descriptors) (· ∈ t.descriptors) [] [] [] [] := by
  have hsame : ∀ fd, fd ∈ t.descriptors ↔ fd ∈ s.descriptors := by
    intro fd
    rw [mem_descriptors, mem_descriptors, ht]
  exact ⟨List.nodup_nil, by simp, by simp, by simp, fun fd h _ _ => (hsame fd).mpr h, by simp,
    fun fd h => .inl ((hsame fd).mp h)⟩

/-- A socket that gets no owner is closed, or left open. -/
theorem transfer_refuse (closes : List Fd) (hfd : fd ∉ s.descriptors)
    (hcloses : ∀ fd' ∈ closes, fd' = fd) (ht : t.fdOf = s.fdOf) :
    Custody.Transfer (· ∈ s.descriptors) (· ∈ t.descriptors) [fd]
      ([fd].filter (· ∉ closes)) closes [] := by
  have hsame : ∀ fd, fd ∈ t.descriptors ↔ fd ∈ s.descriptors := by
    intro fd
    rw [mem_descriptors, mem_descriptors, ht]
  have hnot : fd ∉ t.descriptors := mt (hsame fd).mp hfd
  refine ⟨List.nodup_singleton fd, ?_, ?_, ?_, fun fd' h _ _ => (hsame fd').mpr h, ?_,
    fun fd' h => .inl ((hsame fd').mp h)⟩
  · intro fd' hmem
    rwa [List.mem_singleton.mp hmem]
  · intro fd' hmem
    obtain ⟨hmem, hopen⟩ := List.mem_filter.mp hmem
    refine ⟨.inr hmem, ?_, of_decide_eq_true hopen⟩
    rwa [List.mem_singleton.mp hmem]
  · intro fd' hmem
    rw [hcloses fd' hmem]
    exact ⟨.inr List.mem_cons_self, iff_of_false hnot List.not_mem_nil⟩
  · intro fd' hmem hclosed hlost
    exact absurd (List.mem_filter.mpr ⟨hmem, decide_eq_true hclosed⟩) hlost

/-- Whatever a handler does, the descriptors obtained get an owner or are closed, and those closed
lose theirs; nothing is lost on the way. -/
theorem Hands.transfer {handed : Handed} (hs : Sound s)
    (hunused : ∀ fd, os.accept = .ok fd → fd ∉ s.descriptors) (h : Hands os s t handed) :
    Custody.Transfer (· ∈ s.descriptors) (· ∈ t.descriptors) handed.obtained [] handed.closes
      [] := by
  cases h with
  | keeps ht => exact transfer_keeps ht
  | detaches o fd hfd ht => exact transfer_detach hs hfd ht
  | attaches o fd hfree hok ht =>
    have h := transfer_attach [] [] hs (hunused fd hok)
      (fun _ h => absurd h List.not_mem_nil) ht
    rw [hfree] at h
    exact h
  | refuses fd hok ht =>
    have h := transfer_refuse [fd] (hunused fd hok) (fun _ h => List.mem_singleton.mp h) ht
    rw [List.filter_eq_nil_iff.mpr (by simp)] at h
    exact h

/-- What the destructor closes is what the server has. -/
theorem mem_destroyCloses : fd ∈ s.destroyCloses ↔ fd ∈ s.descriptors := by
  simp only [destroyCloses, descriptors, TcpStream.close, TcpConnection.destroy, List.mem_append,
    List.mem_flatMap, List.mem_singleton, Option.mem_toList, Option.map_eq_some_iff, List.mem_map,
    eq_comm (a := fd)]
  constructor
  · rintro (((((h | h) | h) | h) | h) | h)
    exacts [.inr h, .inl (.inl (.inr h)), .inl (.inl (.inl h)), .inl (.inr h), .inr h,
      .inl (.inr h)]
  · rintro (((h | h) | h) | h)
    · exact .inl (.inl (.inl (.inr h)))
    · exact .inl (.inl (.inl (.inl (.inr h))))
    · exact .inr h
    · exact .inl (.inr h)

/-- The destructor closes every descriptor that the server has. -/
theorem transfer_destroy (s : BaseServer) :
    Custody.Transfer (· ∈ s.descriptors) (fun _ => False) [] [] s.destroyCloses [] where
  nodup := List.nodup_nil
  fresh := by simp
  dropped := by simp
  closed := fun _ h => ⟨.inl (mem_destroyCloses.mp h), iff_of_false id List.not_mem_nil⟩
  held := fun _ h hnot _ => hnot (mem_destroyCloses.mpr h)
  gained := by simp
  within := fun _ h => h.elim

end BaseServer

/-! ## Sockets in the making -/

namespace Setup

/-- The calls that make a socket, with what the OS answers on the way. `Server::host` is `host_tcp`
and, where that succeeds, `host_udp`. -/
inductive Making where
  | hostTcp (os : SocketCalls)
  | hostUdp (os : SocketCalls)
  | connectTcp (ip : String) (os : SocketCalls) (newUuid : Uuid)
  | connectUdp (ip : String) (port : UInt16) (os : SocketCalls)

namespace Making

/-- The call, as `Setup` has it. -/
def call : Making → Call
  | .hostTcp os => .hostTcp os
  | .hostUdp os => .hostUdp os
  | .connectTcp ip os newUuid => .connectTcp ip os newUuid
  | .connectUdp ip port os => .connectUdp ip port os

/-- The call as a step of the server, which sees only what the call has in the end. -/
def label : Making → Context.Label
  | .hostTcp os => .hostTcp (TcpListener.bind os)
  | .hostUdp os => .hostUdp (UdpSocket.bind os)
  | .connectTcp ip os newUuid =>
    match Ipv4Addr.parseAscii ip os with
    | .error _ => .connectTcp (.error 0) newUuid
    | .ok _ => .connectTcp (TcpStream.connect os) newUuid
  | .connectUdp ip port os =>
    match Ipv4Addr.parseAscii ip os with
    | .error _ => .connectUdp (.error 0) os.getsockname .default
    | .ok address => .connectUdp (UdpSocket.any os) os.getsockname (.v4 ⟨address, port⟩)

/-- The call gets as far as its socket. -/
def reaches (s : Setup) : Making → Bool
  | .hostTcp _ => true
  | .hostUdp _ => true
  | .connectTcp ip os _ =>
    !s.running && s.server.tcpConnection.isNone && (Ipv4Addr.parseAscii ip os).isOk
  | .connectUdp ip _ os =>
    !s.running && s.server.udpSocket.isNone && (Ipv4Addr.parseAscii ip os).isOk

/-- What the call does on the way to its socket, and what it has in the end, if it gets so far. -/
def socket : Making → Handed × Except ErrorCode Fd
  | .hostTcp os => (TcpListener.bindHanded os, TcpListener.bind os)
  | .hostUdp os => (Socket.createHanded os, UdpSocket.bind os)
  | .connectTcp _ os _ => (TcpStream.connectHanded os, TcpStream.connect os)
  | .connectUdp _ _ os => (Socket.createHanded os, UdpSocket.any os)

/-- Where the socket goes. -/
def owner : Making → Owner
  | .hostTcp _ => .tcpListener
  | .hostUdp _ => .udpSocket
  | .connectTcp _ _ newUuid => .connection .outgoing newUuid
  | .connectUdp _ _ _ => .udpSocket

/-- What the call obtains and closes. A call that is refused makes no socket. -/
def handed (s : Setup) (m : Making) : Handed := bif m.reaches s then m.socket.1 else .nothing

/-- The socket the server has from the call. -/
def made (s : Setup) (m : Making) : Option Fd := bif m.reaches s then m.socket.2.toOption else none

/-- The socket that the new one is put in the place of. -/
def replaced (s : Setup) (m : Making) : List Fd :=
  if (m.made s).isSome then (s.server.fdOf m.owner).toList else []

/-- The sockets that are left open without an owner: one that the call made, did not close and does
not have in the end, and the one it replaced. -/
def lost (s : Setup) (m : Making) : List Fd :=
  ((m.handed s).obtained.filter fun fd => fd ∉ (m.handed s).closes ∧ m.made s ≠ some fd) ++
    m.replaced s

/-- Every call that makes a socket makes it in one of the five ways. -/
theorem makes (s : Setup) (m : Making) : Makes (m.handed s) (m.made s) := by
  unfold handed made
  cases m.reaches s with
  | false => exact .none
  | true =>
    cases m with
    | hostTcp os => exact makes_bind os
    | hostUdp os => exact makes_create os
    | connectTcp ip os newUuid => exact makes_connect os
    | connectUdp ip port os => exact makes_create os

/-- The socket that a call made is its owner's, and nothing else changes hands. -/
theorem fdOf_call (s : Setup) (m : Making) :
    (s.call m.call).2.server.fdOf = (m.made s).elim s.server.fdOf fun fd =>
      Function.update s.server.fdOf m.owner (some fd) := by
  obtain ⟨server, running⟩ := s
  cases m with
  | hostTcp os =>
    simp only [call, Setup.call, Setup.hostTcp, made, reaches, socket, cond_true]
    cases TcpListener.bind os with
    | error e => rfl
    | ok fd =>
      funext o
      cases o <;> rfl
  | hostUdp os =>
    simp only [call, Setup.call, Setup.hostUdp, made, reaches, socket, cond_true]
    cases UdpSocket.bind os with
    | error e => rfl
    | ok fd =>
      funext o
      cases o <;> rfl
  | connectTcp ip os newUuid =>
    simp only [call, Setup.call, Setup.connectTcp, made, reaches, socket]
    cases running with
    | true => rfl
    | false =>
      cases hout : server.tcpConnection with
      | some pair => rfl
      | none =>
        cases Ipv4Addr.parseAscii ip os with
        | error e => rfl
        | ok address =>
          cases TcpStream.connect os with
          | error e => rfl
          | ok fd => exact BaseServer.fdOf_connected hout
  | connectUdp ip port os =>
    simp only [call, Setup.call, Setup.connectUdp, made, reaches, socket]
    cases running with
    | true => rfl
    | false =>
      cases server.udpSocket with
      | some old => rfl
      | none =>
        cases Ipv4Addr.parseAscii ip os with
        | error e => rfl
        | ok address =>
          cases UdpSocket.any os with
          | error e => rfl
          | ok fd =>
            -- The socket is kept whether its address is found or not.
            cases os.getsockname with
            | error e =>
              funext o
              cases o <;> rfl
            | ok own =>
              funext o
              cases o <;> rfl

end Making

end Setup

namespace Context

open Setup (Making)

/-- The server, as the calls that make sockets see it. -/
def setup (s : Context) : Setup := ⟨s.server, s.running⟩

/-- The label makes a socket. -/
def Label.makes : Label → Bool
  | .hostTcp _ => true
  | .hostUdp _ => true
  | .connectTcp _ _ => true
  | .connectUdp _ _ _ => true
  | _ => false

/-- What a step that makes no socket obtains and closes. -/
def handed (s : Context) : Label → Handed
  | .turn os =>
    match s.pos with
    | .batch (event :: _) => s.server.handleEventHanded event os
    | .disconnections => s.server.handleDisconnectionHanded
    | _ => .nothing
  | _ => .nothing

variable {isValidUdpMessage : List UInt8 → Bool} {s t : Context} {a : Label} {m : Making}

/-- A call that the OS may answer as it does leaves the server that it has made. -/
theorem server_of_guarded {server : BaseServer} {p : Prop} [Decidable p]
    (h : (if p then none else some (s.setUp server)) = some t) : t.server = server := by
  split at h
  · cases h
  · cases h
    rfl

/-- The step does to the server what the call does. -/
theorem server_of_making (h : s.step isValidUdpMessage m.label = some t) :
    t.server = (s.setup.call m.call).2.server := by
  cases m with
  | hostTcp os => exact (server_of_guarded h).trans (Setup.hostTcp_server s.setup os).symm
  | hostUdp os => exact (server_of_guarded h).trans (Setup.hostUdp_server s.setup os).symm
  | connectTcp ip os newUuid =>
    have hserver := Setup.connectTcp_server s.setup ip os newUuid
    simp only [Making.label] at h
    cases hparse : Ipv4Addr.parseAscii ip os with
    | error e =>
      rw [hparse] at h hserver
      exact (server_of_guarded h).trans hserver.symm
    | ok address =>
      rw [hparse] at h hserver
      exact (server_of_guarded h).trans hserver.symm
  | connectUdp ip port os =>
    have hserver := Setup.connectUdp_server s.setup ip port os
    simp only [Making.label] at h
    cases hparse : Ipv4Addr.parseAscii ip os with
    | error e =>
      rw [hparse] at h hserver
      simp only [step] at h
      exact (server_of_guarded h).trans hserver.symm
    | ok address =>
      rw [hparse] at h hserver
      simp only [step] at h
      exact (server_of_guarded h).trans hserver.symm

/-- What a call that makes a socket does to the descriptors. -/
theorem transfer_making (hs : Inv s)
    (hunused : ∀ fd ∈ (m.handed s.setup).obtained, fd ∉ s.server.descriptors)
    (h : s.step isValidUdpMessage m.label = some t) :
    Custody.Transfer (· ∈ s.server.descriptors) (· ∈ t.server.descriptors)
      (m.handed s.setup).obtained (m.lost s.setup) (m.handed s.setup).closes
      (m.made s.setup).toList := by
  have hfdOf : t.server.fdOf = (m.made s.setup).elim s.server.fdOf fun fd =>
      Function.update s.server.fdOf m.owner (some fd) := by
    rw [server_of_making h]
    exact Making.fdOf_call s.setup m
  have hmakes := Making.makes s.setup m
  unfold Making.lost Making.replaced
  generalize m.handed s.setup = handed at hunused hmakes ⊢
  generalize m.made s.setup = made at hfdOf hmakes ⊢
  cases hmakes with
  | none => exact BaseServer.transfer_keeps hfdOf
  | kept fd =>
    have htransfer := BaseServer.transfer_attach [] [fd] hs.sound (hunused fd List.mem_cons_self)
      (fun _ h => absurd h List.not_mem_nil) hfdOf
    simpa [setup] using htransfer
  | keptClosed fd =>
    have htransfer := BaseServer.transfer_attach [fd] [fd] hs.sound (hunused fd List.mem_cons_self)
      (fun _ h => ⟨List.mem_singleton.mp h, List.mem_cons_self⟩) hfdOf
    simpa [setup] using htransfer
  | refused fd =>
    have htransfer := BaseServer.transfer_refuse [fd] (hunused fd List.mem_cons_self)
      (fun _ h => List.mem_singleton.mp h) hfdOf
    simpa using htransfer
  | left fd =>
    have htransfer := BaseServer.transfer_refuse [] (hunused fd List.mem_cons_self)
      (fun _ h => absurd h List.not_mem_nil) hfdOf
    simpa using htransfer

/-- A turn of the loop, at whichever of its places: it hands over what its handler does. -/
theorem transfer_turn {os : OsAnswers} (hs : Inv s)
    (h : s.step isValidUdpMessage (.turn os) = some t) :
    Custody.Transfer (· ∈ s.server.descriptors) (· ∈ t.server.descriptors)
      (s.handed (.turn os)).obtained [] (s.handed (.turn os)).closes [] := by
  simp only [step] at h
  split at h
  next hunused =>
    obtain ⟨loop, hloop, heq⟩ := Option.map_eq_some_iff.mp h
    have ht : t.server = loop.server := by
      rw [← heq]
    have hfree := unused_not_mem hunused
    rw [ht]
    simp only [ContextLoop.step] at hloop
    split at hloop
    next events hpos =>
      cases events with
      | nil =>
        cases hloop
        simp only [handed, hpos]
        exact BaseServer.transfer_keeps rfl
      | cons event rest =>
        simp only [ContextLoop.turnBatch] at hloop
        split at hloop
        · cases hloop
        next hnew =>
          cases hloop
          simp only [handed, hpos]
          exact (BaseServer.hands_handleEvent isValidUdpMessage event
            (hs.sound.not_mem hnew)).transfer hs.sound hfree
    next hpos =>
      -- Where the queue is empty, `handle_disconnection` does nothing.
      have hserver : loop.server = s.server.handleDisconnection := by
        split at hloop
        next hempty =>
          cases hloop
          rw [BaseServer.handleDisconnection, List.isEmpty_iff.mp hempty]
        · cases hloop
          rfl
      simp only [handed, hpos]
      rw [hserver]
      exact (BaseServer.hands_handleDisconnection os s.server).transfer hs.sound hfree
    next hpos =>
      simp only [handed, hpos]
      split at hloop
      · cases hloop
        exact BaseServer.transfer_keeps rfl
      · cases hloop
        exact BaseServer.transfer_keeps (BaseServer.keeps_appendQueued s.server).fdOf
    · cases hloop
  · cases h

/-- What a step of the server does to its descriptors. -/
theorem transfer_of_step (hs : Inv s) (hother : a.makes = false)
    (h : s.step isValidUdpMessage a = some t) :
    Custody.Transfer (· ∈ s.server.descriptors) (· ∈ t.server.descriptors) (s.handed a).obtained
      [] (s.handed a).closes [] := by
  cases a with
  | hostTcp bind => cases hother
  | hostUdp bind => cases hother
  | connectTcp connect newUuid => cases hother
  | connectUdp any localAddr addr => cases hother
  | startContext =>
    simp only [step] at h
    split at h
    · cases h
    · cases h
      exact BaseServer.transfer_keeps (BaseServer.sameTables_poll s.server _).fdOf
  | stopContext =>
    simp only [step] at h
    split at h
    · cases h
      exact BaseServer.transfer_keeps rfl
    · cases h
  | sendTcp id data =>
    cases h
    exact BaseServer.transfer_keeps rfl
  | sendUdp addr data =>
    cases h
    exact BaseServer.transfer_keeps rfl
  | askDisconnect id =>
    cases h
    exact BaseServer.transfer_keeps rfl
  | popEvent =>
    cases h
    exact BaseServer.transfer_keeps (fdOf_popEvent s)
  | useReader kind id reader =>
    cases h
    exact BaseServer.transfer_keeps (BaseServer.keeps_setReader s.server kind id reader).fdOf
  | wait polled =>
    simp only [step] at h
    split at h
    · obtain ⟨loop, hloop, heq⟩ := Option.map_eq_some_iff.mp h
      have hserver : loop.server = s.server.prepareWrite := by
        cases ContextLoop.effect_of_step hloop with
        | wait ht => exact ht
      rw [← heq]
      exact BaseServer.transfer_keeps (hserver ▸ (sameTables_prepareWrite s.server).fdOf)
    · cases h
  | turn os => exact transfer_turn hs h
  | environment others =>
    simp only [step] at h
    split at h
    · cases h
      exact BaseServer.transfer_keeps rfl
    · cases h

end Context

end ProjectE.Net
