import Mathlib.Data.List.AList
import ProjectE.Io.BufWriter
import ProjectE.Net.Poll
import ProjectE.Net.SocketAddr

/-!
# The base server

The state `BaseServer` shares between its two threads, and what the context thread does with it: the
handlers of poll events, the two teardowns, and the loop that pops the send queue. Every call into
the OS is answered by an argument. Locks do nothing while only the context thread runs; the system
of both threads takes these handlers apart at their locks.

The `Poll` of `run_context` is passed to every handler, so it is a field here. `tcp_connection` and
`tcp_connection_id` are set together and reset together: they are one optional pair. Logging and
the result of closing a stream, which only decides about a log line, are left out.
-/

namespace ProjectE.Net

open Verif

/-- `uuid::Uuid`. -/
abbrev Uuid := UInt64

/-- `TCPEvent`. -/
inductive TCPEvent where
  | tcpRead
  | tcpConnection
  | tcpDisconnection
deriving DecidableEq, Repr

/-- `net::TcpStream`: its descriptor, and the bytes the OS has taken from it so far. -/
structure TcpStream where
  fd : Fd
  sent : List UInt8
deriving DecidableEq, Repr

/-- `BaseServer::TcpConnection`: the stream, with the reader and the writer that go with it and are
destroyed with it. -/
structure TcpConnection where
  stream : TcpStream
  reader : BufReader
  writer : BufWriter
deriving DecidableEq

/-- `TcpConnection(stream)`, for a stream nothing was sent on. -/
def TcpConnection.new (fd : Fd) : TcpConnection := ⟨⟨fd, []⟩, BufReader.new, BufWriter.new⟩

/-- `std::unordered_map<uuid::Uuid, TcpConnection>`. -/
abbrev TcpConnections := AList fun _ : Uuid => TcpConnection

/-- `BaseServer`: its sockets, its two kinds of connections, and the queues between its threads. -/
structure BaseServer where
  udpSocket : Option Fd
  tcpListener : Option Fd
  tcpConnection : Option (Uuid × TcpConnection)
  udpConnectionAddr : Option SocketAddr
  udpConfirmed : Bool
  tcpConnections : TcpConnections
  /-- The ids `tcp_uuid_generator` has given out. -/
  generatedUUIDs : List Uuid
  tcpEvents : List (TCPEvent × Uuid)
  recvUdpQueue : List (SocketAddr × List UInt8)
  sendTcpQueue : List (Uuid × List UInt8)
  sendUdpQueue : List (SocketAddr × List UInt8)
  disconnectQueue : List Uuid
  poll : Poll
deriving DecidableEq

/-- What the OS answers in one step of the context thread, whichever calls it makes. `newUuid` is
what the random generator draws. -/
structure OsAnswers where
  accept : Except ErrorCode Fd
  setNonblocking : Except ErrorCode Unit
  newUuid : Uuid
  read : ReadOutcome
  write : WriteOutcome
  recvFrom : Except ErrorCode (List UInt8 × SocketAddr)

/-- `MAX_BUFFER_SIZE`. -/
def MAX_BUFFER_SIZE : Nat := 8192

namespace BaseServer

/-! ## Queues -/

/-- `send_tcp(id, data)`: the id is looked up only when the message is popped. -/
def sendTcp (s : BaseServer) (id : Uuid) (data : List UInt8) : BaseServer :=
  { s with sendTcpQueue := s.sendTcpQueue ++ [(id, data)] }

/-- `send_udp(addr, data)`: the datagram waits until the context thread finds the socket writable.
-/
def sendUdpTo (s : BaseServer) (addr : SocketAddr) (data : List UInt8) : BaseServer :=
  { s with sendUdpQueue := s.sendUdpQueue ++ [(addr, data)] }

/-- `send_udp(data)`: to the peer, and nowhere while none is known. -/
def sendUdp (s : BaseServer) (data : List UInt8) : BaseServer :=
  match s.udpConnectionAddr with
  | some addr => s.sendUdpTo addr data
  | none => s

/-- `ask_disconnect`: the id waits for the context thread. Whether it is known is looked at there.
-/
def askDisconnect (s : BaseServer) (id : Uuid) : BaseServer :=
  { s with disconnectQueue := s.disconnectQueue ++ [id] }

/-- `_tcp_events.push`: what the main thread will tell the user, in this order. -/
def pushEvent (s : BaseServer) (event : TCPEvent) (id : Uuid) : BaseServer :=
  { s with tcpEvents := s.tcpEvents ++ [(event, id)] }

/-! ## Connections -/

/-- A connection of the table, changed in place. -/
def setConnection (s : BaseServer) (id : Uuid) (connection : TcpConnection) : BaseServer :=
  { s with tcpConnections := s.tcpConnections.insert id connection }

/-- `tcp_connections.emplace`: a connection that is there is not replaced. -/
def emplaceConnection (s : BaseServer) (id : Uuid) (connection : TcpConnection) : BaseServer :=
  if id ∈ s.tcpConnections then s else s.setConnection id connection

/-- `tcp_connections.erase`. -/
def eraseConnection (s : BaseServer) (id : Uuid) : BaseServer :=
  { s with tcpConnections := s.tcpConnections.erase id }

/-- `poll.remove`: only this thread touches the table. -/
def pollRemove (s : BaseServer) (fd : Fd) : BaseServer := { s with poll := s.poll.remove fd }

/-- The outgoing connection is reset with its id. -/
def resetConnection (s : BaseServer) : BaseServer := { s with tcpConnection := none }

/-- `get_tcp_connection(fd)`: the first connection of the table with that descriptor. -/
def getTcpConnection (s : BaseServer) (fd : Fd) : Option (Uuid × TcpConnection) :=
  (s.tcpConnections.entries.find? fun pair => pair.2.stream.fd = fd).map fun pair =>
    (pair.1, pair.2)

/-- The two kinds of TCP connection of a server. -/
inductive ConnectionKind where
  | accepted
  | outgoing
deriving DecidableEq, Repr

/-- The connection of a kind and an id, if it is there. -/
def connection (s : BaseServer) : ConnectionKind → Uuid → Option TcpConnection
  | .accepted, id => s.tcpConnections.lookup id
  | .outgoing, id => (s.tcpConnection.filter fun pair => pair.1 = id).map (·.2)

/-- A connection's reader, changed in place. -/
def setReader (s : BaseServer) : ConnectionKind → Uuid → BufReader → BaseServer
  | .accepted, id, reader =>
    match s.tcpConnections.lookup id with
    | none => s
    | some connection => s.setConnection id { connection with reader := reader }
  | .outgoing, _, reader =>
    { s with
      tcpConnection := s.tcpConnection.map fun pair => (pair.1, { pair.2 with reader := reader }) }

/-- `disconnect_tcp_connection_single`: the outgoing connection leaves the poll table, its end is
announced, and it is reset with its id. -/
def disconnectTcpConnectionSingle (s : BaseServer) : BaseServer :=
  match s.tcpConnection with
  | some (id, connection) =>
    ((s.pollRemove connection.stream.fd).pushEvent .tcpDisconnection id).resetConnection
  | none => s

/-- The part of `disconnect_tcp_connection` before the push: out of the poll table and the map. -/
def detachConnection (s : BaseServer) (id : Uuid) : BaseServer :=
  match s.tcpConnections.lookup id with
  | none => s
  | some connection => (s.pollRemove connection.stream.fd).eraseConnection id

/-- `disconnect_tcp_connection`: an id that is not in the table is passed over. -/
def disconnectTcpConnection (s : BaseServer) (id : Uuid) : BaseServer :=
  if id ∈ s.tcpConnections then (s.detachConnection id).pushEvent .tcpDisconnection id else s

/-- A connection after its stream took bytes from its writer. -/
def flushed (connection : TcpConnection) (writer : BufWriter) (taken : List UInt8) :
    TcpConnection :=
  { connection with
    writer := writer
    stream := { connection.stream with sent := connection.stream.sent ++ taken } }

/-- An accepted stream that was set up gets its id and its place. -/
def addAccepted (s : BaseServer) (id : Uuid) (fd : Fd) : BaseServer :=
  let s := { s with generatedUUIDs := id :: s.generatedUUIDs }
  (s.emplaceConnection id (TcpConnection.new fd)).pushEvent .tcpConnection id

/-! ## Handlers -/

/-- `handle_new_tcp_connections`: the stream is polled before it is set up, and stays in the poll
table where that fails. -/
def handleNewTcpConnections (s : BaseServer) (os : OsAnswers) : BaseServer :=
  match os.accept with
  | .error _ => s
  | .ok fd =>
    let s := { s with poll := s.poll.add fd }
    match os.setNonblocking with
    | .error _ => s
    | .ok () =>
      s.addAccepted os.newUuid fd

/-- `handle_tcp_read_connection`: the end of the stream is passed over, and no error takes the
connection down. -/
def handleTcpReadConnection (s : BaseServer) (os : OsAnswers) : BaseServer :=
  match s.tcpConnection with
  | none => s
  | some (id, connection) =>
    let (reader, res) := connection.reader.fillBuf os.read
    let s := { s with tcpConnection := some (id, { connection with reader := reader }) }
    match res with
    | .error _ => s
    | .ok buf => if buf.empty then s else s.pushEvent .tcpRead id

/-- `handle_tcp_read_events`: an empty read is taken for the end of the stream, also where the
buffer only had no room for one. -/
def handleTcpReadEvents (s : BaseServer) (fd : Fd) (os : OsAnswers) : BaseServer :=
  match s.getTcpConnection fd with
  | none => s
  | some (id, connection) =>
    let (reader, res) := connection.reader.fillBuf os.read
    let s := s.setConnection id { connection with reader := reader }
    match res with
    | .error _ => s
    | .ok buf => if buf.empty then s.disconnectTcpConnection id else s.pushEvent .tcpRead id

/-- `handle_tcp_write_events`: the writer is flushed into the stream; an error takes the connection
down. -/
def handleTcpWriteEvents (s : BaseServer) (fd : Fd) (os : OsAnswers) : BaseServer :=
  match s.getTcpConnection fd with
  | none => s
  | some (id, connection) =>
    let (writer, taken, res) := connection.writer.flush os.write
    let s := s.setConnection id (flushed connection writer taken)
    match res with
    | .error _ => s.disconnectTcpConnection id
    | .ok () => s

/-- `handle_tcp_write_connection`: the same for the outgoing connection, by its own teardown. -/
def handleTcpWriteConnection (s : BaseServer) (os : OsAnswers) : BaseServer :=
  match s.tcpConnection with
  | none => s
  | some (id, connection) =>
    let (writer, taken, res) := connection.writer.flush os.write
    let s := { s with tcpConnection := some (id, flushed connection writer taken) }
    match res with
    | .error _ => s.disconnectTcpConnectionSingle
    | .ok () => s

/-- The datagram is judged by the whole receive buffer, zeros included. -/
def handleUdpReadEvent (isValidUdpMessage : List UInt8 → Bool) (s : BaseServer) (os : OsAnswers) :
    BaseServer :=
  match os.recvFrom with
  | .error _ => s
  | .ok (datagram, addr) =>
    let received := datagram.take MAX_BUFFER_SIZE
    let buffer := overwrite (List.replicate MAX_BUFFER_SIZE 0) 0 received
    if received.length = 0 then s
    else if !isValidUdpMessage buffer then s
    else { s with recvUdpQueue := s.recvUdpQueue ++ [(addr, buffer.take received.length)] }

/-- The popped datagram goes to the OS, which may refuse it; nothing of the server depends on it. -/
def handleUdpWriteEvent (s : BaseServer) : BaseServer :=
  { s with sendUdpQueue := s.sendUdpQueue.tail }

/-- The branch of a read event: by descriptor, the UDP socket first. -/
def handleRead (isValidUdpMessage : List UInt8 → Bool) (s : BaseServer) (fd : Fd)
    (os : OsAnswers) : BaseServer :=
  if s.udpSocket = some fd then s.handleUdpReadEvent isValidUdpMessage os
  else if s.tcpListener = some fd then s.handleNewTcpConnections os
  else if s.tcpConnection.map (·.2.stream.fd) = some fd then s.handleTcpReadConnection os
  else s.handleTcpReadEvents fd os

/-- The branch of a write event; a listener is not written to. -/
def handleWrite (s : BaseServer) (fd : Fd) (os : OsAnswers) : BaseServer :=
  if s.udpSocket = some fd then s.handleUdpWriteEvent
  else if s.tcpConnection.map (·.2.stream.fd) = some fd then s.handleTcpWriteConnection os
  else s.handleTcpWriteEvents fd os

/-- The branch of an error event: only connections are taken down. -/
def handleError (s : BaseServer) (fd : Fd) : BaseServer :=
  if s.udpSocket = some fd then s
  else if s.tcpListener = some fd then s
  else if s.tcpConnection.map (·.2.stream.fd) = some fd then s.disconnectTcpConnectionSingle
  else
    match s.getTcpConnection fd with
    | none => s
    | some (id, _) => s.disconnectTcpConnection id

/-- One turn of the loop over the batch of poll events. -/
def handleEvent (isValidUdpMessage : List UInt8 → Bool) (s : BaseServer) (event : PollEvent)
    (os : OsAnswers) : BaseServer :=
  match event.type with
  | .read => s.handleRead isValidUdpMessage event.fd os
  | .write => s.handleWrite event.fd os
  | .error => s.handleError event.fd

/-- One turn of the loop of `handle_disconnection`. -/
def handleDisconnection (s : BaseServer) : BaseServer :=
  match s.disconnectQueue with
  | [] => s
  | id :: rest => { s with disconnectQueue := rest }.disconnectTcpConnection id

/-- One turn of the loop of `context_loop` over the send queue: the count that `write` reports is
not looked at. -/
def appendQueued (s : BaseServer) : BaseServer :=
  match s.sendTcpQueue with
  | [] => s
  | (id, data) :: rest =>
    let s := { s with sendTcpQueue := rest }
    match s.tcpConnections.lookup id with
    | none => s
    | some connection =>
      s.setConnection id { connection with writer := (connection.writer.write data).1 }

/-! ## Preparing the poll table -/

/-- A stream is polled for writing exactly while its writer holds bytes. -/
def pollWriter (poll : Poll) (connection : TcpConnection) : Poll :=
  if connection.writer.isEmpty then poll.removeWrite connection.stream.fd
  else poll.addWrite connection.stream.fd

/-- `handle_tcp_connection_write`: for the outgoing connection. -/
def handleTcpConnectionWrite (s : BaseServer) : BaseServer :=
  match s.tcpConnection with
  | none => s
  | some (_, connection) => { s with poll := pollWriter s.poll connection }

/-- `handle_tcp_connections_write`: for every connection of the table. -/
def handleTcpConnectionsWrite (s : BaseServer) : BaseServer :=
  { s with poll := s.tcpConnections.entries.foldl (fun poll pair => pollWriter poll pair.2) s.poll }

/-- `handle_udp_socket_write`: for the UDP socket, by the queue and not by a writer. -/
def handleUdpSocketWrite (s : BaseServer) : BaseServer :=
  match s.udpSocket with
  | none => s
  | some fd =>
    { s with poll := if s.sendUdpQueue.isEmpty then s.poll.removeWrite fd else s.poll.addWrite fd }

/-- What `context_loop` does before every wait. -/
def prepareWrite (s : BaseServer) : BaseServer :=
  s.handleTcpConnectionWrite.handleTcpConnectionsWrite.handleUdpSocketWrite

/-- A connection found by its descriptor is the one that its id stands for. -/
theorem getTcpConnection_lookup {s : BaseServer} {fd : Fd} {id : Uuid} {connection : TcpConnection}
    (h : s.getTcpConnection fd = some (id, connection)) :
    s.tcpConnections.lookup id = some connection := by
  obtain ⟨pair, hfind, hpair⟩ := Option.map_eq_some_iff.mp h
  cases hpair
  exact AList.mem_lookup_iff.mpr (List.mem_of_find?_eq_some hfind)

/-! ## Setting up

What the main thread does before it starts the context: the OS answers every call that makes a
descriptor. -/

/-- `BaseServer()`. -/
def new : BaseServer where
  udpSocket := none
  tcpListener := none
  tcpConnection := none
  udpConnectionAddr := none
  udpConfirmed := false
  tcpConnections := ∅
  generatedUUIDs := []
  tcpEvents := []
  recvUdpQueue := []
  sendTcpQueue := []
  sendUdpQueue := []
  disconnectQueue := []
  poll := ⟨[]⟩

/-- `host_tcp`, by what `TcpListener::bind` comes to. -/
def hostTcp (s : BaseServer) (bind : Except ErrorCode Fd) : BaseServer :=
  match bind with
  | .error _ => s
  | .ok fd => { s with tcpListener := some fd }

/-- `host_udp`, by what `UdpSocket::bind` comes to. -/
def hostUdp (s : BaseServer) (bind : Except ErrorCode Fd) : BaseServer :=
  match bind with
  | .error _ => s
  | .ok fd => { s with udpSocket := some fd }

/-- `connect` stands for the parse of the address too: both leave by an error. -/
def connectTcp (running : Bool) (s : BaseServer) (connect : Except ErrorCode Fd) (newUuid : Uuid) :
    BaseServer :=
  if running then s
  else if s.tcpConnection.isSome then s
  else
    match connect with
    | .error _ => s
    | .ok fd =>
      { s with
        tcpConnection := some (newUuid, TcpConnection.new fd)
        generatedUUIDs := newUuid :: s.generatedUUIDs }.pushEvent .tcpConnection newUuid

/-- The socket is kept also where its own address is not found. -/
def connectUdp (running : Bool) (s : BaseServer) (any : Except ErrorCode Fd)
    (localAddr : Except ErrorCode SocketAddr) (addr : SocketAddr) : BaseServer :=
  if running then s
  else if s.udpSocket.isSome then s
  else
    match any with
    | .error _ => s
    | .ok fd =>
      let s := { s with udpSocket := some fd }
      match localAddr with
      | .error _ => s
      | .ok _ => { s with udpConnectionAddr := some addr, udpConfirmed := true }

/-- The table `run_context` makes before the loop. -/
def runContext (s : BaseServer) : BaseServer :=
  let poll : Poll := s.udpSocket.elim ⟨[]⟩ (Poll.add ⟨[]⟩)
  let poll := s.tcpListener.elim poll poll.add
  let poll := s.tcpConnection.elim poll fun pair => poll.add pair.2.stream.fd
  { s with poll := poll }

/-- `connect_tcp` does nothing, or it makes the outgoing connection where there is none. -/
theorem connectTcp_cases (running : Bool) (s : BaseServer) (connect : Except ErrorCode Fd)
    (id : Uuid) : s.connectTcp running connect id = s ∨
      running = false ∧ s.tcpConnection = none ∧ ∃ fd, connect = .ok fd ∧
        s.connectTcp running connect id =
          { s with
            tcpConnection := some (id, TcpConnection.new fd)
            generatedUUIDs := id :: s.generatedUUIDs }.pushEvent .tcpConnection id := by
  unfold connectTcp
  split
  · exact .inl rfl
  next hrunning =>
  split
  · exact .inl rfl
  next hsome =>
  cases connect with
  | error e => exact .inl rfl
  | ok fd =>
    exact .inr ⟨Bool.eq_false_of_not_eq_true hrunning, Option.not_isSome_iff_eq_none.mp hsome,
      fd, rfl, rfl⟩

/-! ## A hosting server -/

/-- A server that hosts on descriptor 3 and has the connections given. -/
def hosting (tcpConnections : TcpConnections) : BaseServer where
  udpSocket := none
  tcpListener := some 3
  tcpConnection := none
  udpConnectionAddr := none
  udpConfirmed := false
  tcpConnections := tcpConnections
  generatedUUIDs := tcpConnections.keys
  tcpEvents := []
  recvUdpQueue := []
  sendTcpQueue := []
  sendUdpQueue := []
  disconnectQueue := []
  poll := ⟨[]⟩

/-- The answers of the OS where only a read is made. -/
def readAnswer (read : ReadOutcome) : OsAnswers where
  accept := .error 0
  setNonblocking := .ok ()
  newUuid := 0
  read := read
  write := .ok 0
  recvFrom := .error 0

end BaseServer

end ProjectE.Net
