import ProjectE.Lib.Lock
import ProjectE.Lib.Transition
import ProjectE.Net.Server

/-!
# The two threads of a server

The main thread in `handle_events` and `on_tcp_data`, and the context thread in its handlers of
reads and disconnections, as one machine. The handlers are cut at every lock and unlock, and where
one thread can see what the other did in between: a step is the code from one such place to the
next. What happens under a reader's mutex is one step; parsing after `consume` is not, since the
source reads the span with the mutex released.

A step that locks, unlocks or reads the reader of a connection that is gone, or looks a missing
connection up, is undefined or throws. It is recorded as a fault; a fault of the main thread ends
that thread, a fault of the context thread (the unlock at the end of `with_lock`) is passed over, so
that the rest of such a run can still be spoken of.

What a reader received and which packets were taken from it are recorded beside the state.
-/

namespace ProjectE.Threads

open Verif Net

/-- The two threads of a server. -/
inductive Thread where
  | main
  | context
deriving DecidableEq, Repr

/-- The reader of an accepted connection, or of the outgoing one. -/
structure ReaderRef where
  kind : BaseServer.ConnectionKind
  id : Uuid
deriving DecidableEq, Repr

/-- The reader of an entry of `tcp_connections`. -/
abbrev ReaderRef.accepted (id : Uuid) : ReaderRef := ⟨.accepted, id⟩

/-- The reader of `tcp_connection`. -/
abbrev ReaderRef.outgoing (id : Uuid) : ReaderRef := ⟨.outgoing, id⟩

/-- `using_tcp_connection`, and the mutex of each reader. -/
inductive Mutex where
  | usingTcpConnection
  | reader (r : ReaderRef)
deriving DecidableEq, Repr

/-- The two bodies that `on_tcp_data` runs under the reader's mutex. -/
inductive Body where
  | first
  | consume (packet : Packet)
deriving DecidableEq, Repr

/-- What each of them leaves behind: the packet parsed under the mutex, or the span to parse. -/
inductive After where
  | parsed (packet : Option Packet)
  | reparse (buffer : Span)
deriving DecidableEq, Repr

/-- Where the main thread is. -/
inductive MainPc where
  /-- At the head of the loop of `handle_events`. -/
  | idle
  /-- A `TcpRead` was popped. -/
  | tcpRead (id : Uuid)
  /-- `find` found the id in `tcp_connections`; the guard comes next. -/
  | lockUsing (id : Uuid)
  /-- Under the guard, before `tcp_connections.at(id)`. -/
  | lookup (id : Uuid)
  /-- `on_tcp_data` is called. -/
  | enter (r : ReaderRef)
  | lock (r : ReaderRef) (client : Uuid) (body : Body)
  | body (r : ReaderRef) (client : Uuid) (body : Body)
  | unlock (r : ReaderRef) (client : Uuid) (after : After)
  /-- Before `packet = Packet::deserialize(buffer)` at the end of the loop. -/
  | parse (r : ReaderRef) (client : Uuid) (buffer : Span)
  /-- In the loop, with a packet. -/
  | handle (r : ReaderRef) (client : Uuid) (packet : Packet)
  /-- `on_tcp_data` returned. -/
  | leave (r : ReaderRef)
  /-- After a fault. -/
  | halted
deriving DecidableEq, Repr

/-- Where the context thread is; `inside` tells whether `disconnect_tcp_connection` was called from
inside the `with_lock` of `handle_tcp_read_events`. -/
inductive ContextPc where
  | idle
  | lock (r : ReaderRef)
  | body (r : ReaderRef)
  /-- In `disconnect_tcp_connection`, before the guard. -/
  | disconnect (id : Uuid) (inside : Bool)
  | erase (id : Uuid) (inside : Bool)
  | unlockUsing (id : Uuid) (inside : Bool)
  | push (id : Uuid) (inside : Bool)
  | unlock (r : ReaderRef)
  /-- In `disconnect_tcp_connection_single`, after the push. -/
  | reset (id : Uuid)
deriving DecidableEq, Repr

/-- The guard of `handle_events` is held around `on_tcp_data` for accepted connections only. -/
def ReaderRef.guard (r : ReaderRef) : List Mutex :=
  match r.kind with
  | .accepted => [.usingTcpConnection]
  | .outgoing => []

/-- The mutexes held at a place of the main thread's code. -/
def MainPc.held : MainPc → List Mutex
  | .lookup _ => [.usingTcpConnection]
  | .enter r | .lock r _ _ | .parse r _ _ | .handle r _ _ | .leave r => r.guard
  | .body r _ _ | .unlock r _ _ => .reader r :: r.guard
  | .idle | .tcpRead _ | .lockUsing _ | .halted => []

/-- The mutex the next step of the main thread locks. -/
def MainPc.wants : MainPc → Option Mutex
  | .lockUsing _ => some .usingTcpConnection
  | .lock r _ _ => some (.reader r)
  | _ => none

/-- The reader's mutex around a call of `disconnect_tcp_connection`. -/
def around (id : Uuid) (inside : Bool) : List Mutex :=
  if inside then [.reader (.accepted id)] else []

/-- The locks that the context thread has at this place. -/
def ContextPc.held : ContextPc → List Mutex
  | .body r | .unlock r => [.reader r]
  | .disconnect id inside | .push id inside => around id inside
  | .erase id inside | .unlockUsing id inside => .usingTcpConnection :: around id inside
  | .idle | .lock _ | .reset _ => []

/-- The lock that it waits for there. -/
def ContextPc.wants : ContextPc → Option Mutex
  | .lock r => some (.reader r)
  | .disconnect _ _ => some .usingTcpConnection
  | _ => none

/-- What must not happen. -/
inductive Fault where
  /-- `tcp_connections.at(id)` missed. -/
  | lookupMissed (id : Uuid)
  /-- A thread locked, unlocked or read the reader of a connection that is gone. -/
  | readerGone (thread : Thread) (r : ReaderRef)
deriving DecidableEq, Repr

/-- The server with its locks and the places of its two threads. The last three fields are for the
statements only. -/
structure System where
  server : Server
  locks : Locks Mutex Thread
  main : MainPc
  context : ContextPc
  /-- The bytes `fill_buf` brought into each reader. -/
  received : ReaderRef → List UInt8
  /-- The packets the loop of `on_tcp_data` took from each reader. -/
  taken : ReaderRef → List Packet
  faults : List Fault

/-- What the generators draw, and the leftover memory of a packet, in a step of the main thread. -/
structure Draw where
  clientUuid : Uuid
  number : UInt64
  garbage : UInt16
deriving DecidableEq, Repr

/-- The steps: one of the main thread, one of the context thread with the answer of the OS to its
read, what the context thread begins when it is idle, and a disconnection asked for. -/
inductive Act where
  | main (draw : Draw)
  | context (read : ReadOutcome)
  /-- A connection is accepted. -/
  | accept (id : Uuid) (fd : Fd)
  /-- A Read event of a connection's descriptor. -/
  | readEvent (r : ReaderRef)
  /-- A write failure or a poll error of an accepted connection. -/
  | teardown (id : Uuid)
  /-- A write failure or a poll error of the outgoing connection. -/
  | teardownSingle
  /-- One turn of the loop of `handle_disconnection`. -/
  | handleDisconnection
  | askDisconnect (id : Uuid)

namespace System

/-- The threads' places. -/
def holds (s : System) : Thread → Mutex → Prop
  | .main, m => m ∈ s.main.held
  | .context, m => m ∈ s.context.held

/-- The lock that a thread waits for. -/
def wants (s : System) : Thread → Option Mutex
  | .main => s.main.wants
  | .context => s.context.wants

/-- A step of the base server. -/
def base (s : System) (f : BaseServer → BaseServer) : System :=
  { s with server := { s.server with toBaseServer := f s.server.toBaseServer } }

/-- The reader of a connection, while the connection is there. -/
def reader (s : System) (r : ReaderRef) : Option BufReader :=
  (s.server.connection r.kind r.id).map (·.reader)

/-- A reader is changed in place. -/
def setReader (s : System) (r : ReaderRef) (reader : BufReader) : System :=
  s.base fun b => b.setReader r.kind r.id reader

/-! ## The main thread -/

/-- The main thread ends with a fault. -/
def halt (s : System) (fault : Fault) : System :=
  { s with
    main := .halted
    locks := s.locks.dropAll .main
    faults := s.faults ++ [fault] }

/-- `_tcp_events.pop`. -/
def popEvent (s : System) (rest : List (TCPEvent × Uuid)) : System :=
  s.base fun b => { b with tcpEvents := rest }

/-- One turn of the loop of `handle_events`, up to the end of a connect or disconnect. -/
def mainIdle (s : System) (draw : Draw) : Option System :=
  match s.server.tcpEvents with
  | [] => none
  | (event, id) :: rest =>
    let s := s.popEvent rest
    match event with
    | .tcpConnection =>
      if draw.clientUuid ∈ s.server.clientUUIDs then none
      else some { s with
        server := s.server.onTcpConnection draw.garbage draw.clientUuid draw.number id }
    | .tcpDisconnection => some { s with server := s.server.onTcpDisconnection id }
    | .tcpRead => some { s with main := .tcpRead id }

/-- The two lookups of a `TcpRead`, before the guard. -/
def mainTcpRead (s : System) (id : Uuid) : System :=
  if (s.server.tcpConnection.map (·.1)) = some id then { s with main := .enter (.outgoing id) }
  else if id ∈ s.server.tcpConnections then { s with main := .lockUsing id }
  else { s with main := .idle }

/-- What `on_tcp_data` does with the reader under its mutex. -/
def mainBody (s : System) (r : ReaderRef) (client : Uuid) (reader : BufReader) : Body → System
  | .first => { s with
      main := .unlock r client
        (.parsed (Packet.deserialize (reader.buf.view reader.buf.buffer))) }
  | .consume packet =>
    let reader := reader.consume packet.size
    { s.setReader r reader with main := .unlock r client (.reparse reader.buf.buffer) }

/-- The test of the loop. -/
def loopHead (r : ReaderRef) (client : Uuid) : Option Packet → MainPc
  | some packet => .handle r client packet
  | none => .leave r

/-- Where the loop of `on_tcp_data` goes on after a body that held the lock of the reader. -/
def afterUnlock (r : ReaderRef) (client : Uuid) : After → MainPc
  | .parsed packet => loopHead r client packet
  | .reparse buffer => .parse r client buffer

/-- A step that needs the reader to be there. -/
def withReader (s : System) (r : ReaderRef) (f : BufReader → Option System) : Option System :=
  match s.reader r with
  | none => some (s.halt (.readerGone .main r))
  | some reader => f reader

/-- A step of the main thread, from one access of what is shared to the next. `none`: it waits for a
lock, or has no event to handle. -/
def mainStep (transformNumber : UInt64 → UInt64) (s : System) (draw : Draw) : Option System :=
  match s.main with
  | .idle => s.mainIdle draw
  | .tcpRead id => some (s.mainTcpRead id)
  | .lockUsing id =>
    if s.locks .usingTcpConnection = none then some { s with
      locks := s.locks.acquire .usingTcpConnection .main
      main := .lookup id }
    else none
  | .lookup id =>
    if id ∈ s.server.tcpConnections then some { s with main := .enter (.accepted id) }
    else some (s.halt (.lookupMissed id))
  | .enter r =>
    match s.server.clientOf r.id with
    | none => some { s with main := .leave r }
    | some (client, _) => some { s with main := .lock r client .first }
  | .lock r client body => s.withReader r fun _ =>
    if s.locks (.reader r) = none then some { s with
      locks := s.locks.acquire (.reader r) .main
      main := .body r client body }
    else none
  | .body r client body => s.withReader r fun reader => some (s.mainBody r client reader body)
  | .unlock r client after => s.withReader r fun _ => some { s with
      locks := s.locks.release (.reader r)
      main := afterUnlock r client after }
  | .parse r client buffer =>
    -- fewer bytes than a header: the span is not read
    if buffer.size < Header.sizeof then some { s with main := .leave r }
    else s.withReader r fun reader =>
      some { s with main := loopHead r client (Packet.deserialize (reader.buf.view buffer)) }
  | .handle r client packet => some { s with
      server := s.server.handlePacket transformNumber draw.garbage client packet
      taken := Function.update s.taken r (s.taken r ++ [packet])
      main := .lock r client (.consume packet) }
  | .leave r =>
    match r.kind with
    | .accepted => some { s with
        locks := s.locks.release .usingTcpConnection
        main := .idle }
    | .outgoing => some { s with main := .idle }
  | .halted => none

/-! ## The context thread -/

/-- A fault of the context thread is passed over. -/
def passOver (s : System) (r : ReaderRef) : System :=
  { s with faults := s.faults ++ [.readerGone .context r] }

/-- What the read handlers do under the reader's mutex. -/
def contextBody (s : System) (r : ReaderRef) (reader : BufReader) (read : ReadOutcome) : System :=
  let s := { s.setReader r (reader.fillBuf read).1 with
    received := Function.update s.received r (s.received r ++ reader.delivered read) }
  match (reader.fillBuf read).2 with
  | .error _ => { s with context := .unlock r }
  | .ok buf =>
    if buf.empty then
      match r.kind with
      | .accepted => { s with context := .disconnect r.id true }
      | .outgoing => { s with context := .unlock r }
    else { s.base (·.pushEvent .tcpRead r.id) with context := .unlock r }

/-- A step of the context thread, in a handler that takes locks. `none`: it waits for a lock, or is
in no such handler. -/
def contextStep (s : System) (read : ReadOutcome) : Option System :=
  match s.context with
  | .idle => none
  | .lock r =>
    match s.reader r with
    | none => some { s.passOver r with context := .idle }
    | some _ =>
      if s.locks (.reader r) = none then some { s with
        locks := s.locks.acquire (.reader r) .context
        context := .body r }
      else none
  | .body r =>
    match s.reader r with
    | none => some { s.passOver r with context := .unlock r }
    | some reader => some (s.contextBody r reader read)
  | .disconnect id inside =>
    if s.locks .usingTcpConnection = none then some { s with
      locks := s.locks.acquire .usingTcpConnection .context
      context := .erase id inside }
    else none
  | .erase id inside =>
    some { s.base (·.detachConnection id) with context := .unlockUsing id inside }
  | .unlockUsing id inside => some { s with
      locks := s.locks.release .usingTcpConnection
      context := .push id inside }
  | .push id inside => some { s.base (·.pushEvent .tcpDisconnection id) with
      context := if inside then .unlock (.accepted id) else .idle }
  | .unlock r =>
    let s := if (s.reader r).isSome then s else s.passOver r
    some { s with
      locks := s.locks.release (.reader r)
      context := .idle }
  | .reset _ => some { s.base (·.resetConnection) with context := .idle }

/-- `disconnect_tcp_connection` called by the idle context thread. -/
def beginDisconnect (s : System) (id : Uuid) : System :=
  if id ∈ s.server.tcpConnections then { s with context := .disconnect id false } else s

/-- What the context thread begins when it is idle. -/
def contextIdle (s : System) : Act → Option System
  | .accept id fd =>
    if id ∈ s.server.generatedUUIDs then none
    else some (s.base fun b => { b with poll := b.poll.add fd }.addAccepted id fd)
  | .readEvent r =>
    if (s.reader r).isSome then some { s with context := .lock r } else none
  | .teardown id => if id ∈ s.server.tcpConnections then some (s.beginDisconnect id) else none
  | .teardownSingle =>
    match s.server.tcpConnection with
    | none => none
    | some (id, connection) => some
        { s.base fun b => (b.pollRemove connection.stream.fd).pushEvent .tcpDisconnection id with
          context := .reset id }
  | .handleDisconnection =>
    match s.server.disconnectQueue with
    | [] => none
    | id :: rest => some ((s.base fun b => { b with disconnectQueue := rest }).beginDisconnect id)
  | _ => none

/-- A step of either thread. The context thread takes up an event only when it is idle. -/
def step (transformNumber : UInt64 → UInt64) (s : System) : Act → Option System
  | .main draw => s.mainStep transformNumber draw
  | .context read => s.contextStep read
  | .askDisconnect id => some (s.base (·.askDisconnect id))
  | act => if s.context = .idle then s.contextIdle act else none

/-- The server has just started: no accepted connection, and the outgoing one, if `connect_tcp` made
it, announced. -/
structure Starts (s : System) : Prop where
  connections : s.server.tcpConnections = ∅
  outgoing : (s.server.tcpConnection = none ∧ s.server.tcpEvents = []) ∨
    ∃ id fd, s.server.tcpConnection = some (id, TcpConnection.new fd) ∧
      s.server.tcpEvents = [(.tcpConnection, id)] ∧ id ∈ s.server.generatedUUIDs
  clients : s.server.clients = []
  locks : s.locks = fun _ => none
  main : s.main = .idle
  context : s.context = .idle
  received : s.received = fun _ => []
  taken : s.taken = fun _ => []
  faults : s.faults = []

/-- The runs of both threads, from a server that has just started. -/
def machine (transformNumber : UInt64 → UInt64) : Machine System Act where
  init := Starts
  step := step transformNumber

/-! ## A server that has just started -/

/-- A server that hosts on descriptor 3, before anything happened. -/
def started : System where
  server :=
    { BaseServer.hosting ∅ with
      clients := []
      udpConnectionCache := []
      clientUUIDs := []
      calls := [] }
  locks := fun _ => none
  main := .idle
  context := .idle
  received := fun _ => []
  taken := fun _ => []
  faults := []

theorem starts_started : Starts started :=
  ⟨rfl, .inl ⟨rfl, rfl⟩, rfl, rfl, rfl, rfl, rfl, rfl, rfl⟩

/-- Where one client connects the generators draw 7 and 77. -/
def draw : Draw := ⟨7, 77, 0⟩

end System

end ProjectE.Threads
