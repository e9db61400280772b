import ProjectE.Net.AddrParse
import ProjectE.Net.BaseServer

/-!
# Setting a server up

`host_tcp`, `host_udp`, `connect_tcp`, `connect_udp`, `start_context` and `Server::host` with what
they answer and with every call into the OS they make on the way; `BaseServer` and `Context` have
only what a call does when its sockets are made or not made.

A call that answers an error should leave the server as it found it, so that it can be made again
(`Unchanged`). A call has up to five places to fail at. All but two of them come before anything is
stored, or undo what was stored; the two are the second half of `Server::host` and the last step of
`connect_udp`, and `FailsLate` says of a call that it gets to one of them.
-/

namespace ProjectE.Net

/-- `BaseServerError::Kind`: why a call that sets the server up was refused or failed. A thread that
cannot be made is told as a connection that cannot. -/
inductive BaseServerError where
  | bindError
  | socketAlreadyConnected
  | badIpAddress
  | tcpConnectError
  | serverAlreadyRunning
deriving DecidableEq, Repr

/-- What the OS answers to the calls that set one socket up, each of them whether it is made or not.
`setsockopt` is the one of `set_reuse_addr`, and `close` the one after a `connect` that failed. -/
structure SocketCalls where
  getaddrinfo : Except ErrorCode UInt32
  socket : Except ErrorCode Fd
  bind : Except ErrorCode Unit
  setsockopt : Except ErrorCode Unit
  listen : Except ErrorCode Unit
  connect : Except ErrorCode Unit
  close : Except ErrorCode Unit
  getsockname : Except ErrorCode SocketAddr

namespace Ipv4Addr

/-- `Ipv4Addr::parse_ascii`: an empty text is refused, and every other one goes to the resolver,
whose failures all become the one error. -/
def parseAscii (str : String) (os : SocketCalls) : Except AddrParseError Ipv4Addr :=
  if str.isEmpty then .error .emptyString
  else
    match os.getaddrinfo with
    | .error _ => .error .invalidIpv4Address
    | .ok addr => .ok (ofUInt32 addr)

/-- One call is answered as a resolver that always finds the same would have it. -/
theorem parseAscii_eq (str : String) (os : SocketCalls) :
    parseAscii str os = parseAsciiWith (fun _ => os.getaddrinfo) str.toList := by
  have hempty : str.isEmpty = true ↔ str.toList = [] := by
    rw [String.isEmpty_iff, String.toList_eq_nil_iff]
  unfold parseAscii parseAsciiWith
  by_cases hnil : str.toList = []
  · exact (if_pos (hempty.mpr hnil)).trans (if_pos hnil).symm
  · exact (if_neg (mt hempty.mp hnil)).trans (if_neg hnil).symm

end Ipv4Addr

/-- `Socket::create(addr, type)`: the socket is bound to the address, and closed where it cannot be
bound. -/
def Socket.create (os : SocketCalls) : Except ErrorCode Fd := do
  let sockfd ← os.socket
  os.bind
  return sockfd

/-- `set_reuse_addr` closes the socket where it fails. What it answers is not looked at: `listen` is
called either way, and where that fails nothing is closed. -/
def TcpListener.bind (os : SocketCalls) : Except ErrorCode Fd := do
  let sockfd ← Socket.create os
  os.listen
  return sockfd

/-- `TcpStream::connect`: the socket is closed where it cannot be connected. An error of the close
is answered in the place of the one before it. -/
def TcpStream.connect (os : SocketCalls) : Except ErrorCode Fd := do
  let sockfd ← os.socket
  match os.connect with
  | .ok () => return sockfd
  | .error e =>
    os.close
    .error e

/-- `UdpSocket::bind(addr)`: a socket that is bound needs nothing else. -/
def UdpSocket.bind (os : SocketCalls) : Except ErrorCode Fd := Socket.create os

/-- `UdpSocket::any()`: bound to port 0 of any address. -/
def UdpSocket.any (os : SocketCalls) : Except ErrorCode Fd := Socket.create os

/-- A server, and `_running`. -/
structure Setup where
  server : BaseServer
  running : Bool
deriving DecidableEq

namespace Setup

/-- `host_tcp`: the listener is stored only where it listens. One that was there before is replaced
without being closed. -/
def hostTcp (s : Setup) (os : SocketCalls) : Except BaseServerError Unit × Setup :=
  match TcpListener.bind os with
  | .error _ => (.error .bindError, s)
  | .ok fd => (.ok (), { s with server := { s.server with tcpListener := some fd } })

/-- `host_udp`: the same for the UDP socket. -/
def hostUdp (s : Setup) (os : SocketCalls) : Except BaseServerError Unit × Setup :=
  match UdpSocket.bind os with
  | .error _ => (.error .bindError, s)
  | .ok fd => (.ok (), { s with server := { s.server with udpSocket := some fd } })

/-- `newUuid` is what `tcp_uuid_generator` gives, if it is asked. -/
def connectTcp (s : Setup) (ip : String) (os : SocketCalls) (newUuid : Uuid) :
    Except BaseServerError Unit × Setup :=
  if s.running then (.error .serverAlreadyRunning, s)
  else if s.server.tcpConnection.isSome then (.error .socketAlreadyConnected, s)
  else
    match Ipv4Addr.parseAscii ip os with
    | .error _ => (.error .badIpAddress, s)
    | .ok _ =>
      match TcpStream.connect os with
      | .error _ => (.error .tcpConnectError, s)
      | .ok fd =>
        let server : BaseServer :=
          { s.server with
            tcpConnection := some (newUuid, TcpConnection.new fd)
            generatedUUIDs := newUuid :: s.server.generatedUUIDs }
        (.ok (), { s with server := server.pushEvent .tcpConnection newUuid })

/-- `connect_udp`: the peer counts as confirmed at once. -/
def connectUdp (s : Setup) (ip : String) (port : UInt16) (os : SocketCalls) :
    Except BaseServerError Unit × Setup :=
  if s.running then (.error .serverAlreadyRunning, s)
  else if s.server.udpSocket.isSome then (.error .socketAlreadyConnected, s)
  else
    match Ipv4Addr.parseAscii ip os with
    | .error _ => (.error .badIpAddress, s)
    | .ok address =>
      match UdpSocket.any os with
      | .error _ => (.error .bindError, s)
      | .ok fd =>
        let s := { s with server := { s.server with udpSocket := some fd } }
        -- The socket is in its place already where its own address is asked for.
        match os.getsockname with
        | .error _ => (.error .bindError, s)
        | .ok _ =>
          let server : BaseServer :=
            { s.server with
              udpConnectionAddr := some (.v4 ⟨address, port⟩)
              udpConfirmed := true }
          (.ok (), { s with server := server })

/-- `thread` says whether the thread could be made. -/
def startContext (s : Setup) (thread : Except ErrorCode Unit) :
    Except BaseServerError Unit × Setup :=
  if s.running then (.error .serverAlreadyRunning, s)
  else
    let s := { s with running := true }
    match thread with
    | .error _ => (.error .tcpConnectError, { s with running := false })
    | .ok () => (.ok (), s)

/-- `Server::host`: first the TCP side and then the UDP side. Where the second fails the first
stays. -/
def host (s : Setup) (tcp udp : SocketCalls) : Except BaseServerError Unit × Setup :=
  match s.hostTcp tcp with
  | (.error e, s) => (.error e, s)
  | (.ok (), s) => s.hostUdp udp

/-- The calls. `Server`'s own `connect_tcp`, `connect_udp` and `start` are those of `BaseServer`. -/
inductive Call where
  | hostTcp (os : SocketCalls)
  | hostUdp (os : SocketCalls)
  | host (tcp udp : SocketCalls)
  | connectTcp (ip : String) (os : SocketCalls) (newUuid : Uuid)
  | connectUdp (ip : String) (port : UInt16) (os : SocketCalls)
  | startContext (thread : Except ErrorCode Unit)

/-- The server after a call, and what the call answers. -/
def call (s : Setup) : Call → Except BaseServerError Unit × Setup
  | .hostTcp os => s.hostTcp os
  | .hostUdp os => s.hostUdp os
  | .host tcp udp => s.host tcp udp
  | .connectTcp ip os newUuid => s.connectTcp ip os newUuid
  | .connectUdp ip port os => s.connectUdp ip port os
  | .startContext thread => s.startContext thread

/-! ## The same calls without their answers -/

variable {s t : Setup} {e : BaseServerError}

/-- `host_tcp` does to the server what `BaseServer.hostTcp` does with its socket. -/
theorem hostTcp_server (s : Setup) (os : SocketCalls) :
    (s.hostTcp os).2.server = s.server.hostTcp (TcpListener.bind os) := by
  unfold hostTcp BaseServer.hostTcp
  cases TcpListener.bind os <;> rfl

/-- `host_udp` does what `BaseServer.hostUdp` does with its socket. -/
theorem hostUdp_server (s : Setup) (os : SocketCalls) :
    (s.hostUdp os).2.server = s.server.hostUdp (UdpSocket.bind os) := by
  unfold hostUdp BaseServer.hostUdp
  cases UdpSocket.bind os <;> rfl

/-- An address that is refused is one more error. -/
theorem connectTcp_server (s : Setup) (ip : String) (os : SocketCalls) (newUuid : Uuid) :
    (s.connectTcp ip os newUuid).2.server =
      match Ipv4Addr.parseAscii ip os with
      | .error _ => s.server.connectTcp s.running (.error 0) newUuid
      | .ok _ => s.server.connectTcp s.running (TcpStream.connect os) newUuid := by
  unfold connectTcp BaseServer.connectTcp
  cases Ipv4Addr.parseAscii ip os with
  | error e =>
    split
    · rfl
    · split <;> rfl
  | ok address =>
    split
    · rfl
    · split
      · rfl
      · cases TcpStream.connect os <;> rfl

/-- Here too an address that is refused is one more error; `getsockname` is asked only of a socket
that was made. -/
theorem connectUdp_server (s : Setup) (ip : String) (port : UInt16) (os : SocketCalls) :
    (s.connectUdp ip port os).2.server =
      match Ipv4Addr.parseAscii ip os with
      | .error _ => s.server.connectUdp s.running (.error 0) os.getsockname .default
      | .ok address =>
        s.server.connectUdp s.running (UdpSocket.any os) os.getsockname (.v4 ⟨address, port⟩) := by
  unfold connectUdp BaseServer.connectUdp
  cases Ipv4Addr.parseAscii ip os with
  | error e =>
    split
    · rfl
    · split <;> rfl
  | ok address =>
    split
    · rfl
    · split
      · rfl
      · cases UdpSocket.any os with
        | error e => rfl
        | ok fd => cases os.getsockname <;> rfl

/-! ## Calls that fail -/

/-- What a call that fails should have left alone: the sockets, the peer, the flag and the
announcements. `tcp_connection` and its id are one field. -/
structure Unchanged (s t : Setup) : Prop where
  tcpListener : t.server.tcpListener = s.server.tcpListener
  udpSocket : t.server.udpSocket = s.server.udpSocket
  tcpConnection : t.server.tcpConnection = s.server.tcpConnection
  udpConnectionAddr : t.server.udpConnectionAddr = s.server.udpConnectionAddr
  udpConfirmed : t.server.udpConfirmed = s.server.udpConfirmed
  running : t.running = s.running
  tcpEvents : t.server.tcpEvents = s.server.tcpEvents

/-- A server that a call has not touched. -/
theorem Unchanged.refl (s : Setup) : Unchanged s s := ⟨rfl, rfl, rfl, rfl, rfl, rfl, rfl⟩

/-- The call fails, and it does so after it has stored a socket. -/
def FailsLate (s : Setup) : Call → Prop
  | .host tcp udp => ∃ fd e, TcpListener.bind tcp = .ok fd ∧ s.server.tcpListener ≠ some fd ∧
      UdpSocket.bind udp = .error e
  | .connectUdp ip _ os => s.running = false ∧ s.server.udpSocket = none ∧
      ∃ address fd e, Ipv4Addr.parseAscii ip os = .ok address ∧ UdpSocket.any os = .ok fd ∧
        os.getsockname = .error e
  | _ => False

/-- `host_tcp` fails before anything is stored. -/
theorem hostTcp_of_error {os : SocketCalls} (h : s.hostTcp os = (.error e, t)) : t = s := by
  unfold hostTcp at h
  cases hbind : TcpListener.bind os with
  | error e' =>
    rw [hbind] at h
    exact (congrArg Prod.snd h).symm
  | ok fd =>
    rw [hbind] at h
    exact nomatch congrArg Prod.fst h

/-- `host_udp` fails before anything is stored, and only where its socket cannot be bound. -/
theorem hostUdp_of_error {os : SocketCalls} (h : s.hostUdp os = (.error e, t)) :
    t = s ∧ ∃ e', UdpSocket.bind os = .error e' := by
  unfold hostUdp at h
  cases hbind : UdpSocket.bind os with
  | error e' =>
    rw [hbind] at h
    exact ⟨(congrArg Prod.snd h).symm, e', rfl⟩
  | ok fd =>
    rw [hbind] at h
    exact nomatch congrArg Prod.fst h

/-- All four ways in which `connect_tcp` can fail come before anything is stored. -/
theorem connectTcp_of_error {ip : String} {os : SocketCalls} {newUuid : Uuid}
    (h : s.connectTcp ip os newUuid = (.error e, t)) : t = s := by
  unfold connectTcp at h
  split at h
  · exact (congrArg Prod.snd h).symm
  split at h
  · exact (congrArg Prod.snd h).symm
  split at h
  · exact (congrArg Prod.snd h).symm
  split at h
  · exact (congrArg Prod.snd h).symm
  · exact nomatch congrArg Prod.fst h

/-- `connect_udp` keeps its socket where it fails last. -/
theorem connectUdp_of_error {ip : String} {port : UInt16} {os : SocketCalls}
    (h : s.connectUdp ip port os = (.error e, t)) :
    t = s ∨ FailsLate s (.connectUdp ip port os) ∧
      ∃ fd, t = { s with server := { s.server with udpSocket := some fd } } := by
  unfold connectUdp at h
  split at h
  · exact .inl (congrArg Prod.snd h).symm
  next hrunning =>
  split at h
  · exact .inl (congrArg Prod.snd h).symm
  next hsocket =>
  split at h
  · exact .inl (congrArg Prod.snd h).symm
  next address hparse =>
  split at h
  · exact .inl (congrArg Prod.snd h).symm
  next fd hany =>
  simp only at h
  split at h
  next e' hname =>
    have hfree : s.running = false ∧ s.server.udpSocket = none :=
      ⟨Bool.eq_false_of_not_eq_true hrunning, Option.not_isSome_iff_eq_none.mp hsocket⟩
    exact .inr ⟨⟨hfree.1, hfree.2, address, fd, e', hparse, hany, hname⟩, fd,
      (congrArg Prod.snd h).symm⟩
  · exact nomatch congrArg Prod.fst h

/-- `start_context` takes `_running` back. -/
theorem startContext_of_error {thread : Except ErrorCode Unit}
    (h : s.startContext thread = (.error e, t)) : t = s := by
  unfold startContext at h
  split at h
  · exact (congrArg Prod.snd h).symm
  next hrunning =>
  cases thread with
  | error e' =>
    have ht : t = { s with running := false } := (congrArg Prod.snd h).symm
    rw [ht, ← Bool.eq_false_of_not_eq_true hrunning]
  | ok u => exact nomatch congrArg Prod.fst h

/-- The two halves of `Server::host`. -/
theorem host_of_error {tcp udp : SocketCalls} (h : s.host tcp udp = (.error e, t)) :
    t = s ∨ ∃ fd e', TcpListener.bind tcp = .ok fd ∧ UdpSocket.bind udp = .error e' ∧
      t = { s with server := { s.server with tcpListener := some fd } } := by
  cases hbind : TcpListener.bind tcp with
  | error e' =>
    have htcp : s.hostTcp tcp = (.error .bindError, s) := by rw [hostTcp, hbind]
    rw [host, htcp] at h
    exact .inl (congrArg Prod.snd h).symm
  | ok fd =>
    have htcp : s.hostTcp tcp =
        (.ok (), { s with server := { s.server with tcpListener := some fd } }) := by
      rw [hostTcp, hbind]
    rw [host, htcp] at h
    obtain ⟨hsame, e', hudp⟩ := hostUdp_of_error h
    exact .inr ⟨fd, e', rfl, hudp, hsame⟩

/-- A call that fails late has stored a socket. -/
theorem call_of_failsLate {c : Call} (h : FailsLate s c) :
    ∃ e t, s.call c = (.error e, t) ∧ ¬ Unchanged s t := by
  cases c with
  | host tcp udp =>
    obtain ⟨fd, e, htcp, hother, hudp⟩ := h
    refine ⟨.bindError, { s with server := { s.server with tcpListener := some fd } }, ?_, ?_⟩
    · simp only [call, host, hostTcp, htcp, hostUdp, hudp]
    · intro hsame
      exact hother hsame.tcpListener.symm
  | connectUdp ip port os =>
    obtain ⟨hrunning, hsocket, address, fd, e, hparse, hany, hname⟩ := h
    refine ⟨.bindError, { s with server := { s.server with udpSocket := some fd } }, ?_, ?_⟩
    · simp [call, connectUdp, hrunning, hsocket, hparse, hany, hname]
    · intro hsame
      have hkept : some fd = s.server.udpSocket := hsame.udpSocket
      rw [hsocket] at hkept
      cases hkept
  | hostTcp os => exact h.elim
  | hostUdp os => exact h.elim
  | connectTcp ip os newUuid => exact h.elim
  | startContext thread => exact h.elim

/-- **A call that fails changes nothing, unless it fails late**: for every server and every outcome
of the calls into the OS, a call that answers an error leaves the server as it was if and only if it
does not fail late. That a descriptor is left open with nobody to close it is not looked at here. -/
theorem failed_call_unchanged_iff (s : Setup) (c : Call) :
    (∀ e t, s.call c = (.error e, t) → Unchanged s t) ↔ ¬ FailsLate s c := by
  constructor
  · intro hatomic hlate
    obtain ⟨e, t, herror, hchanged⟩ := call_of_failsLate hlate
    exact hchanged (hatomic e t herror)
  · intro hearly e t h
    cases c with
    | hostTcp os =>
      rw [hostTcp_of_error h]
      exact .refl s
    | hostUdp os =>
      rw [(hostUdp_of_error h).1]
      exact .refl s
    | host tcp udp =>
      rcases host_of_error h with rfl | ⟨fd, e', htcp, hudp, rfl⟩
      · exact .refl t
      · -- Not late: the listener was this descriptor before.
        have hsame : s.server.tcpListener = some fd := by
          by_contra hother
          exact hearly ⟨fd, e', htcp, hother, hudp⟩
        exact ⟨hsame.symm, rfl, rfl, rfl, rfl, rfl, rfl⟩
    | connectTcp ip os newUuid =>
      rw [connectTcp_of_error h]
      exact .refl s
    | connectUdp ip port os =>
      rcases connectUdp_of_error h with rfl | ⟨hlate, _⟩
      · exact .refl t
      · exact (hearly hlate).elim
    | startContext thread =>
      rw [startContext_of_error h]
      exact .refl s

/-- A socket that is bound, and whose own address the OS does not tell. -/
def namelessSocket : SocketCalls where
  getaddrinfo := .ok 0x0100007F
  socket := .ok 3
  bind := .ok ()
  setsockopt := .ok ()
  listen := .ok ()
  connect := .ok ()
  close := .ok ()
  getsockname := .error 105

/-- `connect_udp` on a new server, where `getsockname` fails, answers `bindError` and leaves its
socket behind. -/
theorem not_failed_call_unchanged :
    ¬ ∀ (s : Setup) (c : Call) (e : BaseServerError) (t : Setup),
      s.call c = (.error e, t) → Unchanged s t := by
  intro h
  have hkept := (h ⟨BaseServer.new, false⟩ (.connectUdp "127.0.0.1" 4000 namelessSocket)
    .bindError _ rfl).udpSocket
  cases hkept

/-- After a late failure of `connect_udp` the call cannot be made again: it is refused for the
socket that it left, whatever the OS answers. -/
theorem connectUdp_retry {ip : String} {port : UInt16} {os : SocketCalls}
    (hlate : FailsLate s (.connectUdp ip port os)) (ip' : String) (port' : UInt16)
    (os' : SocketCalls) :
    ((s.connectUdp ip port os).2.connectUdp ip' port' os').1 = .error .socketAlreadyConnected := by
  obtain ⟨hrunning, hsocket, address, fd, e, hparse, hany, hname⟩ := hlate
  have hleft : (s.connectUdp ip port os).2 =
      { s with server := { s.server with udpSocket := some fd } } := by
    simp [connectUdp, hrunning, hsocket, hparse, hany, hname]
  rw [hleft]
  simp [connectUdp, hrunning]

end Setup

end ProjectE.Net
