import ProjectE.Net.BaseServer

/-!
# The read path

What one Read event does to the connection it is dispatched to. `fill_buf` answers an empty span for
a closed peer and for an array that is full behind unread bytes; the handler of accepted connections
takes both for a closed peer, the handler of the outgoing connection takes neither.

The law a reader would expect is that the event tears the connection down exactly when a read was
made and gave zero bytes (`TeardownLaw`). `teardownLaw_iff` says exactly where each handler keeps
it.
-/

namespace ProjectE.Net.BaseServer

open Verif

/-- The connection that a Read event on the descriptor is dispatched to. -/
def connectionOn (s : BaseServer) (fd : Fd) : Option (ConnectionKind × Uuid × TcpConnection) :=
  if s.udpSocket = some fd then none
  else if s.tcpListener = some fd then none
  else if s.tcpConnection.map (·.2.stream.fd) = some fd then
    s.tcpConnection.map fun pair => (.outgoing, pair.1, pair.2)
  else (s.getTcpConnection fd).map fun pair => (.accepted, pair.1, pair.2)

/-- The connection is gone and one `TcpDisconnection` was pushed. -/
def TornDown (s s' : BaseServer) (kind : ConnectionKind) (id : Uuid) : Prop :=
  s'.connection kind id = none ∧ s'.tcpEvents = s.tcpEvents ++ [(.tcpDisconnection, id)]

/-- The read of the OS was made, and it gave zero bytes. -/
def PeerClosed (connection : TcpConnection) (os : OsAnswers) : Prop :=
  connection.reader.buf.readsInner = true ∧ os.read = .ok []

/-- A Read event tears its connection down exactly when the peer closed it. -/
def TeardownLaw (isValidUdpMessage : List UInt8 → Bool) (s : BaseServer) (fd : Fd)
    (os : OsAnswers) : Prop :=
  ∀ kind id connection, s.connectionOn fd = some (kind, id, connection) →
    (TornDown s (s.handleRead isValidUdpMessage fd os) kind id ↔ PeerClosed connection os)

variable {isValidUdpMessage : List UInt8 → Bool} {s : BaseServer} {fd : Fd} {os : OsAnswers}
  {id : Uuid} {connection : TcpConnection}

/-- Pushing no event is no teardown. -/
theorem not_tornDown_of_events {s' : BaseServer} {kind : ConnectionKind}
    (h : s'.tcpEvents = s.tcpEvents ∨ s'.tcpEvents = s.tcpEvents ++ [(.tcpRead, id)]) :
    ¬ TornDown s s' kind id := by
  rintro ⟨-, hev⟩
  rcases h with h | h
  · rw [h] at hev
    have := congrArg List.length hev
    simp at this
  · rw [h] at hev
    have := List.append_cancel_left hev
    simp at this

/-- What the handler of accepted connections does with the three answers of `fill_buf`. -/
theorem handleTcpReadEvents_of_fillBuf (h : s.getTcpConnection fd = some (id, connection)) :
    s.handleTcpReadEvents fd os =
      match (connection.reader.fillBuf os.read).2 with
      | .error _ =>
        s.setConnection id { connection with reader := (connection.reader.fillBuf os.read).1 }
      | .ok buf =>
        let s := s.setConnection id
          { connection with reader := (connection.reader.fillBuf os.read).1 }
        if buf.empty then s.disconnectTcpConnection id else s.pushEvent .tcpRead id := by
  unfold handleTcpReadEvents
  generalize s.getTcpConnection fd = found at h ⊢
  subst h
  rfl

/-- What the handler of the outgoing connection does with them. -/
theorem handleTcpReadConnection_of_fillBuf (h : s.tcpConnection = some (id, connection)) :
    s.handleTcpReadConnection os =
      match (connection.reader.fillBuf os.read).2 with
      | .error _ => { s with
          tcpConnection :=
            some (id, { connection with reader := (connection.reader.fillBuf os.read).1 }) }
      | .ok buf =>
        let s := { s with
          tcpConnection :=
            some (id, { connection with reader := (connection.reader.fillBuf os.read).1 }) }
        if buf.empty then s else s.pushEvent .tcpRead id := by
  unfold handleTcpReadConnection
  generalize s.tcpConnection = found at h ⊢
  subst h
  rfl

/-- Disconnecting a connection that is there tears it down. -/
theorem tornDown_disconnect {s' : BaseServer} (hev : s'.tcpEvents = s.tcpEvents)
    (hc : s'.tcpConnections.lookup id = some connection) :
    TornDown s (s'.disconnectTcpConnection id) .accepted id := by
  have hin : id ∈ s'.tcpConnections :=
    AList.lookup_isSome.mp (Option.isSome_iff_exists.mpr ⟨_, hc⟩)
  simp only [disconnectTcpConnection, if_pos hin, detachConnection, hc]
  constructor
  · exact AList.lookup_erase _ _
  · simp only [pushEvent, eraseConnection, pollRemove, hev]

/-- The handler of accepted connections tears down on the empty answer. -/
theorem tornDown_accepted_iff (h : s.getTcpConnection fd = some (id, connection)) :
    TornDown s (s.handleTcpReadEvents fd os) .accepted id ↔
      connection.reader.full = true ∨ os.read = .ok [] := by
  rw [← connection.reader.fillBuf_empty_iff, handleTcpReadEvents_of_fillBuf h]
  cases hres : (connection.reader.fillBuf os.read).2 with
  | error e =>
    apply iff_of_false (not_tornDown_of_events (.inl rfl))
    rintro ⟨_, hs, -⟩
    cases hs
  | ok buf =>
    cases hempty : buf.empty with
    | true =>
      refine iff_of_true ?_ ⟨buf, rfl, hempty⟩
      simp only [hempty, if_true]
      exact tornDown_disconnect rfl (AList.lookup_insert _)
    | false =>
      simp only [hempty, Bool.false_eq_true, if_false]
      apply iff_of_false (not_tornDown_of_events (.inr rfl))
      rintro ⟨_, hs, he⟩
      cases hs
      rw [hempty] at he
      cases he

/-- The handler of the outgoing connection never tears down. -/
theorem not_tornDown_outgoing (h : s.tcpConnection = some (id, connection)) :
    ¬ TornDown s (s.handleTcpReadConnection os) .outgoing id := by
  rw [handleTcpReadConnection_of_fillBuf h]
  cases (connection.reader.fillBuf os.read).2 with
  | error e => exact not_tornDown_of_events (.inl rfl)
  | ok buf =>
    cases hempty : buf.empty with
    | true =>
      simp only [hempty, if_true]
      exact not_tornDown_of_events (.inl rfl)
    | false =>
      simp only [hempty, Bool.false_eq_true, if_false]
      exact not_tornDown_of_events (.inr rfl)

theorem peerClosed_iff : PeerClosed connection os ↔
    connection.reader.full = false ∧ os.read = .ok [] := by
  rw [PeerClosed, connection.reader.readsInner_eq_not_full, Bool.not_eq_true']

/-- The dispatch of a Read event, read off `connectionOn`. -/
theorem handleRead_of_connectionOn (isValidUdpMessage : List UInt8 → Bool) (os : OsAnswers)
    {kind : ConnectionKind} (h : s.connectionOn fd = some (kind, id, connection)) :
    (kind = .accepted ∧ s.getTcpConnection fd = some (id, connection) ∧
      s.handleRead isValidUdpMessage fd os = s.handleTcpReadEvents fd os) ∨
    (kind = .outgoing ∧ s.tcpConnection = some (id, connection) ∧
      s.handleRead isValidUdpMessage fd os = s.handleTcpReadConnection os) := by
  unfold connectionOn at h
  unfold handleRead
  split at h
  · cases h
  next hudp =>
  split at h
  · cases h
  next hlistener =>
  rw [if_neg hudp, if_neg hlistener]
  split at h
  · next hout =>
    right
    obtain ⟨pair, hpair, heq⟩ := Option.map_eq_some_iff.mp h
    cases heq
    exact ⟨rfl, hpair, if_pos hout⟩
  · next hout =>
    left
    obtain ⟨pair, hpair, heq⟩ := Option.map_eq_some_iff.mp h
    cases heq
    exact ⟨rfl, hpair, if_neg hout⟩

/-- A Read event tears an accepted connection down exactly on the empty answer of `fill_buf`. -/
theorem tornDown_handleRead_iff (h : s.connectionOn fd = some (.accepted, id, connection)) :
    TornDown s (s.handleRead isValidUdpMessage fd os) .accepted id ↔
      connection.reader.full = true ∨ os.read = .ok [] := by
  obtain ⟨-, hget, hread⟩ | ⟨hkind, -⟩ := handleRead_of_connectionOn isValidUdpMessage os h
  · rw [hread, tornDown_accepted_iff hget]
  · cases hkind

/-- **The teardown law, exactly where it holds**: for an accepted connection as long as its array is
not full behind unread bytes, for the outgoing one as long as its peer does not close. -/
theorem teardownLaw_iff {kind : ConnectionKind}
    (h : s.connectionOn fd = some (kind, id, connection)) :
    TeardownLaw isValidUdpMessage s fd os ↔
      match kind with
      | .accepted => connection.reader.full = false
      | .outgoing => ¬ (connection.reader.full = false ∧ os.read = .ok []) := by
  have hlaw : TeardownLaw isValidUdpMessage s fd os ↔
      (TornDown s (s.handleRead isValidUdpMessage fd os) kind id ↔ PeerClosed connection os) := by
    constructor
    · intro hall
      exact hall _ _ _ h
    · intro hone kind' id' connection' h'
      rw [h] at h'
      cases h'
      exact hone
  rw [hlaw, peerClosed_iff]
  cases kind with
  | accepted =>
    rw [tornDown_handleRead_iff h]
    cases hfull : connection.reader.full with
    | true => simp
    | false => simp
  | outgoing =>
    obtain ⟨hkind, -⟩ | ⟨-, hget, hread⟩ := handleRead_of_connectionOn isValidUdpMessage os h
    · cases hkind
    · rw [hread]
      simp only [not_tornDown_outgoing hget, false_iff]

/-! ## A server with one accepted connection -/

/-- Connection 1 on descriptor 5, after one read of `bs`. -/
def afterRead (bs : List UInt8) : TcpConnection :=
  { TcpConnection.new 5 with reader := (BufReader.new.fillBuf (.ok bs)).1 }

theorem getTcpConnection_hosting {connection : TcpConnection} (h : connection.stream.fd = 5) :
    (hosting (AList.singleton 1 connection)).getTcpConnection 5 = some (1, connection) := by
  simp only [getTcpConnection, hosting, AList.singleton_entries, List.find?_cons, h, decide_true,
    Option.map_some]

theorem connectionOn_hosting {connection : TcpConnection} (h : connection.stream.fd = 5) :
    (hosting (AList.singleton 1 connection)).connectionOn 5 = some (.accepted, 1, connection) := by
  have h3 : ¬ (hosting (AList.singleton 1 connection)).tcpListener = some 5 := by
    simp only [hosting, Option.some.injEq]
    decide
  simp only [connectionOn, getTcpConnection_hosting h, if_neg h3]
  rfl

/-- A closed peer is detected while the array has room. -/
theorem teardownLaw_fresh_peerClosed : TeardownLaw (fun _ => true)
    (hosting (AList.singleton 1 (TcpConnection.new 5))) 5 (readAnswer (.ok [])) :=
  (teardownLaw_iff (connectionOn_hosting rfl)).mpr rfl

/-- Connection 1 has 8192 unread bytes, and its peer sends one byte more: it is torn down. -/
theorem not_teardownLaw_full :
    ¬ ∀ (s : BaseServer) (fd : Fd) (os : OsAnswers), TeardownLaw (fun _ => true) s fd os := by
  intro hall
  let connection := afterRead (List.replicate DEFAULT_BUF_SIZE 7)
  have hfull : connection.reader.full = true := by
    apply BufReader.full_of_length_unread
    rw [show connection.reader.unread = _ from BufReader.unread_fillBuf_new _,
      List.take_of_length_le (Nat.le_of_eq List.length_replicate), List.length_replicate]
  have hon : (hosting (AList.singleton 1 connection)).connectionOn 5 =
      some (.accepted, 1, connection) := connectionOn_hosting rfl
  have hclosed := (hall _ 5 (readAnswer (.ok [7])) _ _ _ hon).mp
    ((tornDown_handleRead_iff hon).mpr (.inl hfull))
  cases (peerClosed_iff.mp hclosed).2

end ProjectE.Net.BaseServer
