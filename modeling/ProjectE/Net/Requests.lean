import ProjectE.Net.Context

/-!
# Requests by connection id

The main thread names connections by the ids it was told: it queues messages with `send_tcp` and
disconnections with `ask_disconnect`, and the loop pops both queues. Every id that was announced
and not taken back is an id of a connection the server has, accepted or outgoing. But the loop looks
both kinds of request up in the map of accepted connections alone: for the outgoing connection a
message and a disconnection are popped and forgotten, though its writer is polled and flushed like
any other.
`requests_by_id` says for which requests the loop does what was asked.
-/

namespace ProjectE.Net

open Verif

namespace BaseServer

/-- The connection's writer takes the message over. -/
def Appended (connection : TcpConnection) (data : List UInt8) (s : BaseServer)
    (kind : ConnectionKind) (id : Uuid) : Prop :=
  ∃ connection', s.connection kind id = some connection' ∧
    connection'.writer.buffer = connection.writer.buffer ++ data

variable {s : BaseServer} {kind : ConnectionKind} {id : Uuid} {connection : TcpConnection}

theorem not_mem_of_outgoing (hs : Sound s) (h : s.connection .outgoing id = some connection) :
    id ∉ s.tcpConnections := by
  intro hin
  obtain ⟨connection', hlookup⟩ := Option.isSome_iff_exists.mp (AList.lookup_isSome.mpr hin)
  cases hs.oneKind _ _ id _ _ (fdOf_connection h)
    (fdOf_accepted_iff.mpr ⟨connection', hlookup, rfl⟩)

theorem appended_iff {data : List UInt8} {connection' : TcpConnection}
    (h : s.connection kind id = some connection') : Appended connection data s kind id ↔
      connection'.writer.buffer = connection.writer.buffer ++ data := by
  constructor
  · rintro ⟨connection'', h', hbuffer⟩
    cases h.symm.trans h'
    exact hbuffer
  · exact fun hbuffer => ⟨connection', h, hbuffer⟩

/-- A writer that was not written takes over the empty message. -/
theorem buffer_unwritten_iff {buffer data : List UInt8} : buffer = buffer ++ data ↔ data = [] := by
  rw [eq_comm, List.append_right_eq_self]

/-- What popping a message does for the connection it is for. -/
theorem appended_appendQueued_iff {data : List UInt8} {rest : List (Uuid × List UInt8)}
    (hs : Sound s) (h : s.connection kind id = some connection)
    (hqueue : s.sendTcpQueue = (id, data) :: rest) :
    Appended connection data s.appendQueued kind id ↔
      data = [] ∨ (kind = .accepted ∧ connection.writer.accepts data = true) := by
  cases kind with
  | accepted =>
    have hlookup : s.tcpConnections.lookup id = some connection := h
    have hafter : s.appendQueued.connection .accepted id =
        some { connection with writer := (connection.writer.write data).1 } := by
      simp only [appendQueued, hqueue, hlookup]
      exact AList.lookup_insert _
    rw [appended_iff hafter]
    cases haccepts : connection.writer.accepts data with
    | true => exact iff_of_true (BufWriter.write_accepts haccepts) (.inr ⟨rfl, rfl⟩)
    | false =>
      simp only [BufWriter.write_not_accepts haccepts, buffer_unwritten_iff, Bool.false_eq_true,
        and_false, or_false]
  | outgoing =>
    -- the loop does not look there
    have hnone : s.tcpConnections.lookup id = none :=
      AList.lookup_eq_none.mpr (not_mem_of_outgoing hs h)
    have hafter : s.appendQueued.connection .outgoing id = some connection := by
      simp only [appendQueued, hqueue, hnone]
      exact h
    rw [appended_iff hafter, buffer_unwritten_iff]
    simp only [reduceCtorEq, false_and, or_false]

/-- What popping a request to disconnect does. -/
theorem tornDown_handleDisconnection_iff {rest : List Uuid} (hs : Sound s)
    (h : s.connection kind id = some connection) (hqueue : s.disconnectQueue = id :: rest) :
    TornDown s s.handleDisconnection kind id ↔ kind = .accepted := by
  cases kind with
  | accepted =>
    refine iff_of_true ?_ rfl
    simp only [handleDisconnection, hqueue]
    exact tornDown_disconnect rfl h
  | outgoing =>
    refine iff_of_false ?_ ConnectionKind.noConfusion
    have hnot : id ∉ s.tcpConnections := not_mem_of_outgoing hs h
    simp only [handleDisconnection, hqueue, disconnectTcpConnection, if_neg hnot]
    exact not_tornDown_of_events (.inl rfl)

theorem sendTcpQueue_appendQueued {message : Uuid × List UInt8} {rest : List (Uuid × List UInt8)}
    (hqueue : s.sendTcpQueue = message :: rest) : s.appendQueued.sendTcpQueue = rest := by
  simp only [appendQueued, hqueue]
  split <;> rfl

theorem disconnectQueue_handleDisconnection {rest : List Uuid}
    (hqueue : s.disconnectQueue = id :: rest) : s.handleDisconnection.disconnectQueue = rest := by
  simp only [handleDisconnection, hqueue, disconnectTcpConnection, detachConnection]
  split
  next =>
    split <;> rfl
  next => rfl

end BaseServer

namespace Context

open BaseServer

variable {isValidUdpMessage : List UInt8 → Bool} {s t : Context} {a : Label} {id : Uuid}

/-! ## Every announced id has its connection -/

/-- Who was announced and not taken back has a connection. -/
def Held (fdOf : Owner → Option Fd) (events : List (TCPEvent × Uuid)) : Prop :=
  ∀ id, (.tcpConnection, id) ∈ events → (.tcpDisconnection, id) ∉ events →
    ∃ kind fd, fdOf (.connection kind id) = some fd

variable {fdOf : Owner → Option Fd} {events : List (TCPEvent × Uuid)}

theorem Held.detach (h : Held fdOf events) (kind : ConnectionKind) (id : Uuid) :
    Held (Function.update fdOf (.connection kind id) none)
      (events ++ [(.tcpDisconnection, id)]) := by
  intro id' hmem hnot
  have hne : id' ≠ id := by
    rintro rfl
    exact hnot (List.mem_append_right _ List.mem_cons_self)
  have hold : (.tcpConnection, id') ∈ events := by
    rcases List.mem_append.mp hmem with hold | hnew
    · exact hold
    · cases List.mem_singleton.mp hnew
  obtain ⟨kind', fd, hfd⟩ := h id' hold fun hmem => hnot (List.mem_append_left _ hmem)
  refine ⟨kind', fd, ?_⟩
  rw [Function.update_of_ne, hfd]
  intro heq
  cases heq
  exact hne rfl

theorem Held.attach (h : Held fdOf events) (kind : ConnectionKind) (id : Uuid) (fd : Fd) :
    Held (Function.update fdOf (.connection kind id) (some fd))
      (events ++ [(.tcpConnection, id)]) := by
  intro id' hmem hnot
  by_cases heq : id' = id
  · subst heq
    exact ⟨kind, fd, Function.update_self ..⟩
  have hold : (.tcpConnection, id') ∈ events := by
    rcases List.mem_append.mp hmem with hold | hnew
    · exact hold
    · cases List.mem_singleton.mp hnew
      exact absurd rfl heq
  obtain ⟨kind', fd', hfd⟩ := h id' hold fun hmem => hnot (List.mem_append_left _ hmem)
  refine ⟨kind', fd', ?_⟩
  rw [Function.update_of_ne, hfd]
  intro hsame
  cases hsame
  exact heq rfl

/-- A socket that is no connection. -/
theorem Held.socket (h : Held fdOf events) {o : Owner} (ho : o = .udpSocket ∨ o = .tcpListener)
    (fd : Fd) : Held (Function.update fdOf o (some fd)) events := by
  intro id hmem hnot
  obtain ⟨kind, fd', hfd⟩ := h id hmem hnot
  refine ⟨kind, fd', ?_⟩
  rw [Function.update_of_ne, hfd]
  rintro rfl
  rcases ho with ho | ho <;> cases ho

/-- The record of announcements after a step that pops nothing. -/
theorem announced_of {added : List (TCPEvent × Uuid)} (hpopped : t.popped = s.popped)
    (h : t.server.announcements = s.server.announcements ++ added) :
    t.announced = s.announced ++ added := by
  rw [announced_eq, announced_eq, hpopped, h, List.append_assoc]

theorem held_of_same (h : Held s.server.fdOf s.announced) (hpopped : t.popped = s.popped)
    (hsame : SameTables s.server t.server) : Held t.server.fdOf t.announced := by
  have hannounced : t.announced = s.announced := by
    rw [announced_eq, announced_eq, hpopped, hsame.announcements]
  rw [hsame.fdOf, hannounced]
  exact h

theorem held_step (hinv : Inv s) (hs : Held s.server.fdOf s.announced)
    (h : (machine isValidUdpMessage).step s a = some t) : Held t.server.fdOf t.announced := by
  cases effect_of_step h with
  | setUp hrunning hopens hplace hpopped =>
    cases hopens with
    | socket o fd ho hfd ht hpoll hgiven hannounced =>
      rw [ht, announced_of hpopped (hannounced.trans (List.append_nil _).symm), List.append_nil]
      exact hs.socket ho fd
    | connection id fd hnone hfd hnew ht hpoll hgiven hannounced =>
      rw [ht, announced_of hpopped hannounced]
      exact hs.attach .outgoing id fd
  | quiet hsame hplace hpopped => exact held_of_same hs hpopped hsame.toSameTables
  | popEvent ht =>
    subst ht
    rw [fdOf_popEvent, announced_popEvent]
    exact hs
  | startContext hrunning ht hpos hrunning' hfresh hpopped =>
    exact held_of_same hs hpopped (ht ▸ sameTables_poll s.server _)
  | stopContext ht hpos hrunning hfresh hpopped =>
    exact held_of_same hs hpopped (ht ▸ (Keeps.refl s.server).toSameTables)
  | waitFails hpos ht hpos' hrunning hpopped =>
    exact held_of_same hs hpopped (ht ▸ sameTables_prepareWrite s.server)
  | wait hpos ht hpos' hpolled hopen hrunning hfresh hpopped =>
    exact held_of_same hs hpopped (ht ▸ sameTables_prepareWrite s.server)
  | turn hunused hturn hrunning hfresh hpopped =>
    cases change_of_turn hinv.sound hturn with
    | keeps hsame => exact held_of_same hs hpopped hsame.toSameTables
    | detaches kind id fd hfd ht hpoll hgiven hannounced =>
      rw [ht, announced_of hpopped hannounced]
      exact hs.detach kind id
    | accepts fd hready hok ht hpoll hgiven hannounced =>
      rw [ht, announced_of hpopped hannounced]
      exact hs.attach .accepted _ fd
    | acceptFails fd e hready hok herror hsame => exact held_of_same hs hpopped hsame
  | environment ht hplace hpopped =>
    exact held_of_same hs hpopped (ht ▸ (Keeps.refl s.server).toSameTables)

theorem held_of_reach (h : (machine isValidUdpMessage).Reach s) :
    Held s.server.fdOf s.announced := by
  refine Machine.ReachUnder.induction (J := Inv)
    (I := fun s => Held s.server.fdOf s.announced) (fun _ => inv_of_reach) ?_ ?_ h
  · intro s ⟨hserver, _, _, _, _, hpopped⟩ id hmem
    rw [announced, hserver, hpopped] at hmem
    cases hmem
  · intro s a t hs _ hheld _ hstep
    exact held_step hs hheld hstep

/-- The turn that pops the front of the send queue. -/
theorem server_of_sends {os : OsAnswers} {message : Uuid × List UInt8}
    {rest : List (Uuid × List UInt8)} (hpos : s.pos = .sends)
    (hqueue : s.server.sendTcpQueue = message :: rest)
    (h : (machine isValidUdpMessage).step s (.turn os) = some t) :
    t.server = s.server.appendQueued := by
  simp only [machine, step] at h
  split at h
  · obtain ⟨loop, hloop, ht⟩ := Option.map_eq_some_iff.mp h
    simp only [ContextLoop.step, hpos, hqueue, List.isEmpty_cons] at hloop
    cases hloop
    cases ht
    rfl
  · cases h

theorem server_of_disconnections {os : OsAnswers} {rest : List Uuid}
    (hpos : s.pos = .disconnections) (hqueue : s.server.disconnectQueue = id :: rest)
    (h : (machine isValidUdpMessage).step s (.turn os) = some t) :
    t.server = s.server.handleDisconnection := by
  simp only [machine, step] at h
  split at h
  · obtain ⟨loop, hloop, ht⟩ := Option.map_eq_some_iff.mp h
    simp only [ContextLoop.step, hpos, hqueue, List.isEmpty_cons] at hloop
    cases hloop
    cases ht
    rfl
  · cases h

/-- **Which requests by an announced id the loop fulfils.** An id that was announced and not taken
back has a connection, accepted or outgoing. A message popped for it is appended to its writer if
and only if it is empty or the connection is an accepted one and the writer has room to spare for
it; a request to disconnect popped for it tears it down, and says so, if and only if the connection
is an accepted one. -/
theorem requests_by_id (h : (machine isValidUdpMessage).Reach s)
    (hannounced : (.tcpConnection, id) ∈ s.announced)
    (hlasts : (.tcpDisconnection, id) ∉ s.announced) :
    ∃ kind connection, s.server.connection kind id = some connection ∧
      (∀ data rest os t, s.pos = .sends → s.server.sendTcpQueue = (id, data) :: rest →
        (machine isValidUdpMessage).step s (.turn os) = some t →
        t.server.sendTcpQueue = rest ∧ (Appended connection data t.server kind id ↔
          data = [] ∨ (kind = .accepted ∧ connection.writer.accepts data = true))) ∧
      ∀ rest os t, s.pos = .disconnections → s.server.disconnectQueue = id :: rest →
        (machine isValidUdpMessage).step s (.turn os) = some t →
        t.server.disconnectQueue = rest ∧
          (TornDown s.server t.server kind id ↔ kind = .accepted) := by
  have hsound := (inv_of_reach h).sound
  obtain ⟨kind, fd, hfd⟩ := held_of_reach h id hannounced hlasts
  obtain ⟨connection, hconnection, -⟩ := connection_of_fdOf hfd
  refine ⟨kind, connection, hconnection, ?_, ?_⟩
  · intro data rest os t hpos hqueue hstep
    rw [server_of_sends hpos hqueue hstep]
    exact ⟨sendTcpQueue_appendQueued hqueue, appended_appendQueued_iff hsound hconnection hqueue⟩
  · intro rest os t hpos hqueue hstep
    rw [server_of_disconnections hpos hqueue hstep]
    exact ⟨disconnectQueue_handleDisconnection hqueue,
      tornDown_handleDisconnection_iff hsound hconnection hqueue⟩

/-! ## One connection of each kind -/

/-- Connection 1 was accepted, and the loop is about to pop a message of one byte for it. -/
theorem requests_by_id_accepted : ∃ s : Context, s.pos = .sends ∧
    s.server.sendTcpQueue = [(1, [9])] ∧ ∃ kind connection,
      s.server.connection kind 1 = some connection ∧
      ∀ os t, (machine fun _ => true).step s (.turn os) = some t →
        (Appended connection [9] t.server kind 1 ↔
          ([9] : List UInt8) = [] ∨
            (kind = .accepted ∧ connection.writer.accepts [9] = true)) := by
  let idle := readAnswer (.ok [])
  have hexec : ((machine fun _ => true).exec Machine.Any made
      (hostLabels ++ [.turn (acceptAnswer (.ok ())), .sendTcp 1 [9], .turn idle, .turn idle])).any
        (fun s => s.pos = .sends ∧ s.server.sendTcpQueue = [(1, [9])] ∧
          s.announced = [(.tcpConnection, 1)]) = true := by
    decide
  obtain ⟨s, hreach, hs⟩ := Machine.reachUnder_of_exec starts_made hexec
  obtain ⟨hpos, hqueue, hannounced⟩ := of_decide_eq_true hs
  have hmem : (TCPEvent.tcpConnection, (1 : Uuid)) ∈ s.announced := by
    rw [hannounced]
    exact List.mem_cons_self
  have hnot : (TCPEvent.tcpDisconnection, (1 : Uuid)) ∉ s.announced := by
    rw [hannounced]
    decide
  obtain ⟨kind, connection, hconnection, hsends, -⟩ := requests_by_id hreach hmem hnot
  refine ⟨s, hpos, hqueue, kind, connection, hconnection, ?_⟩
  intro os t hstep
  exact (hsends [9] [] os t hpos hqueue hstep).2

/-- The server connects as connection 5 and starts. A message for 5 is popped and not appended, a
request to disconnect 5 is popped and disconnects nothing. -/
theorem not_requests_by_id :
    (¬ ∀ (s : Context) id, (machine fun _ => true).Reach s →
      (.tcpConnection, id) ∈ s.announced → (.tcpDisconnection, id) ∉ s.announced →
      ∃ kind connection, s.server.connection kind id = some connection ∧
        ∀ data rest os t, s.pos = .sends → s.server.sendTcpQueue = (id, data) :: rest →
          (machine fun _ => true).step s (.turn os) = some t →
          Appended connection data t.server kind id) ∧
    ¬ ∀ (s : Context) id, (machine fun _ => true).Reach s →
      (.tcpConnection, id) ∈ s.announced → (.tcpDisconnection, id) ∉ s.announced →
      ∃ kind connection, s.server.connection kind id = some connection ∧
        ∀ rest os t, s.pos = .disconnections → s.server.disconnectQueue = id :: rest →
          (machine fun _ => true).step s (.turn os) = some t →
          TornDown s.server t.server kind id := by
  let idle := readAnswer (.ok [])
  let connects : List Label := [.connectTcp (.ok 7) 5, .startContext, .sendTcp 5 [9],
    .askDisconnect 5, .wait (.ok [(⟨7, true, false⟩, ⟨false, false, false⟩)]), .turn idle]
  have hstill : (TCPEvent.tcpConnection, (5 : Uuid)) ∈ [(TCPEvent.tcpConnection, (5 : Uuid))] ∧
      (TCPEvent.tcpDisconnection, (5 : Uuid)) ∉ [(TCPEvent.tcpConnection, (5 : Uuid))] := by
    decide
  refine ⟨?_, ?_⟩
  · intro hall
    have hexec : ((machine fun _ => true).exec Machine.Any made
        (connects ++ [.turn idle, .turn idle])).any (fun s => s.pos = .sends ∧
          s.server.sendTcpQueue = [(5, [9])] ∧ s.announced = [(.tcpConnection, 5)] ∧
          ((machine fun _ => true).step s (.turn idle)).any fun t =>
            (t.server.connection .accepted 5).isNone ∧
              (t.server.connection .outgoing 5).map (·.writer.buffer) = some []) = true := by
      decide
    obtain ⟨s, hreach, hs⟩ := Machine.reachUnder_of_exec starts_made hexec
    obtain ⟨hpos, hqueue, hannounced, hstep⟩ := of_decide_eq_true hs
    obtain ⟨t, ht, hunwritten⟩ := (Option.any_eq_true _ _).mp hstep
    obtain ⟨hnone, hbuffer⟩ := of_decide_eq_true hunwritten
    obtain ⟨kind, connection, -, hsends⟩ := hall s 5 hreach (hannounced ▸ hstill.1)
      (hannounced ▸ hstill.2)
    obtain ⟨connection', hafter, happended⟩ := hsends [9] [] idle t hpos hqueue ht
    cases kind with
    | accepted =>
      rw [hafter] at hnone
      cases hnone
    | outgoing =>
      rw [hafter, Option.map_some, happended, Option.some.injEq] at hbuffer
      exact List.cons_ne_nil _ _ (List.append_eq_nil_iff.mp hbuffer).2
  · intro hall
    have hexec : ((machine fun _ => true).exec Machine.Any made connects).any (fun s =>
        s.pos = .disconnections ∧ s.server.disconnectQueue = [5] ∧
          s.announced = [(.tcpConnection, 5)] ∧
          ((machine fun _ => true).step s (.turn idle)).any fun t =>
            t.server.tcpEvents = s.server.tcpEvents) = true := by
      decide
    obtain ⟨s, hreach, hs⟩ := Machine.reachUnder_of_exec starts_made hexec
    obtain ⟨hpos, hqueue, hannounced, hstep⟩ := of_decide_eq_true hs
    obtain ⟨t, ht, hevents⟩ := (Option.any_eq_true _ _).mp hstep
    obtain ⟨kind, connection, -, hdisconnections⟩ := hall s 5 hreach (hannounced ▸ hstill.1)
      (hannounced ▸ hstill.2)
    exact not_tornDown_of_events (.inl (of_decide_eq_true hevents))
      (hdisconnections [] idle t hpos hqueue ht)

end Context

end ProjectE.Net
