import ProjectE.Net.Interest
import ProjectE.Net.Dispatch
import ProjectE.Net.SendPath

/-!
# Pending output goes out

What was asked to be sent over a connection does not stay: while the OS reports its stream writable
wherever that was asked for, and takes a byte or more with each write, the socket has taken all of
it, in order, after as many waits of the loop as there were bytes, and two (`output_drains`). Reads,
datagrams, other connections and calls of the main thread may come between as they like.

Each wait pays one byte of a debt: that of a writer that holds bytes is due when its write event is
in the batch, and a message that came into the queue after the loop had passed it waits one round.
-/

namespace ProjectE.Net

open Verif

namespace BaseServer

variable {s t : BaseServer} {id id' : Uuid} {connection connection' : TcpConnection} {fd : Fd}
  {os : OsAnswers}

/-! ## The writer of a connection -/

/-- The writer of an accepted connection holds no more than before. -/
def Lessens (id : Uuid) (s t : BaseServer) : Prop :=
  (t.buffered id).length ≤ (s.buffered id).length

/-- Nothing happened. -/
theorem Lessens.refl (id : Uuid) (s : BaseServer) : Lessens id s s := le_rfl

/-- The connections are all that matters. -/
theorem lessens_congr (h : t.tcpConnections = s.tcpConnections) : Lessens id s t := by
  rw [Lessens, buffered, buffered, h]

/-- A connection that is taken down has nothing left to write, and the others what they had. -/
theorem lessens_disconnectTcpConnection (s : BaseServer) (id id' : Uuid) :
    Lessens id s (s.disconnectTcpConnection id') := by
  by_cases heq : id = id'
  · subst heq
    unfold disconnectTcpConnection detachConnection
    split
    next hin =>
      split
      next hnone => exact .refl id s
      next connection hsome =>
        rw [Lessens]
        simp only [buffered, pushEvent, pollRemove, eraseConnection, AList.lookup_erase]
        exact Nat.zero_le _
    next => exact .refl id s
  · have hsame : (s.disconnectTcpConnection id').connection .accepted id =
        s.connection .accepted id := connection_disconnectTcpConnection fun _ => heq
    change (s.disconnectTcpConnection id').tcpConnections.lookup id =
      s.tcpConnections.lookup id at hsame
    rw [Lessens, buffered, buffered, hsame]

/-- The same for a request to take one down. -/
theorem lessens_handleDisconnection (s : BaseServer) : Lessens id s s.handleDisconnection := by
  unfold handleDisconnection
  split
  next => exact .refl id s
  next id' rest hqueue =>
    exact lessens_disconnectTcpConnection { s with disconnectQueue := rest } id id'

/-- A connection is put back with no more in its writer. -/
theorem lessens_setConnection (h : s.tcpConnections.lookup id' = some connection)
    (hle : connection'.writer.buffer.length ≤ connection.writer.buffer.length) :
    Lessens id s (s.setConnection id' connection') := by
  by_cases heq : id = id'
  · subst heq
    simp only [Lessens, buffered, setConnection, AList.lookup_insert, h, Option.elim_some]
    exact hle
  · simp only [Lessens, buffered, setConnection, AList.lookup_insert_ne heq, le_refl]

/-- Reading touches no writer. -/
theorem lessens_handleTcpReadEvents (s : BaseServer) (fd : Fd) (os : OsAnswers) :
    Lessens id s (s.handleTcpReadEvents fd os) := by
  unfold handleTcpReadEvents
  split
  next => exact .refl id s
  next id' connection hget =>
    have hread : Lessens id s (s.setConnection id' { connection with
        reader := (connection.reader.fillBuf os.read).1 }) :=
      lessens_setConnection (getTcpConnection_lookup hget) le_rfl
    simp only
    split
    next => exact hread
    next =>
      split
      next => exact (lessens_disconnectTcpConnection _ id id').trans hread
      next => exact (lessens_congr (by rfl)).trans hread

/-- A write takes nothing into the writer. -/
theorem length_flush_le (writer : BufWriter) (os : WriteOutcome) :
    (writer.flush os).1.buffer.length ≤ writer.buffer.length := by
  have hlength := congrArg List.length (writer.flush_conserves os)
  rw [List.length_append] at hlength
  omega

/-- A flush takes bytes out of the writer, or leaves them. -/
theorem lessens_handleTcpWriteEvents (s : BaseServer) (fd : Fd) (os : OsAnswers) :
    Lessens id s (s.handleTcpWriteEvents fd os) := by
  unfold handleTcpWriteEvents
  split
  next => exact .refl id s
  next id' connection hget =>
    have hflush : Lessens id s (s.setConnection id' (flushed connection
        (connection.writer.flush os.write).1 (connection.writer.flush os.write).2.1)) :=
      lessens_setConnection (getTcpConnection_lookup hget) (length_flush_le _ _)
    simp only
    split
    next => exact (lessens_disconnectTcpConnection _ id id').trans hflush
    next => exact hflush

/-- So no event of a batch adds to a writer. -/
theorem lessens_handleEvent (isValidUdpMessage : List UInt8 → Bool) (event : PollEvent)
    (hs : Sound s) (hnew : os.newUuid ∉ s.generatedUUIDs)
    (h : s.tcpConnections.lookup id = some connection) :
    Lessens id s (s.handleEvent isValidUdpMessage event os) := by
  have hsame (t : BaseServer) (ht : t.connection .accepted id = some connection) :
      Lessens id s t := by
    have ht : t.tcpConnections.lookup id = some connection := ht
    rw [Lessens, buffered, buffered, ht, h]
  unfold handleEvent
  split
  next =>
    unfold handleRead
    split
    next => exact hsame _ ((connection_handleUdpReadEvent isValidUdpMessage s os).trans h)
    next =>
    split
    next => exact hsame _ (connection_handleNewTcpConnections hs hnew h)
    next =>
    split
    next => exact lessens_congr (tcpConnections_handleTcpReadConnection s os)
    next => exact lessens_handleTcpReadEvents s event.fd os
  next =>
    unfold handleWrite
    split
    next => exact lessens_congr rfl
    next =>
    split
    next => exact lessens_congr (tcpConnections_handleTcpWriteConnection s os)
    next => exact lessens_handleTcpWriteEvents s event.fd os
  next =>
    unfold handleError
    split
    next => exact .refl id s
    next =>
    split
    next => exact .refl id s
    next =>
    split
    next => exact lessens_congr (tcpConnections_disconnectTcpConnectionSingle s)
    next =>
    split
    next => exact .refl id s
    next => exact lessens_disconnectTcpConnection s id _

/-- The accepted connection of a descriptor is found by it. -/
theorem getTcpConnection_of_lookup (hs : Sound s)
    (h : s.tcpConnections.lookup id = some connection) :
    s.getTcpConnection connection.stream.fd = some (id, connection) := by
  cases hget : s.getTcpConnection connection.stream.fd with
  | none =>
    have hmem : (⟨id, connection⟩ : Sigma fun _ : Uuid => TcpConnection) ∈
        s.tcpConnections.entries := AList.mem_lookup_iff.mp h
    exact absurd (decide_eq_true rfl)
      (List.find?_eq_none.mp (Option.map_eq_none_iff.mp hget) _ hmem)
  | some pair =>
    obtain ⟨id', connection'⟩ := pair
    have howner := hs.distinct _ (.connection .accepted id) _ (fdOf_getTcpConnection hget)
      (fdOf_accepted_iff.mpr ⟨connection, h, rfl⟩)
    cases howner
    have hlookup := getTcpConnection_lookup hget
    rw [h] at hlookup
    cases hlookup
    rfl

/-- Its write event is served by a flush. -/
theorem buffered_handleWrite (hs : Sound s) (h : s.tcpConnections.lookup id = some connection)
    {n : Nat} (hwrite : os.write = .ok n) :
    (s.handleWrite connection.stream.fd os).buffered id = (s.buffered id).drop n := by
  have hfd : s.fdOf (.connection .accepted id) = some connection.stream.fd :=
    fdOf_accepted_iff.mpr ⟨connection, h, rfl⟩
  unfold handleWrite
  split
  next hudp => cases hs.distinct .udpSocket _ _ hudp hfd
  next =>
  split
  next hout =>
    obtain ⟨⟨id', connection'⟩, hsome, heq⟩ := Option.map_eq_some_iff.mp hout
    cases hs.distinct (.connection .outgoing id') _ _
      (fdOf_outgoing_iff.mpr ⟨connection', hsome, heq⟩) hfd
  next =>
    have hflush : (connection.writer.flush (.ok n)).1.buffer = connection.writer.buffer.drop n ∧
        (connection.writer.flush (.ok n)).2.2 = .ok () := by
      unfold BufWriter.flush BufWriter.flushBuf
      split
      next hempty =>
        rw [List.isEmpty_iff.mp hempty, List.drop_nil]
        exact ⟨rfl, rfl⟩
      next => exact ⟨rfl, rfl⟩
    simp only [handleTcpWriteEvents, getTcpConnection_of_lookup hs h, hwrite, hflush.2]
    simp only [buffered, setConnection, AList.lookup_insert, h, Option.elim_some, flushed, hflush.1]

/-- A connection keeps its descriptor, or has nothing to write any more. -/
theorem fdOf_handleEvent (isValidUdpMessage : List UInt8 → Bool) (event : PollEvent) (hs : Sound s)
    (hnew : os.newUuid ∉ s.generatedUUIDs) (hfd : s.fdOf (.connection .accepted id) = some fd) :
    (s.handleEvent isValidUdpMessage event os).fdOf (.connection .accepted id) = some fd ∨
      (s.handleEvent isValidUdpMessage event os).buffered id = [] := by
  have hchange := change_handleEvent isValidUdpMessage event (hs.not_mem hnew)
  generalize s.handleEvent isValidUdpMessage event os = t at hchange
  rcases hchange.shrinks_or with hshrinks | ⟨-, fd', -, hfdOf⟩
  · cases hlookup : t.tcpConnections.lookup id with
    | none =>
      right
      rw [buffered, hlookup]
      rfl
    | some connection =>
      left
      have hfd' : t.fdOf (.connection .accepted id) = some connection.stream.fd :=
        fdOf_accepted_iff.mpr ⟨connection, hlookup, rfl⟩
      rw [hfd', ← hshrinks _ _ hfd', hfd]
  · left
    rw [hfdOf, Function.update_of_ne]
    · exact hfd
    · intro heq
      cases heq
      exact hnew (hs.given _ _ _ hfd)

/-- And none touches the queue of messages. -/
theorem queued_handleEvent (isValidUdpMessage : List UInt8 → Bool) (s : BaseServer)
    (event : PollEvent) (os : OsAnswers) (id : Uuid) :
    (s.handleEvent isValidUdpMessage event os).queued id = s.queued id := by
  rw [queued, (quiet_handleEvent (c := id) isValidUdpMessage s event os).1, ← queued]

/-- A reader that is used has nothing to do with the output. -/
theorem output_setReader (s : BaseServer) (kind : ConnectionKind) (id' : Uuid)
    (reader : BufReader) : (s.setReader kind id' reader).handed id = s.handed id ∧
      (s.setReader kind id' reader).buffered id = s.buffered id ∧
      (s.setReader kind id' reader).queued id = s.queued id := by
  cases kind with
  | outgoing => exact ⟨rfl, rfl, rfl⟩
  | accepted =>
    simp only [setReader]
    split
    next => exact ⟨rfl, rfl, rfl⟩
    next connection hsome =>
      by_cases heq : id = id'
      · subst heq
        simp only [handed, buffered, queued, setConnection, AList.lookup_insert, hsome,
          Option.elim_some, and_self]
      · simp only [handed, buffered, queued, setConnection, AList.lookup_insert_ne heq, and_self]

/-- What the queue loses, the writer gets, or nobody. -/
theorem length_appendQueued_le (s : BaseServer) (id : Uuid) :
    (s.appendQueued.buffered id).length + (s.appendQueued.queued id).length ≤
      (s.buffered id).length + (s.queued id).length := by
  unfold appendQueued
  split
  next => exact le_rfl
  next id' data rest hqueue =>
    have hqueued : s.queued id = bytesFor id ((id', data) :: rest) := by rw [queued, hqueue]
    rw [hqueued]
    simp only
    by_cases heq : id' = id
    · subst heq
      rw [bytesFor_cons_self, List.length_append]
      split
      next hnone =>
        simp only [buffered, queued, hnone, Option.elim_none, List.length_nil]
        omega
      next connection hsome =>
        have hwrite : (connection.writer.write data).1.buffer.length ≤
            connection.writer.buffer.length + data.length := by
          unfold BufWriter.write
          split
          next => exact (List.length_append ..).le
          next => exact Nat.le_add_right _ _
        simp only [buffered, queued, setConnection, AList.lookup_insert, hsome, Option.elim_some]
        omega
    · rw [bytesFor_cons_ne heq]
      split
      next => exact le_rfl
      next connection hsome =>
        simp only [buffered, queued, setConnection, AList.lookup_insert_ne (Ne.symm heq), le_refl]

/-! ## All of its output -/

/-- All the output of a connection: what its socket has taken, and what is pending. -/
def output (s : BaseServer) (id : Uuid) : List UInt8 :=
  s.handed id ++ s.buffered id ++ s.queued id

/-- Where the bytes taken from the queue are known, the output is they and what is still queued. -/
theorem output_eq {bytes : List UInt8} (h : s.taken id = some bytes) :
    s.output id = bytes ++ s.queued id := by
  rw [output, handed_append_buffered h]

/-- A step that touches neither writer nor queue. -/
theorem output_of_quiet (hin : id ∈ s.tcpConnections) (hstays : id ∈ t.tcpConnections)
    (h : Quiet id s t) : t.output id = s.output id := by
  obtain ⟨hqueue, hcarried⟩ := h
  obtain ⟨bytes, hbytes⟩ := taken_of_mem hin
  obtain ⟨bytes', hbytes'⟩ := taken_of_mem hstays
  rw [output_eq hbytes, output_eq hbytes', queued, hqueue, ← queued]
  cases hcarried with
  | same hsame =>
    rw [hsame, hbytes] at hbytes'
    rw [Option.some.inj hbytes']
  | gone hgone =>
    rw [hgone] at hbytes'
    cases hbytes'
  | fresh hnone =>
    rw [hnone] at hbytes
    cases hbytes

/-- A message that goes from the queue to the writer stays in its place in the output. -/
theorem output_appendQueued (hin : id ∈ s.tcpConnections) (hfits : FrontFits id s) :
    s.appendQueued.output id = s.output id := by
  obtain ⟨bytes, hbytes⟩ := taken_of_mem hin
  obtain ⟨bytes', hbytes', hsame⟩ := taken_appendQueued hfits hbytes
  rw [output_eq hbytes, output_eq hbytes', hsame]

end BaseServer

namespace Context

open BaseServer

/-! ## The debt -/

/-- What is pending of the output of a connection: the bytes in its writer, and those queued. -/
def unsent (id : Uuid) (s : Context) : Nat :=
  (s.server.buffered id).length + (s.server.queued id).length

/-- The write event of the descriptor is still to be served. -/
def writeAhead (fd : Option Fd) (events : List PollEvent) : Bool :=
  fd.any fun fd => (⟨.write, fd⟩ : PollEvent) ∈ events

/-- The debt at a place of the loop. -/
def debtAt (pos : LoopPos) (fd : Option Fd) (buffered queued : Nat) : Nat :=
  match pos with
  | .prepare => queued + if buffered = 0 ∧ 0 < queued then 1 else buffered
  | .batch events => queued + if writeAhead fd events then buffered - 1 else buffered
  | _ => queued + buffered

/-- In an empty batch no write is ahead. -/
theorem writeAhead_nil (fd : Option Fd) : writeAhead fd [] = false := by
  cases fd with
  | none => rfl
  | some fd => rfl

/-- Another event is passed over. -/
theorem writeAhead_cons_of_ne {fd : Fd} {event : PollEvent} {rest : List PollEvent}
    (h : event ≠ ⟨.write, fd⟩) :
    writeAhead (some fd) (event :: rest) = writeAhead (some fd) rest := by
  refine decide_eq_decide.mpr ⟨fun hmem => ?_, List.mem_cons_of_mem event⟩
  exact (List.mem_cons.mp hmem).resolve_left (Ne.symm h)

/-- The waits that are still owed to a connection, unless something new is sent over it. -/
def debt (id : Uuid) (s : Context) : Nat :=
  debtAt s.pos (s.server.fdOf (.connection .accepted id)) (s.server.buffered id).length
    (s.server.queued id).length

/-- The condition on a step: nothing new is sent over the connection and the context is not stopped;
a wait comes back with the write event of its stream where that was asked for, the stream takes a
byte or more of each write, and a message that is popped for the connection fits. -/
def Serves (id : Uuid) (s : Context) : Label → Prop
  | .sendTcp id' _ => id' ≠ id
  | .stopContext => False
  | .wait polled => ∃ reports, polled = .ok reports ∧
      ∀ pair ∈ reports, s.server.fdOf (.connection .accepted id) = some pair.1.fd →
        pair.1.pollout = true → pair.2.pollout = true
  | .turn os =>
    (∀ fd rest, s.pos = .batch (⟨.write, fd⟩ :: rest) →
      s.server.fdOf (.connection .accepted id) = some fd → ∃ n, os.write = .ok n ∧ 0 < n) ∧
    (s.pos = .sends → FrontFits id s.server)
  | _ => True

/-- The step is the loop's call of `poll`. -/
def isWait : Label → Bool
  | .wait _ => true
  | _ => false

variable {isValidUdpMessage : List UInt8 → Bool} {s t : Context} {a : Label} {id : Uuid}

/-- A step that is neither a wait nor a turn of the loop leaves the output of the connection. -/
theorem pending_of_step (hrunning : s.running = true) (hserves : Serves id s a)
    (hwait : isWait a = false) (hturn : ∀ os, a ≠ .turn os)
    (h : (machine isValidUdpMessage).step s a = some t) :
    t.server.handed id = s.server.handed id ∧ t.server.buffered id = s.server.buffered id ∧
      t.server.queued id = s.server.queued id := by
  change Context.step isValidUdpMessage s a = some t at h
  cases a with
  | hostTcp | hostUdp =>
    simp only [Context.step, hrunning, Bool.true_or, if_true] at h
    cases h
  | connectTcp connect newUuid =>
    simp only [Context.step] at h
    split at h
    next => cases h
    next =>
      cases h
      rcases connectTcp_cases s.running s.server connect newUuid with hsame | ⟨hhalted, -⟩
      · rw [setUp, hsame]
        exact ⟨rfl, rfl, rfl⟩
      · rw [hrunning] at hhalted
        cases hhalted
  | connectUdp any localAddr addr =>
    simp only [Context.step] at h
    split at h
    next => cases h
    next =>
      cases h
      have hsame : s.server.connectUdp s.running any localAddr addr = s.server := by
        rw [hrunning]
        rfl
      rw [setUp, hsame]
      exact ⟨rfl, rfl, rfl⟩
  | startContext =>
    simp only [Context.step, hrunning, if_true] at h
    cases h
  | stopContext => exact hserves.elim
  | sendTcp id' data =>
    cases h
    refine ⟨rfl, rfl, ?_⟩
    change bytesFor id (s.server.sendTcpQueue ++ [(id', data)]) = s.server.queued id
    rw [bytesFor_append, bytesFor_cons_ne hserves]
    exact List.append_nil _
  | sendUdp | askDisconnect | popEvent =>
    cases h
    exact ⟨rfl, rfl, rfl⟩
  | useReader kind id' reader =>
    cases h
    exact output_setReader s.server kind id' reader
  | environment =>
    simp only [Context.step] at h
    split at h
    next =>
      cases h
      exact ⟨rfl, rfl, rfl⟩
    next => cases h
  | wait => cases hwait
  | turn os => exact absurd rfl (hturn os)

/-- No step of the loop loses output or makes some up. -/
theorem output_of_turn {os : OsAnswers}
    (h : Turn isValidUdpMessage os s.toContextLoop t.toContextLoop)
    (hfits : s.pos = .sends → FrontFits id s.server) (hin : id ∈ s.server.tcpConnections)
    (hstays : id ∈ t.server.tcpConnections) : t.server.output id = s.server.output id := by
  cases h with
  | event event rest hpos hpos' hnew ht =>
    rw [ht] at hstays ⊢
    exact output_of_quiet hin hstays (quiet_handleEvent isValidUdpMessage _ event os)
  | disconnection id' rest hpos hpos' hqueue ht =>
    rw [ht] at hstays ⊢
    exact output_of_quiet hin hstays (quiet_handleDisconnection _)
  | append id' data rest hpos hpos' hqueue ht =>
    rw [ht]
    exact output_appendQueued hin (hfits hpos)
  | next hpos hpos' ht => rw [ht]

/-- No step of the loop loses, adds or reorders a byte of the output, as long as the connection
stays. -/
theorem output_of_step (hrunning : s.running = true) (hserves : Serves id s a)
    (hin : id ∈ s.server.tcpConnections) (hstays : id ∈ t.server.tcpConnections)
    (h : (machine isValidUdpMessage).step s a = some t) :
    t.server.output id = s.server.output id := by
  have hquiet (hwait : isWait a = false) (hturn : ∀ os, a ≠ .turn os) :
      t.server.output id = s.server.output id := by
    obtain ⟨hhanded, hbuffered, hqueued⟩ := pending_of_step hrunning hserves hwait hturn h
    rw [output, output, hhanded, hbuffered, hqueued]
  cases a with
  | wait polled =>
    rw [(wait_of_step h).2.1] at hstays ⊢
    exact output_of_quiet hin hstays (quiet_prepareWrite _)
  | turn os =>
    change Context.step isValidUdpMessage s (.turn os) = some t at h
    simp only [Context.step] at h
    split at h
    next =>
      obtain ⟨loop, hloop, rfl⟩ := Option.map_eq_some_iff.mp h
      exact output_of_turn (turn_of_step hloop) hserves.2 hin hstays
    next => cases h
  | _ => exact hquiet rfl fun os heq => by cases heq

/-- Steps of the main thread and of others leave the loop where it is. -/
theorem place_of_step (hrunning : s.running = true) (hserves : Serves id s a)
    (hwait : isWait a = false) (hturn : ∀ os, a ≠ .turn os)
    (h : (machine isValidUdpMessage).step s a = some t) :
    t.pos = s.pos ∧ t.running = true ∧ t.server.fdOf = s.server.fdOf := by
  cases effect_of_step h with
  | setUp hhalted =>
    rw [hrunning] at hhalted
    cases hhalted
  | quiet hkeeps hplace => exact ⟨hplace.pos, hplace.running.trans hrunning, hkeeps.fdOf⟩
  | popEvent ht =>
    subst ht
    exact ⟨rfl, hrunning, fdOf_popEvent s⟩
  | startContext hhalted =>
    rw [hrunning] at hhalted
    cases hhalted
  | stopContext => exact hserves.elim
  | waitFails => cases hwait
  | wait => cases hwait
  | turn => exact absurd rfl (hturn _)
  | environment ht hplace => exact ⟨hplace.pos, hplace.running.trans hrunning, by rw [ht]⟩

/-! ## What a step pays -/

/-- What a step does to what is pending: it gets no more, and a wait pays. As long as there is
something, the debt goes down by one with each wait. -/
structure Pays (id : Uuid) (s t : Context) (a : Label) : Prop where
  running : t.running = true
  unsent_le : unsent id t ≤ unsent id s
  debt_le : 0 < unsent id t → debt id t + (isWait a).toNat ≤ debt id s

/-- A write event that is wanted is in the batch. -/
theorem writeAhead_of_wait {reports : List (Poll.Entry × Poll.Revents)} {fd : Fd}
    (hregistered : s.server.Registered) (hserves : Serves id s (.wait (.ok reports)))
    (hfd : s.server.fdOf (.connection .accepted id) = some fd)
    (hwriter : (fd, true) ∈ s.server.writers)
    (hpolled : reports.map (·.1) = s.server.prepareWrite.poll.fds) :
    writeAhead (some fd) (Poll.events reports) = true := by
  have hinterests := hregistered.interests_of_writer hwriter
  obtain ⟨pfd, hentry, hasked⟩ := Option.map_eq_some_iff.mp hinterests
  have hpollout : pfd.pollout = true := by
    have hmem : Interest.write ∈ pfd.asked := by
      rw [hasked, if_pos rfl]
      exact Finset.mem_insert_of_mem (Finset.mem_singleton_self _)
    rcases Poll.mem_asked.mp hmem with ⟨hread, -⟩ | ⟨-, hpollout⟩
    · cases hread
    · exact hpollout
  obtain rfl : pfd.fd = fd := by simpa using List.find?_some hentry
  have hmem : pfd ∈ reports.map (·.1) := hpolled ▸ List.mem_of_find?_eq_some hentry
  obtain ⟨pair, hpair, rfl⟩ := List.mem_map.mp hmem
  obtain ⟨_, heq, hall⟩ := hserves
  cases heq
  have hreported := hall pair hpair hfd hpollout
  refine decide_eq_true (List.mem_flatMap.mpr ⟨pair, hpair, ?_⟩)
  rw [Poll.Entry.events, if_pos hreported]
  simp

/-- The batch is made of what the OS reports of the table. -/
theorem batch_of_wait {reports : List (Poll.Entry × Poll.Revents)}
    (h : (machine isValidUdpMessage).step s (.wait (.ok reports)) = some t) :
    t.pos = .batch (Poll.events reports) ∧
      reports.map (·.1) = s.server.prepareWrite.poll.fds := by
  change Context.step isValidUdpMessage s (.wait (.ok reports)) = some t at h
  simp only [Context.step] at h
  split at h
  next hpolls =>
    obtain ⟨loop, hloop, rfl⟩ := Option.map_eq_some_iff.mp h
    simp only [polls, Bool.and_eq_true, decide_eq_true_eq] at hpolls
    simp only [ContextLoop.step] at hloop
    split at hloop
    next hpos =>
      simp only [Except.map] at hloop
      split at hloop
      next =>
        cases hloop
        exact ⟨rfl, hpolls.1⟩
      next => cases hloop
    next => cases hloop
  next => cases h

/-- A wait reports the connection ready to write while there is something to write, and so makes a
write lie ahead. -/
theorem pays_wait {reports : List (Poll.Entry × Poll.Revents)} (hregistered : s.server.Registered)
    (hrunning : s.running = true) (hserves : Serves id s (.wait (.ok reports)))
    (hin : id ∈ s.server.tcpConnections)
    (h : (machine isValidUdpMessage).step s (.wait (.ok reports)) = some t) :
    Pays id s t (.wait (.ok reports)) := by
  obtain ⟨connection, hlookup⟩ := Option.isSome_iff_exists.mp (AList.lookup_isSome.mpr hin)
  obtain ⟨hpos, ht, hsame, -⟩ := wait_of_step h
  have hplace := batch_of_wait h
  have hfd : s.server.fdOf (.connection .accepted id) = some connection.stream.fd :=
    fdOf_accepted_iff.mpr ⟨connection, hlookup, rfl⟩
  have houtput : t.server.buffered id = s.server.buffered id ∧
      t.server.queued id = s.server.queued id ∧ t.server.fdOf = s.server.fdOf := by
    rw [ht]
    refine ⟨?_, ?_, (sameTables_prepareWrite s.server).fdOf⟩
    · rw [prepareWrite_eq]
      rfl
    · rw [prepareWrite_eq]
      rfl
  obtain ⟨hbuffered, hqueued, hfdOf⟩ := houtput
  have hunsent : unsent id t = unsent id s := by rw [unsent, unsent, hbuffered, hqueued]
  refine ⟨hsame.trans hrunning, hunsent.le, fun hpending => ?_⟩
  rw [hunsent, unsent] at hpending
  rw [debt, debt, hpos, hplace.1, hfdOf, hbuffered, hqueued, hfd]
  simp only [debtAt, isWait, Bool.toNat_true]
  by_cases hempty : (s.server.buffered id).length = 0
  · -- a message that is only queued waits this round
    rw [hempty] at hpending ⊢
    rw [Nat.zero_sub, ite_self, if_pos ⟨rfl, by omega⟩]
  · have hwriter : (connection.stream.fd, true) ∈ s.server.writers := by
      have hbytes : connection.writer.isEmpty = false := by
        rw [buffered, hlookup, Option.elim_some, List.length_eq_zero_iff] at hempty
        simpa [BufWriter.isEmpty] using hempty
      simp only [writers, List.mem_append, List.mem_map]
      refine .inl (.inr ⟨⟨id, connection⟩, AList.mem_lookup_iff.mp hlookup, ?_⟩)
      rw [hbytes]
      rfl
    rw [writeAhead_of_wait hregistered hserves hfd hwriter hplace.2, if_pos rfl,
      if_neg fun hnone => hempty hnone.1]
    omega

/-- An event is served: that of the writer takes a byte. -/
theorem debt_handleEvent (isValidUdpMessage : List UInt8 → Bool) (event : PollEvent)
    (rest : List PollEvent) {server : BaseServer} {os : OsAnswers} (hs : server.Sound)
    (hin : id ∈ server.tcpConnections) (hnew : os.newUuid ∉ server.generatedUUIDs)
    (hwrite : ∀ fd, event = ⟨.write, fd⟩ → server.fdOf (.connection .accepted id) = some fd →
      ∃ n, os.write = .ok n ∧ 0 < n) :
    Lessens id server (server.handleEvent isValidUdpMessage event os) ∧
    debtAt (.batch rest)
        ((server.handleEvent isValidUdpMessage event os).fdOf (.connection .accepted id))
        ((server.handleEvent isValidUdpMessage event os).buffered id).length
        (server.queued id).length ≤
      debtAt (.batch (event :: rest)) (server.fdOf (.connection .accepted id))
        (server.buffered id).length (server.queued id).length := by
  obtain ⟨connection, hlookup⟩ := Option.isSome_iff_exists.mp (AList.lookup_isSome.mpr hin)
  have hfd : server.fdOf (.connection .accepted id) = some connection.stream.fd :=
    fdOf_accepted_iff.mpr ⟨connection, hlookup, rfl⟩
  have hless : Lessens id server (server.handleEvent isValidUdpMessage event os) :=
    lessens_handleEvent isValidUdpMessage event hs hnew hlookup
  refine ⟨hless, Nat.add_le_add_left ?_ _⟩
  rcases fdOf_handleEvent isValidUdpMessage event hs hnew hfd with hkept | hempty
  · rw [hkept, hfd]
    by_cases hevent : event = ⟨.write, connection.stream.fd⟩
    · obtain ⟨n, htakes, hn⟩ := hwrite _ hevent hfd
      subst hevent
      have htaken : (server.handleEvent isValidUdpMessage ⟨.write, connection.stream.fd⟩
          os).buffered id = (server.buffered id).drop n := buffered_handleWrite hs hlookup htakes
      have hahead : writeAhead (some connection.stream.fd)
          (⟨.write, connection.stream.fd⟩ :: rest) = true := decide_eq_true List.mem_cons_self
      rw [htaken, List.length_drop, if_pos hahead]
      split <;> omega
    · rw [writeAhead_cons_of_ne hevent]
      split
      next => exact Nat.sub_le_sub_right hless 1
      next => exact hless
  · rw [hempty, List.length_nil, Nat.zero_sub, ite_self]
    exact Nat.zero_le _

/-- A turn of the loop brings the bytes to be written, or the place the loop is in, further on. -/
theorem pays_turn {os : OsAnswers} (hs : s.server.Sound) (hrunning : s.running = true)
    (hserves : Serves id s (.turn os)) (hin : id ∈ s.server.tcpConnections)
    (h : (machine isValidUdpMessage).step s (.turn os) = some t) : Pays id s t (.turn os) := by
  obtain ⟨hwrite, -⟩ := hserves
  change Context.step isValidUdpMessage s (.turn os) = some t at h
  simp only [Context.step] at h
  split at h
  next hunused =>
    obtain ⟨loop, hloop, rfl⟩ := Option.map_eq_some_iff.mp h
    simp only [ContextLoop.step] at hloop
    split at hloop
    next events hpos =>
      cases events with
      | nil =>
        cases hloop
        refine ⟨hrunning, le_rfl, fun _ => ?_⟩
        simp only [debt, hpos, debtAt, writeAhead_nil, isWait]
        exact le_rfl
      | cons event rest =>
        simp only [ContextLoop.turnBatch] at hloop
        split at hloop
        next => cases hloop
        next hnew =>
          cases hloop
          obtain ⟨hless, hdebt⟩ := debt_handleEvent isValidUdpMessage event rest hs hin hnew
            fun fd hevent => hwrite fd rest (hevent ▸ hpos)
          have hqueued := queued_handleEvent isValidUdpMessage s.server event os id
          rw [← hpos] at hdebt
          refine ⟨hrunning, ?_, fun _ => ?_⟩
          · simp only [unsent, hqueued]
            exact Nat.add_le_add_right hless _
          · simp only [debt, isWait, hqueued]
            exact hdebt
    next hpos =>
      split at hloop
      next =>
        cases hloop
        refine ⟨hrunning, le_rfl, fun _ => ?_⟩
        simp only [debt, hpos, debtAt, isWait]
        exact le_rfl
      next =>
        cases hloop
        have hqueued : s.server.handleDisconnection.queued id = s.server.queued id :=
          congrArg (bytesFor id) (quiet_handleDisconnection (c := id) s.server).1
        have hless : Lessens id s.server s.server.handleDisconnection :=
          lessens_handleDisconnection s.server
        refine ⟨hrunning, ?_, fun _ => ?_⟩
        · simp only [unsent, hqueued]
          exact Nat.add_le_add_right hless _
        · simp only [debt, hpos, debtAt, isWait, hqueued]
          exact Nat.add_le_add_left hless _
    next hpos =>
      split at hloop
      next hqueue =>
        cases hloop
        refine ⟨hrunning, le_rfl, fun _ => ?_⟩
        have hnone : s.server.queued id = [] := by
          rw [queued, List.isEmpty_iff.mp hqueue]
          rfl
        simp only [debt, hpos, debtAt, isWait, hnone, List.length_nil, Nat.lt_irrefl, and_false,
          if_false]
        exact le_rfl
      next =>
        -- what is popped is owed as before: the loop waits again before it is there to write
        cases hloop
        have hless := length_appendQueued_le s.server id
        refine ⟨hrunning, hless, fun _ => ?_⟩
        simp only [debt, hpos, debtAt, isWait, Bool.toNat_false]
        omega
    next => cases hloop
  next => cases h

/-- Every step keeps to it, by its label. -/
theorem pays_of_step (hreach : (machine isValidUdpMessage).ReachUnder SetsUp s)
    (hrunning : s.running = true) (hserves : Serves id s a)
    (hin : id ∈ s.server.tcpConnections)
    (h : (machine isValidUdpMessage).step s a = some t) : Pays id s t a := by
  have hquiet (hwait : isWait a = false) (hturn : ∀ os, a ≠ .turn os) : Pays id s t a := by
    obtain ⟨hpos, hrunning', hfdOf⟩ := place_of_step hrunning hserves hwait hturn h
    obtain ⟨-, hbuffered, hqueued⟩ := pending_of_step hrunning hserves hwait hturn h
    have hunsent : unsent id t = unsent id s := by rw [unsent, unsent, hbuffered, hqueued]
    have hdebt : debt id t = debt id s := by
      rw [debt, debt, hpos, hfdOf, hbuffered, hqueued]
    refine ⟨hrunning', hunsent.le, fun _ => ?_⟩
    rw [hdebt, hwait]
    exact le_rfl
  cases a with
  | wait polled =>
    have hreports := hserves
    obtain ⟨reports, rfl, -⟩ := hreports
    exact pays_wait (listensInv_of_reach hreach hrunning).1 hrunning hserves hin h
  | turn os => exact pays_turn (inv_of_reach hreach.any).sound hrunning hserves hin h
  | _ => exact hquiet rfl fun os heq => by cases heq

/-! ## Runs -/

/-- A step that serves a connection that is there. -/
def Draining (id : Uuid) (s : Context) (a : Label) : Prop :=
  SetsUp s a ∧ Serves id s a ∧ id ∈ s.server.tcpConnections

/-- The debt is at most one more than there are bytes pending. -/
theorem debt_le (id : Uuid) (s : Context) : debt id s ≤ unsent id s + 1 := by
  unfold debt debtAt unsent
  split
  next => split <;> omega
  next => split <;> omega
  next => omega

/-- What the waits of a run have paid: the debt and the number of waits together are no more than
the debt at the start, and the bytes written and to be written are still the same. -/
structure Paid (isValidUdpMessage : List UInt8 → Bool) (id : Uuid) (s₀ : Context)
    (s : Context × List Label) : Prop where
  reach : (machine isValidUdpMessage).ReachUnder SetsUp s.1
  running : s.1.running = true
  unsent_le : unsent id s.1 ≤ unsent id s₀
  waits_le : 0 < unsent id s.1 → debt id s.1 + s.2.countP isWait ≤ debt id s₀
  output : id ∈ s.1.server.tcpConnections → s.1.server.output id = s₀.server.output id

/-- Along a run the debt and what was paid stay in balance. -/
theorem Paid.step {s₀ : Context} {acts : List Label} (hs : Paid isValidUdpMessage id s₀ (s, acts))
    (hdraining : Draining id s a) (h : (machine isValidUdpMessage).step s a = some t) :
    Paid isValidUdpMessage id s₀ (t, acts ++ [a]) := by
  obtain ⟨hsets, hserves, hin⟩ := hdraining
  have hpays : Pays id s t a := pays_of_step hs.reach hs.running hserves hin h
  refine ⟨hs.reach.step hsets h, hpays.running, hpays.unsent_le.trans hs.unsent_le, ?_, ?_⟩
  · intro hpending
    have hpaid := hpays.debt_le hpending
    have hbefore : debt id s + acts.countP isWait ≤ debt id s₀ :=
      hs.waits_le (hpending.trans_le hpays.unsent_le)
    have hcount : (acts ++ [a]).countP isWait = acts.countP isWait + (isWait a).toNat := by
      rw [List.countP_append, List.countP_singleton]
      cases isWait a <;> rfl
    rw [hcount]
    change debt id t + (acts.countP isWait + (isWait a).toNat) ≤ debt id s₀
    omega
  · intro hstays
    exact (output_of_step hs.running hserves hin hstays h).trans (hs.output hin)

/-- **Pending output goes out**: over a connection that stays and is served, with nothing new to
send, all that is pending has been taken by the socket, in order, by the time the loop has waited
twice more than there are bytes. -/
theorem output_drains {s₀ : Context} {acts : List Label}
    (hreach : (machine isValidUdpMessage).ReachUnder SetsUp s₀) (hrunning : s₀.running = true)
    (hrun : (machine isValidUdpMessage).recorded.RunUnder (fun s a => Draining id s.1 a)
      (s₀, []) (s, acts))
    (hstays : id ∈ s.server.tcpConnections)
    (hwaits : (s₀.server.buffered id).length + (s₀.server.queued id).length + 2 ≤
      acts.countP isWait) :
    s.server.buffered id = [] ∧ s.server.queued id = [] ∧ s.server.handed id =
      s₀.server.handed id ++ s₀.server.buffered id ++ s₀.server.queued id := by
  have hpaid : Paid isValidUdpMessage id s₀ (s, acts) := by
    refine hrun.invariant (I := Paid isValidUdpMessage id s₀) ?_
      ⟨hreach, hrunning, le_rfl, fun _ => le_rfl, fun _ => rfl⟩
    rintro ⟨s, acts⟩ a ⟨t, acts'⟩ hs hdraining hstep
    obtain ⟨hstep, rfl⟩ := Machine.step_recorded.mp hstep
    exact hs.step hdraining hstep
  have hnone : unsent id s = 0 := by
    by_contra hpending
    have hpaid := hpaid.waits_le (Nat.pos_of_ne_zero hpending)
    have hdebt := debt_le id s₀
    simp only [unsent] at hdebt hpaid
    omega
  obtain ⟨hbuffered, hqueued⟩ := Nat.add_eq_zero_iff.mp hnone
  rw [List.length_eq_zero_iff] at hbuffered hqueued
  refine ⟨hbuffered, hqueued, ?_⟩
  have houtput := hpaid.output hstays
  simp only [BaseServer.output, hbuffered, hqueued, List.append_nil] at houtput
  exact houtput

/-! ## One byte -/

/-- The answers of the OS where a write takes one byte. -/
def writeAnswer : OsAnswers := { readAnswer (.ok []) with write := .ok 1 }

/-- What the OS reports of a listener on 3 and a stream on 7. -/
def reported (pollout : Bool) : List (Poll.Entry × Poll.Revents) :=
  [(⟨3, true, false⟩, ⟨false, false, false⟩), (⟨7, true, pollout⟩, ⟨false, pollout, false⟩)]

/-- The labels of rounds that send, at most a byte each. -/
def Sends (a : Label) : Prop :=
  a = .turn writeAnswer ∨ ∃ pollout, a = .wait (.ok (reported pollout))

/-- With nothing queued such a round serves the connection. -/
theorem draining_of_sends (hin : id ∈ s.server.tcpConnections)
    (hqueue : s.server.sendTcpQueue = []) (h : Sends a) : Draining id s a := by
  rcases h with rfl | ⟨pollout, rfl⟩
  · refine ⟨?_, ⟨fun _ _ _ _ => ⟨1, rfl, Nat.one_pos⟩, ?_⟩, hin⟩
    · intro fd haccept
      cases haccept
    · intro _ data hdata
      rw [hqueue] at hdata
      cases hdata
  · refine ⟨trivial, ⟨_, rfl, ?_⟩, hin⟩
    intro pair hpair _ hasked
    rcases List.mem_pair.mp hpair with rfl | rfl
    · cases hasked
    · exact hasked

/-- A server that hosts on descriptor 3, before its first wait. -/
def started : Context :=
  { made with
    server := (made.server.hostTcp (.ok 3)).runContext
    pos := .prepare
    running := true }

/-- The server of the example has started. -/
theorem reach_started : (machine fun _ => true).ReachUnder SetsUp started := by
  have hmade : (machine fun _ => true).ReachUnder SetsUp made := .init starts_made
  have hhosted := hmade.step (a := Label.hostTcp (.ok 3)) trivial rfl
  exact hhosted.step (a := Label.startContext) rfl rfl

/-- A stream is accepted on 7, and a byte that is sent over it goes into its writer. -/
def asking : List Label :=
  [.wait (.ok [(⟨3, true, false⟩, readable)]), .turn (acceptAnswer (.ok ())),
    .turn (readAnswer (.ok [])), .turn (readAnswer (.ok [])), .sendTcp 1 [5],
    .turn (readAnswer (.ok [])), .turn (readAnswer (.ok []))]

theorem setsUp_asking : ∀ a ∈ asking, ∀ s, SetsUp s a := by
  intro a ha s
  simp only [asking, List.mem_cons, List.not_mem_nil, or_false] at ha
  rcases ha with rfl | rfl | rfl | rfl | rfl | rfl | rfl
  · trivial
  · exact fun _ _ => rfl
  · exact fun _ _ => rfl
  · exact fun _ _ => rfl
  · trivial
  · exact fun _ _ => rfl
  · exact fun _ _ => rfl

/-- Three rounds, the last of them just begun. -/
def rounds : List Label :=
  .wait (.ok (reported true)) :: List.replicate 4 (.turn writeAnswer) ++
    .wait (.ok (reported false)) :: List.replicate 3 (.turn writeAnswer) ++
    [.wait (.ok (reported false))]

theorem sends_rounds : ∀ a ∈ rounds, Sends a := by
  intro a ha
  simp only [rounds, List.cons_append, List.replicate, List.nil_append, List.mem_cons,
    List.not_mem_nil, or_false] at ha
  rcases ha with rfl | rfl | rfl | rfl | rfl | rfl | rfl | rfl | rfl | rfl <;>
    first | exact .inl rfl | exact .inr ⟨_, rfl⟩

/-- The byte is sent in the first of the rounds. -/
theorem output_drains_one_byte : ∃ s : Context, s.server.buffered 1 = [] ∧
    s.server.queued 1 = [] ∧ s.server.handed 1 = [5] := by
  have hexec : (((machine fun _ => true).exec Machine.Any started asking).bind fun s₀ =>
      if s₀.running ∧ s₀.server.handed 1 = [] ∧ s₀.server.buffered 1 = [5] ∧
          s₀.server.queued 1 = [] then
        (machine fun _ => true).recorded.exec (fun s _ => 1 ∈ s.1.server.tcpConnections ∧
          s.1.server.sendTcpQueue = []) (s₀, []) rounds
      else none).any (fun s => 1 ∈ s.1.server.tcpConnections) = true := by
    decide +kernel
  obtain ⟨⟨s, acts⟩, hs, hstays⟩ := (Option.any_eq_true _ _).mp hexec
  obtain ⟨s₀, hs₀, hs⟩ := Option.bind_eq_some_iff.mp hs
  split at hs
  next hfirst =>
    obtain ⟨hrunning, hhanded, hbuffered, hqueued⟩ := hfirst
    cases Machine.exec_recorded hs
    have hreach := reach_started.run (Machine.runUnder_of_labels setsUp_asking hs₀)
    have hrun := (Machine.runUnder_and_of_exec sends_rounds hs).mono
      (H := fun s a => Draining 1 s.1 a)
      fun s a h => draining_of_sends h.1.1 h.1.2 h.2
    obtain ⟨hnone, hempty, hsent⟩ := output_drains hreach hrunning hrun
      (of_decide_eq_true hstays) (by rw [hbuffered, hqueued]; decide)
    refine ⟨s, hnone, hempty, ?_⟩
    rw [hsent, hhanded, hbuffered, hqueued]
    rfl
  next => cases hs

end Context

end ProjectE.Net
