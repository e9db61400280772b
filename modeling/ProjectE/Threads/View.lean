import ProjectE.Threads.System

/-!
# What the threads see

The invariants of the two threads read a small part of the server: which readers are there and what
they hold, the event queue, the ids in use, which connections have a client. `View` is that part,
flat, and `Move` the steps over it, one constructor for each thing a step can do, with what it
found. `move_of_step` is the refinement: every step of the system is a move of its view. The proofs
about the threads go by cases over `Move` and never unfold a step.
-/

namespace ProjectE.Threads

open Verif Net

/-- What both threads share and where they are, without the bytes in the queues and the tables of
the clients. -/
@[ext] structure View where
  reader : ReaderRef → Option BufReader
  events : List (TCPEvent × Uuid)
  ids : List Uuid
  /-- The connection has a client. -/
  known : Uuid → Bool
  /-- The disconnections asked for. -/
  asked : List Uuid
  locks : Locks Mutex Thread
  main : MainPc
  context : ContextPc
  received : ReaderRef → List UInt8
  taken : ReaderRef → List Packet
  faults : List Fault

/-- The shared part of a state of the system. -/
def System.view (s : System) : View where
  reader := s.reader
  events := s.server.tcpEvents
  ids := s.server.generatedUUIDs
  known id := (s.server.clientOf id).isSome
  asked := s.server.disconnectQueue
  locks := s.locks
  main := s.main
  context := s.context
  received := s.received
  taken := s.taken
  faults := s.faults

/-- The reader that the next step of the main thread locks, unlocks or reads. A span shorter than a
header is not read. -/
def MainPc.uses : MainPc → Option ReaderRef
  | .lock r _ _ | .body r _ _ | .unlock r _ _ => some r
  | .parse r _ buffer => if buffer.size < Header.sizeof then none else some r
  | _ => none

namespace View

/-- A thread holds the mutexes that its place says. -/
def holds (v : View) : Thread → Mutex → Prop
  | .main, m => m ∈ v.main.held
  | .context, m => m ∈ v.context.held

/-- The main thread ends with a fault. -/
def halt (v : View) (fault : Fault) : View :=
  { v with
    main := .halted
    locks := v.locks.dropAll .main
    faults := v.faults ++ [fault] }

/-- The readers once the outgoing connection is reset. -/
def withoutOutgoing (reader : ReaderRef → Option BufReader) (r : ReaderRef) : Option BufReader :=
  match r.kind with
  | .accepted => reader r
  | .outgoing => none

/-- The mutexes after the guard of `handle_events`, if there is one, is released. -/
def leaveLocks (r : ReaderRef) (locks : Locks Mutex Thread) : Locks Mutex Thread :=
  match r.kind with
  | .accepted => locks.release .usingTcpConnection
  | .outgoing => locks

/-- The reader after one `fill_buf`, and what it received. -/
def filled (v : View) (r : ReaderRef) (reader : BufReader) (read : ReadOutcome) : View :=
  { v with
    reader := Function.update v.reader r (some (reader.fillBuf read).1)
    received := Function.update v.received r (v.received r ++ reader.delivered read) }

end View

/-- The moves of a view. -/
inductive Move (v : View) : Act → View → Prop
  -- the main thread, in `handle_events`
  | connect {draw id rest known} : v.main = .idle → v.events = (.tcpConnection, id) :: rest →
      known id = true → (∀ d, d ≠ id → known d = v.known d) →
      Move v (.main draw) { v with events := rest, known := known }
  | disconnect {draw id rest known} : v.main = .idle → v.events = (.tcpDisconnection, id) :: rest →
      (∀ d, d ≠ id → known d = v.known d) →
      Move v (.main draw) { v with events := rest, known := known }
  | popRead {draw id rest} : v.main = .idle → v.events = (.tcpRead, id) :: rest →
      Move v (.main draw) { v with events := rest, main := .tcpRead id }
  | toOutgoing {draw id} : v.main = .tcpRead id → (v.reader (.outgoing id)).isSome →
      Move v (.main draw) { v with main := .enter (.outgoing id) }
  | toAccepted {draw id} : v.main = .tcpRead id → v.reader (.outgoing id) = none →
      (v.reader (.accepted id)).isSome → Move v (.main draw) { v with main := .lockUsing id }
  | notFound {draw id} : v.main = .tcpRead id → v.reader (.outgoing id) = none →
      v.reader (.accepted id) = none → Move v (.main draw) { v with main := .idle }
  | lockUsing {draw id} : v.main = .lockUsing id → v.locks .usingTcpConnection = none →
      Move v (.main draw) { v with
        locks := v.locks.acquire .usingTcpConnection .main
        main := .lookup id }
  | found {draw id} : v.main = .lookup id → (v.reader (.accepted id)).isSome →
      Move v (.main draw) { v with main := .enter (.accepted id) }
  | missed {draw id} : v.main = .lookup id → v.reader (.accepted id) = none →
      Move v (.main draw) (v.halt (.lookupMissed id))
  -- the main thread, in `on_tcp_data`
  | enterKnown {draw r client} : v.main = .enter r → v.known r.id = true →
      Move v (.main draw) { v with main := .lock r client .first }
  | enterUnknown {draw r} : v.main = .enter r → v.known r.id = false →
      Move v (.main draw) { v with main := .leave r }
  | lock {draw r client body} : v.main = .lock r client body → (v.reader r).isSome →
      v.locks (.reader r) = none → Move v (.main draw) { v with
        locks := v.locks.acquire (.reader r) .main
        main := .body r client body }
  | first {draw r client reader} : v.main = .body r client .first → v.reader r = some reader →
      Move v (.main draw) { v with
        main := .unlock r client (.parsed (Packet.deserialize reader.unread)) }
  | consume {draw r client packet reader} : v.main = .body r client (.consume packet) →
      v.reader r = some reader → Move v (.main draw) { v with
        reader := Function.update v.reader r (some (reader.consume packet.size))
        main := .unlock r client (.reparse (reader.consume packet.size).buf.buffer) }
  | unlock {draw r client after} : v.main = .unlock r client after → (v.reader r).isSome →
      Move v (.main draw) { v with
        locks := v.locks.release (.reader r)
        main := System.afterUnlock r client after }
  | parseShort {draw r client buffer} : v.main = .parse r client buffer →
      buffer.size < Header.sizeof → Move v (.main draw) { v with main := .leave r }
  | parse {draw r client buffer reader} : v.main = .parse r client buffer →
      ¬ buffer.size < Header.sizeof → v.reader r = some reader → Move v (.main draw) { v with
        main := System.loopHead r client (Packet.deserialize (reader.buf.view buffer)) }
  | handle {draw r client packet} : v.main = .handle r client packet →
      Move v (.main draw) { v with
        taken := Function.update v.taken r (v.taken r ++ [packet])
        main := .lock r client (.consume packet) }
  | leave {draw r} : v.main = .leave r →
      Move v (.main draw) { v with
        locks := View.leaveLocks r v.locks
        main := .idle }
  | gone {draw r} : v.main.uses = some r → v.reader r = none →
      Move v (.main draw) (v.halt (.readerGone .main r))
  -- the context thread, in its read handlers
  | contextLock {read r} : v.context = .lock r → (v.reader r).isSome →
      v.locks (.reader r) = none → Move v (.context read) { v with
        locks := v.locks.acquire (.reader r) .context
        context := .body r }
  | contextLockGone {read r} : v.context = .lock r → v.reader r = none →
      Move v (.context read) { v with
        context := .idle
        faults := v.faults ++ [.readerGone .context r] }
  | fillError {r reader e} : v.context = .body r → v.reader r = some reader →
      reader.full = false → Move v (.context (.error e))
        { v.filled r reader (.error e) with context := .unlock r }
  | fillData {r reader bs} : v.context = .body r → v.reader r = some reader →
      reader.full = false → bs ≠ [] → Move v (.context (.ok bs))
        { v.filled r reader (.ok bs) with
          events := v.events ++ [(.tcpRead, r.id)]
          context := .unlock r }
  | fillEmpty {read r reader} : v.context = .body r → v.reader r = some reader →
      reader.full = true ∨ read = .ok [] → Move v (.context read)
        { v.filled r reader read with
          context := match r.kind with
            | .accepted => .disconnect r.id true
            | .outgoing => .unlock r }
  | fillGone {read r} : v.context = .body r → v.reader r = none →
      Move v (.context read) { v with
        context := .unlock r
        faults := v.faults ++ [.readerGone .context r] }
  | contextUnlock {read r} : v.context = .unlock r → (v.reader r).isSome →
      Move v (.context read) { v with
        locks := v.locks.release (.reader r)
        context := .idle }
  | contextUnlockGone {read r} : v.context = .unlock r → v.reader r = none →
      Move v (.context read) { v with
        locks := v.locks.release (.reader r)
        context := .idle
        faults := v.faults ++ [.readerGone .context r] }
  -- the context thread, in its teardowns
  | contextGuard {read id inside} : v.context = .disconnect id inside →
      v.locks .usingTcpConnection = none → Move v (.context read) { v with
        locks := v.locks.acquire .usingTcpConnection .context
        context := .erase id inside }
  | erase {read id inside} : v.context = .erase id inside → Move v (.context read) { v with
      reader := Function.update v.reader (.accepted id) none
      context := .unlockUsing id inside }
  | contextUnguard {read id inside} : v.context = .unlockUsing id inside →
      Move v (.context read) { v with
        locks := v.locks.release .usingTcpConnection
        context := .push id inside }
  | push {read id inside} : v.context = .push id inside → Move v (.context read) { v with
      events := v.events ++ [(.tcpDisconnection, id)]
      context := if inside then .unlock (.accepted id) else .idle }
  | reset {read id} : v.context = .reset id → Move v (.context read) { v with
      reader := View.withoutOutgoing v.reader
      context := .idle }
  -- what the idle context thread begins
  | accept {id fd} : v.context = .idle → id ∉ v.ids → Move v (.accept id fd) { v with
      reader := Function.update v.reader (.accepted id)
        (some ((v.reader (.accepted id)).getD BufReader.new))
      events := v.events ++ [(.tcpConnection, id)]
      ids := id :: v.ids }
  | readEvent {r} : v.context = .idle → (v.reader r).isSome →
      Move v (.readEvent r) { v with context := .lock r }
  | teardown {id} : v.context = .idle → (v.reader (.accepted id)).isSome →
      Move v (.teardown id) { v with context := .disconnect id false }
  | disconnectAsked {id rest} : v.context = .idle → v.asked = id :: rest →
      (v.reader (.accepted id)).isSome → Move v .handleDisconnection { v with
        asked := rest
        context := .disconnect id false }
  | disconnectIgnored {id rest} : v.context = .idle → v.asked = id :: rest →
      v.reader (.accepted id) = none → Move v .handleDisconnection { v with asked := rest }
  | teardownSingle {id} : v.context = .idle → (v.reader (.outgoing id)).isSome →
      Move v .teardownSingle { v with
        events := v.events ++ [(.tcpDisconnection, id)]
        context := .reset id }
  -- any thread
  | ask {id} : Move v (.askDisconnect id) { v with asked := v.asked ++ [id] }

namespace System

variable {s t : System} {transformNumber : UInt64 → UInt64}

/-! ## Readers -/

/-- An accepted connection has its reader in the table. -/
theorem reader_accepted_isSome {id : Uuid} :
    (s.reader (.accepted id)).isSome ↔ id ∈ s.server.tcpConnections := by
  simp only [reader, BaseServer.connection, Option.isSome_map, AList.lookup_isSome]

/-- Without a connection there is no reader. -/
theorem reader_accepted_none {id : Uuid} (h : id ∉ s.server.tcpConnections) :
    s.reader (.accepted id) = none := by
  rw [← Option.not_isSome_iff_eq_none, reader_accepted_isSome]
  exact h

/-- The outgoing connection has its reader under its own id only. -/
theorem reader_outgoing_isSome {id : Uuid} :
    (s.reader (.outgoing id)).isSome ↔ s.server.tcpConnection.map (·.1) = some id := by
  simp only [reader, BaseServer.connection, Option.isSome_map]
  cases s.server.tcpConnection with
  | none => simp
  | some pair => simp [Option.filter]

/-- Under another id there is none. -/
theorem reader_outgoing_none {id : Uuid} (h : ¬ s.server.tcpConnection.map (·.1) = some id) :
    s.reader (.outgoing id) = none := by
  rw [← Option.not_isSome_iff_eq_none, reader_outgoing_isSome]
  exact h

/-- Setting a reader that is there changes that reader and no other. -/
theorem reader_setReader {r : ReaderRef} (x : BufReader) (h : (s.reader r).isSome) :
    (s.setReader r x).reader = Function.update s.reader r (some x) := by
  obtain ⟨kind, id⟩ := r
  funext r'
  cases kind with
  | accepted =>
    obtain ⟨connection, hc⟩ :=
      Option.isSome_iff_exists.mp (AList.lookup_isSome.mpr (reader_accepted_isSome.mp h))
    have hset : (s.setReader ⟨.accepted, id⟩ x).reader =
        (s.base (·.setConnection id { connection with reader := x })).reader := by
      simp only [setReader, base, BaseServer.setReader, hc]
    rw [hset]
    obtain ⟨kind', id'⟩ := r'
    by_cases heq : (⟨kind', id'⟩ : ReaderRef) = ⟨.accepted, id⟩
    · cases heq
      simp only [Function.update_self, reader, base, BaseServer.connection,
        BaseServer.setConnection, AList.lookup_insert, Option.map_some]
    · rw [Function.update_of_ne heq]
      cases kind' with
      | accepted =>
        have hne : id' ≠ id := by
          intro hid
          exact heq (by rw [hid])
        simp only [reader, base, BaseServer.connection, BaseServer.setConnection,
          AList.lookup_insert_ne hne]
      | outgoing => rfl
  | outgoing =>
    have hout := reader_outgoing_isSome.mp h
    obtain ⟨⟨id₀, connection⟩, hc, rfl⟩ := Option.map_eq_some_iff.mp hout
    obtain ⟨kind', id'⟩ := r'
    by_cases heq : (⟨kind', id'⟩ : ReaderRef) = ⟨.outgoing, id₀⟩
    · cases heq
      simp [Function.update_self, reader, setReader, base, BaseServer.connection,
        BaseServer.setReader, hc, Option.filter]
    · rw [Function.update_of_ne heq]
      cases kind' with
      | accepted => rfl
      | outgoing =>
        have hne : ¬ id₀ = id' := by
          intro hid
          exact heq (by rw [hid])
        simp [reader, setReader, base, BaseServer.connection, BaseServer.setReader, hc,
          Option.filter, hne]

/-- Storing a reader is all it looks like. -/
theorem view_setReader {r : ReaderRef} (x : BufReader) (h : (s.reader r).isSome) :
    (s.setReader r x).view =
      { s.view with reader := Function.update s.view.reader r (some x) } := by
  have hframe : (s.setReader r x).server.tcpEvents = s.server.tcpEvents ∧
      (s.setReader r x).server.generatedUUIDs = s.server.generatedUUIDs ∧
      (s.setReader r x).server.disconnectQueue = s.server.disconnectQueue := by
    obtain ⟨kind, id⟩ := r
    cases kind with
    | accepted =>
      simp only [setReader, base, BaseServer.setReader]
      split <;> exact ⟨rfl, rfl, rfl⟩
    | outgoing => exact ⟨rfl, rfl, rfl⟩
  obtain ⟨hevents, hids, hasked⟩ := hframe
  exact View.ext (reader_setReader x h) hevents hids rfl hasked rfl rfl rfl rfl rfl rfl

/-- A connection that is erased takes its reader along. -/
theorem reader_detach (id : Uuid) : (s.base (·.detachConnection id)).reader =
    Function.update s.reader (.accepted id) none := by
  funext ⟨kind, id'⟩
  have hlookup : (s.server.toBaseServer.detachConnection id).tcpConnections.lookup id = none ∧
      (id' ≠ id → (s.server.toBaseServer.detachConnection id).tcpConnections.lookup id' =
        s.server.tcpConnections.lookup id') ∧
      (s.server.toBaseServer.detachConnection id).tcpConnection = s.server.tcpConnection := by
    unfold BaseServer.detachConnection
    split
    · next hnone => exact ⟨hnone, fun _ => rfl, rfl⟩
    · exact ⟨AList.lookup_erase _ _, fun hne => AList.lookup_erase_ne hne, rfl⟩
  obtain ⟨hself, hne, hout⟩ := hlookup
  by_cases heq : (⟨kind, id'⟩ : ReaderRef) = ⟨.accepted, id⟩
  · cases heq
    simp only [Function.update_self, reader, base, BaseServer.connection, hself, Option.map_none]
  · rw [Function.update_of_ne heq]
    cases kind with
    | accepted =>
      simp only [reader, base, BaseServer.connection, hne fun hid => heq (by rw [hid])]
    | outgoing => simp only [reader, base, BaseServer.connection, hout]

/-- A reset of the outgoing connection takes its reader along, under whatever id. -/
theorem reader_reset : (s.base (·.resetConnection)).reader = View.withoutOutgoing s.reader := by
  funext ⟨kind, id⟩
  cases kind with
  | accepted => rfl
  | outgoing => rfl

/-- An accepted connection brings an empty reader, unless the id has one already. -/
theorem reader_addAccepted (id : Uuid) (fd : Fd) :
    (s.base fun b => { b with poll := b.poll.add fd }.addAccepted id fd).reader =
      Function.update s.reader (.accepted id)
        (some ((s.reader (.accepted id)).getD BufReader.new)) := by
  funext ⟨kind, id'⟩
  by_cases hin : id ∈ s.server.tcpConnections
  · obtain ⟨x, hx⟩ := Option.isSome_iff_exists.mp (reader_accepted_isSome.mpr hin)
    have hsame : (s.base fun b => { b with poll := b.poll.add fd }.addAccepted id fd).reader =
        s.reader := by
      simp only [base, BaseServer.addAccepted, BaseServer.emplaceConnection, hin, if_true]
      rfl
    rw [hsame, hx, Option.getD_some, ← hx, Function.update_eq_self]
  · rw [reader_accepted_none hin, Option.getD_none]
    have hset : (s.base fun b => { b with poll := b.poll.add fd }.addAccepted id fd).reader =
        (s.base (·.setConnection id (TcpConnection.new fd))).reader := by
      simp only [base, BaseServer.addAccepted, BaseServer.emplaceConnection, hin, if_false]
      rfl
    rw [hset]
    by_cases heq : (⟨kind, id'⟩ : ReaderRef) = ⟨.accepted, id⟩
    · cases heq
      simp only [Function.update_self, reader, base, BaseServer.connection,
        BaseServer.setConnection, AList.lookup_insert, Option.map_some]
      rfl
    · rw [Function.update_of_ne heq]
      cases kind with
      | accepted =>
        have hne : id' ≠ id := by
          intro hid
          exact heq (by rw [hid])
        simp only [reader, base, BaseServer.connection, BaseServer.setConnection,
          AList.lookup_insert_ne hne]
      | outgoing => rfl

/-! ## Every step is a move -/

/-- The clients of the server are in order, and their ids were given out. -/
abbrev Consistent (s : System) : Prop := s.server.ClientsInv

/-- A step of the main thread from its idle place. -/
theorem move_mainIdle (hs : s.Consistent) {draw : Draw} (hpc : s.main = .idle)
    (h : s.mainIdle draw = some t) : Move s.view (.main draw) t.view ∧ t.Consistent := by
  unfold mainIdle at h
  split at h
  · cases h
  next event id rest hevents =>
  have hs' : (s.popEvent rest).server.ClientsInv := ⟨hs.sorted, hs.given⟩
  simp only at h
  split at h
  · split at h
    · cases h
    next hfresh =>
      cases h
      obtain ⟨hknown, hothers⟩ :=
        Server.clientOf_onTcpConnection hs' draw.garbage draw.number id hfresh
      refine ⟨?_, hs'.onTcpConnection _ _ _ hfresh⟩
      exact .connect hpc hevents hknown fun d hd => congrArg Option.isSome (hothers d hd)
  · cases h
    refine ⟨?_, hs'.onTcpDisconnection id⟩
    have hbase := (Server.onTcpDisconnection_base (s.popEvent rest).server id).1
    have hview : ({ s.popEvent rest with
        server := (s.popEvent rest).server.onTcpDisconnection id } : System).view =
      { s.view with
        events := rest
        known := fun d =>
          (((s.popEvent rest).server.onTcpDisconnection id).clientOf d).isSome } := by
      refine View.ext ?_ ?_ ?_ rfl ?_ rfl rfl rfl rfl rfl rfl
      · funext r
        simp only [view, reader, hbase]
        rfl
      · simp only [view, hbase]
        rfl
      · simp only [view, hbase]
        rfl
      · simp only [view, hbase]
        rfl
    rw [hview]
    refine .disconnect hpc hevents fun d hd => congrArg Option.isSome ?_
    exact Server.clientOf_onTcpDisconnection hs' hd
  · cases h
    exact ⟨.popRead hpc hevents, hs'⟩

/-- The main thread has a `TcpRead` in hand, and asks for the connection. -/
theorem move_mainTcpRead {draw : Draw} {id : Uuid} (hpc : s.main = .tcpRead id) :
    Move s.view (.main draw) (s.mainTcpRead id).view := by
  unfold mainTcpRead
  split
  · next hout => exact .toOutgoing hpc (reader_outgoing_isSome.mpr hout)
  next hout =>
  split
  · next hin => exact .toAccepted hpc (reader_outgoing_none hout) (reader_accepted_isSome.mpr hin)
  · next hin => exact .notFound hpc (reader_outgoing_none hout) (reader_accepted_none hin)

/-- The clients and their ids are all that matters for it. -/
theorem consistent_of_eq (hs : s.Consistent)
    (h : t.server.clients = s.server.clients ∧ t.server.clientUUIDs = s.server.clientUUIDs) :
    t.Consistent := by
  obtain ⟨hc, hu⟩ := h
  exact ⟨hc ▸ hs.sorted, fun e he => hu ▸ hs.given e (hc ▸ he)⟩

/-- A step that uses a reader either finds it or ends the main thread. -/
theorem move_withReader (hs : s.Consistent) {draw : Draw} {r : ReaderRef}
    {f : BufReader → Option System} (huses : s.main.uses = some r)
    (hf : ∀ reader, s.reader r = some reader → ∀ t, f reader = some t →
      Move s.view (.main draw) t.view ∧ t.server.clients = s.server.clients ∧
        t.server.clientUUIDs = s.server.clientUUIDs)
    (h : s.withReader r f = some t) : Move s.view (.main draw) t.view ∧ t.Consistent := by
  unfold withReader at h
  split at h
  · next hnone =>
    cases h
    exact ⟨.gone huses hnone, hs⟩
  · next reader hsome =>
    obtain ⟨hmove, hclients⟩ := hf reader hsome t h
    exact ⟨hmove, consistent_of_eq hs hclients⟩

/-- Handling a packet is invisible to the other thread. -/
theorem view_handlePacket (transformNumber : UInt64 → UInt64) (s : System) (garbage : UInt16)
    (client : Uuid) (packet : Packet) :
    ({ s with server := s.server.handlePacket transformNumber garbage client packet } : System).view
      = s.view := by
  obtain ⟨queue, hbase, hclients, -⟩ :=
    Server.handlePacket_base transformNumber garbage s.server client packet
  refine View.ext ?_ ?_ ?_ ?_ ?_ rfl rfl rfl rfl rfl rfl
  · funext r
    simp only [view, reader, hbase]
    rfl
  · simp only [view, hbase]
  · simp only [view, hbase]
  · funext id
    simp only [view, Server.clientOf, hclients]
  · simp only [view, hbase]

/-- Every step of the main thread, as the view shows it. -/
theorem move_main (hs : s.Consistent) {draw : Draw} (h : s.mainStep transformNumber draw = some t) :
    Move s.view (.main draw) t.view ∧ t.Consistent := by
  unfold mainStep at h
  split at h
  next hpc => exact move_mainIdle hs hpc h
  next id hpc =>
    cases h
    refine ⟨move_mainTcpRead hpc, ?_⟩
    unfold mainTcpRead
    split
    · exact hs
    · split <;> exact hs
  next id hpc =>
    split at h
    · next hfree =>
      cases h
      exact ⟨.lockUsing hpc hfree, hs⟩
    · cases h
  next id hpc =>
    split at h
    · next hin =>
      cases h
      exact ⟨.found hpc (reader_accepted_isSome.mpr hin), hs⟩
    · next hin =>
      cases h
      exact ⟨.missed hpc (reader_accepted_none hin), hs⟩
  next r hpc =>
    split at h
    · next hnone =>
      cases h
      exact ⟨.enterUnknown hpc (by simp only [view, hnone, Option.isSome_none]), hs⟩
    · next client _ hsome =>
      cases h
      exact ⟨.enterKnown hpc (by simp only [view, hsome, Option.isSome_some]), hs⟩
  next r client body hpc =>
    refine move_withReader hs (r := r) (by rw [hpc]; rfl) ?_ h
    intro reader hreader t ht
    split at ht
    · next hfree =>
      cases ht
      exact ⟨.lock hpc (Option.isSome_iff_exists.mpr ⟨_, hreader⟩) hfree, rfl, rfl⟩
    · cases ht
  next r client body hpc =>
    refine move_withReader hs (r := r) (by rw [hpc]; rfl) ?_ h
    intro reader hreader t ht
    cases ht
    cases body with
    | first => exact ⟨.first hpc hreader, rfl, rfl⟩
    | consume packet =>
      refine ⟨?_, rfl, rfl⟩
      have hview : (s.mainBody r client reader (.consume packet)).view =
          { (s.setReader r (reader.consume packet.size)).view with
            main := .unlock r client (.reparse (reader.consume packet.size).buf.buffer) } := rfl
      rw [hview, view_setReader _ (Option.isSome_iff_exists.mpr ⟨_, hreader⟩)]
      exact .consume hpc hreader
  next r client after hpc =>
    refine move_withReader hs (r := r) (by rw [hpc]; rfl) ?_ h
    intro reader hreader t ht
    cases ht
    exact ⟨.unlock hpc (Option.isSome_iff_exists.mpr ⟨_, hreader⟩), rfl, rfl⟩
  next r client buffer hpc =>
    split at h
    · next hshort =>
      cases h
      exact ⟨.parseShort hpc hshort, hs⟩
    · next hlong =>
      have huses : s.main.uses = some r := by rw [hpc, MainPc.uses, if_neg hlong]
      refine move_withReader hs huses ?_ h
      intro reader hreader t ht
      cases ht
      exact ⟨.parse hpc hlong hreader, rfl, rfl⟩
  next r client packet hpc =>
    cases h
    obtain ⟨-, -, hclients⟩ :=
      Server.handlePacket_base transformNumber draw.garbage s.server client packet
    refine ⟨?_, consistent_of_eq hs hclients⟩
    have hview : ({ s with
        server := s.server.handlePacket transformNumber draw.garbage client packet
        taken := Function.update s.taken r (s.taken r ++ [packet])
        main := .lock r client (.consume packet) } : System).view =
      { ({ s with
          server := s.server.handlePacket transformNumber draw.garbage client packet } :
            System).view with
        taken := Function.update s.view.taken r (s.view.taken r ++ [packet])
        main := .lock r client (.consume packet) } := rfl
    rw [hview, view_handlePacket]
    exact .handle hpc
  next r hpc =>
    have hmove : Move s.view (.main draw)
        { s.view with locks := View.leaveLocks r s.locks, main := .idle } := .leave hpc
    obtain ⟨kind, id⟩ := r
    cases kind with
    | accepted =>
      cases h
      exact ⟨hmove, hs⟩
    | outgoing =>
      cases h
      exact ⟨hmove, hs⟩
  · cases h

/-- The three answers of `fill_buf` in the context thread. -/
theorem move_contextBody {r : ReaderRef} {reader : BufReader} {read : ReadOutcome}
    (hpc : s.context = .body r) (hreader : s.reader r = some reader) :
    Move s.view (.context read) (s.contextBody r reader read).view := by
  have hset := view_setReader (reader.fillBuf read).1 (Option.isSome_iff_exists.mpr ⟨_, hreader⟩)
  have hfilled : ({ s.setReader r (reader.fillBuf read).1 with
      received := Function.update s.received r (s.received r ++ reader.delivered read) } :
        System).view = s.view.filled r reader read := by
    have : ({ s.setReader r (reader.fillBuf read).1 with
        received := Function.update s.received r (s.received r ++ reader.delivered read) } :
          System).view =
      { (s.setReader r (reader.fillBuf read).1).view with
        received := Function.update s.received r (s.received r ++ reader.delivered read) } := rfl
    rw [this, hset]
    rfl
  -- the empty answer: end of file, or a full array
  have hempty : reader.full = true ∨ read = .ok [] →
      Move s.view (.context read) (s.contextBody r reader read).view := by
    intro h
    obtain ⟨buf, hres, hbuf⟩ := (reader.fillBuf_empty_iff read).mpr h
    have hview : (s.contextBody r reader read).view = { s.view.filled r reader read with
        context := match r.kind with
          | .accepted => .disconnect r.id true
          | .outgoing => .unlock r } := by
      rw [← hfilled]
      simp only [contextBody, hres, hbuf, if_true]
      cases r.kind <;> rfl
    rw [hview]
    exact .fillEmpty hpc hreader h
  cases hfull : reader.full with
  | true => exact hempty (.inl hfull)
  | false =>
    cases read with
    | error e =>
      have hres := (reader.fillBuf_error hfull e).2
      have hview : (s.contextBody r reader (.error e)).view =
          { s.view.filled r reader (.error e) with context := .unlock r } := by
        rw [← hfilled]
        simp only [contextBody, hres]
        rfl
      rw [hview]
      exact .fillError hpc hreader hfull
    | ok bs =>
      by_cases hbs : bs = []
      · exact hempty (.inr (by rw [hbs]))
      · obtain ⟨-, buf, hres, hiff⟩ := reader.fillBuf_ok hfull bs
        have hbuf : buf.empty = false := by
          cases he : buf.empty with
          | true => exact absurd (hiff.mp he) hbs
          | false => rfl
        have hview : (s.contextBody r reader (.ok bs)).view =
            { s.view.filled r reader (.ok bs) with
              events := s.view.events ++ [(.tcpRead, r.id)]
              context := .unlock r } := by
          have hevents : (s.setReader r (reader.fillBuf (.ok bs)).1).server.tcpEvents =
              s.server.tcpEvents := congrArg View.events hset
          rw [← hfilled]
          simp only [contextBody, hres, hbuf, Bool.false_eq_true, if_false]
          refine View.ext rfl ?_ rfl rfl rfl rfl rfl rfl rfl rfl rfl
          show (s.setReader r (reader.fillBuf (.ok bs)).1).server.tcpEvents ++ _ = _
          rw [hevents]
          rfl
        rw [hview]
        exact .fillData hpc hreader hfull hbs

/-- The context thread does not touch the clients. -/
theorem consistent_contextBody (hs : s.Consistent) {r : ReaderRef} {reader : BufReader}
    {read : ReadOutcome} : (s.contextBody r reader read).Consistent := by
  unfold contextBody
  simp only
  split
  · exact ⟨hs.sorted, hs.given⟩
  · split
    · split
      · exact ⟨hs.sorted, hs.given⟩
      · exact ⟨hs.sorted, hs.given⟩
    · exact ⟨hs.sorted, hs.given⟩

/-- Erasing a connection leaves the events, the ids and what was asked for. -/
theorem detachConnection_frame (b : BaseServer) (id : Uuid) :
    (b.detachConnection id).tcpEvents = b.tcpEvents ∧
      (b.detachConnection id).generatedUUIDs = b.generatedUUIDs ∧
      (b.detachConnection id).disconnectQueue = b.disconnectQueue := by
  unfold BaseServer.detachConnection
  split
  · exact ⟨rfl, rfl, rfl⟩
  · exact ⟨rfl, rfl, rfl⟩

/-- A connection accepted is an event and an id more. -/
theorem addAccepted_frame (b : BaseServer) (id : Uuid) (fd : Fd) :
    (b.addAccepted id fd).tcpEvents = b.tcpEvents ++ [(.tcpConnection, id)] ∧
      (b.addAccepted id fd).generatedUUIDs = id :: b.generatedUUIDs ∧
      (b.addAccepted id fd).disconnectQueue = b.disconnectQueue := by
  unfold BaseServer.addAccepted BaseServer.emplaceConnection
  simp only
  split
  · exact ⟨rfl, rfl, rfl⟩
  · exact ⟨rfl, rfl, rfl⟩

/-- Every step of the context thread inside a handler, as the view shows it. -/
theorem move_context (hs : s.Consistent) {read : ReadOutcome} (h : s.contextStep read = some t) :
    Move s.view (.context read) t.view ∧ t.Consistent := by
  unfold contextStep at h
  split at h
  · cases h
  next r hpc =>
    split at h
    · next hnone =>
      cases h
      exact ⟨.contextLockGone hpc hnone, hs⟩
    · next reader hsome =>
      split at h
      · next hfree =>
        cases h
        exact ⟨.contextLock hpc (Option.isSome_iff_exists.mpr ⟨_, hsome⟩) hfree, hs⟩
      · cases h
  next r hpc =>
    split at h
    · next hnone =>
      cases h
      exact ⟨.fillGone hpc hnone, hs⟩
    · next reader hsome =>
      cases h
      exact ⟨move_contextBody hpc hsome, consistent_contextBody hs⟩
  next id inside hpc =>
    split at h
    · next hfree =>
      cases h
      exact ⟨.contextGuard hpc hfree, hs⟩
    · cases h
  next id inside hpc =>
    cases h
    refine ⟨?_, ⟨hs.sorted, hs.given⟩⟩
    obtain ⟨hevents, hids, hasked⟩ := detachConnection_frame s.server.toBaseServer id
    have hview : ({ s.base (·.detachConnection id) with
        context := .unlockUsing id inside } : System).view =
      { s.view with
        reader := Function.update s.view.reader (.accepted id) none
        context := .unlockUsing id inside } :=
      View.ext (reader_detach id) hevents hids rfl hasked rfl rfl rfl rfl rfl rfl
    rw [hview]
    exact .erase hpc
  next id inside hpc =>
    cases h
    exact ⟨.contextUnguard hpc, hs⟩
  next id inside hpc =>
    cases h
    exact ⟨.push hpc, ⟨hs.sorted, hs.given⟩⟩
  next r hpc =>
    cases h
    split
    · next hsome => exact ⟨.contextUnlock hpc hsome, hs⟩
    · next hnone =>
      exact ⟨.contextUnlockGone hpc (Option.not_isSome_iff_eq_none.mp hnone), hs⟩
  next id hpc =>
    cases h
    refine ⟨?_, ⟨hs.sorted, hs.given⟩⟩
    have hview : ({ s.base (·.resetConnection) with context := .idle } : System).view =
        { s.view with reader := View.withoutOutgoing s.view.reader, context := .idle } :=
      View.ext reader_reset rfl rfl rfl rfl rfl rfl rfl rfl rfl rfl
    rw [hview]
    exact .reset hpc

/-- And every one from its idle place. -/
theorem move_contextIdle (hs : s.Consistent) {a : Act} (hpc : s.context = .idle)
    (h : s.contextIdle a = some t) : Move s.view a t.view ∧ t.Consistent := by
  cases a with
  | accept id fd =>
    simp only [contextIdle] at h
    split at h
    · cases h
    next hfresh =>
    cases h
    refine ⟨?_, ⟨hs.sorted, hs.given⟩⟩
    obtain ⟨hevents, hids, hasked⟩ := addAccepted_frame
      { s.server.toBaseServer with poll := s.server.poll.add fd } id fd
    have hview : (s.base fun b => { b with poll := b.poll.add fd }.addAccepted id fd).view =
        { s.view with
          reader := Function.update s.view.reader (.accepted id)
            (some ((s.view.reader (.accepted id)).getD BufReader.new))
          events := s.view.events ++ [(.tcpConnection, id)]
          ids := id :: s.view.ids } :=
      View.ext (reader_addAccepted id fd) hevents hids rfl hasked rfl rfl rfl rfl rfl rfl
    rw [hview]
    exact .accept hpc hfresh
  | readEvent r =>
    simp only [contextIdle] at h
    split at h
    · next hsome =>
      cases h
      exact ⟨.readEvent hpc hsome, hs⟩
    · cases h
  | teardown id =>
    simp only [contextIdle, beginDisconnect] at h
    split at h
    · next hin =>
      cases h
      exact ⟨.teardown hpc (reader_accepted_isSome.mpr hin), hs⟩
    · cases h
  | teardownSingle =>
    simp only [contextIdle] at h
    split at h
    · cases h
    · next id connection hsome =>
      cases h
      refine ⟨.teardownSingle hpc (reader_outgoing_isSome.mpr ?_), ⟨hs.sorted, hs.given⟩⟩
      rw [hsome]
      rfl
  | handleDisconnection =>
    simp only [contextIdle] at h
    split at h
    · cases h
    · next id rest hasked =>
      cases h
      unfold beginDisconnect
      split
      · next hin =>
        exact ⟨.disconnectAsked hpc hasked (reader_accepted_isSome.mpr hin),
          ⟨hs.sorted, hs.given⟩⟩
      · next hin =>
        exact ⟨.disconnectIgnored hpc hasked (reader_accepted_none hin), ⟨hs.sorted, hs.given⟩⟩
  | main draw => cases h
  | context read => cases h
  | askDisconnect id => cases h

/-- **The view refines**: every step of the system is a move of its view. -/
theorem move_of_step (hs : s.Consistent) {a : Act} (h : s.step transformNumber a = some t) :
    Move s.view a t.view ∧ t.Consistent := by
  have hidle : (if s.context = .idle then s.contextIdle a else none) = some t →
      Move s.view a t.view ∧ t.Consistent := by
    intro h
    split at h
    · next hpc => exact move_contextIdle hs hpc h
    · cases h
  cases a with
  | main draw => exact move_main hs h
  | context read => exact move_context hs h
  | askDisconnect id =>
    cases h
    exact ⟨.ask, ⟨hs.sorted, hs.given⟩⟩
  | accept id fd => exact hidle h
  | readEvent r => exact hidle h
  | teardown id => exact hidle h
  | teardownSingle => exact hidle h
  | handleDisconnection => exact hidle h

/-- In every run the clients are in order, and their ids are among those given out. -/
theorem consistent (h : (machine transformNumber).Reach s) : s.Consistent := by
  refine Machine.Reach.invariant (I := Consistent) ?_ ?_ h
  · intro s hs
    refine ⟨?_, ?_⟩
    · rw [hs.clients]
      exact List.Pairwise.nil
    · rw [hs.clients]
      intro e he
      exact absurd he List.not_mem_nil
  · intro s a t hs hstep
    exact (move_of_step hs hstep).2

/-- The invariant rule over views: what holds initially, and is kept by every admitted move, holds
of the view of every state reached. -/
theorem view_invariant {G : System → Act → Prop} {I : View → Prop}
    (hinit : ∀ s, Starts s → I s.view)
    (hmove : ∀ (s : System) (a : Act) (t : System), (machine transformNumber).Reach s →
      I s.view → G s a → Move s.view a t.view → I t.view)
    (h : (machine transformNumber).ReachUnder G s) : I s.view := by
  refine Machine.ReachUnder.induction (J := (machine transformNumber).Reach)
    (I := fun s : System => I s.view) (fun _ h => h) hinit ?_ h
  intro s a t hs _ hI hG hstep
  exact hmove s a t hs hI hG (move_of_step (consistent hs) hstep).1

end System

end ProjectE.Threads
