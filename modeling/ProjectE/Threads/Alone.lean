import ProjectE.Net.ReadPath
import ProjectE.Threads.View

/-!
# One thread at a time

The machine of the two threads cuts the handlers at their locks. Put together again they are the
functions of the base server and of the server: a thread that runs while the other stands still, and
holds none of the mutexes it needs, computes what the function computes.
-/

namespace ProjectE.Threads

open Verif Net

/-- A server but for its connections. -/
def withoutConnections (b : Server) : Server :=
  { b with tcpConnection := none, tcpConnections := ∅ }

namespace System

variable {transformNumber : UInt64 → UInt64} {s : System} {r : ReaderRef} {id : Uuid}

theorem locks_release_acquire {m : Mutex} {thread : Thread} (h : s.locks m = none) :
    (s.locks.acquire m thread).release m = s.locks := by
  rw [Locks.acquire, Locks.release, Function.update_idem, ← h, Function.update_eq_self]

/-! ## The context thread -/

/-- The end of `with_lock`. -/
theorem unlock_alone (hpc : s.context = .unlock r) :
    ∃ t, (machine transformNumber).RunUnder Machine.Any s t ∧ t.server = s.server ∧
      t.context = .idle ∧ t.main = s.main ∧ t.locks = s.locks.release (.reader r) := by
  have hstep : (machine transformNumber).step s (.context (.ok [])) = s.contextStep (.ok []) := rfl
  simp only [contextStep, hpc] at hstep
  refine ⟨_, .step trivial hstep, ?_, rfl, ?_, ?_⟩
  · split
    · rfl
    · rfl
  · split
    · rfl
    · rfl
  · split
    · rfl
    · rfl

/-- `disconnect_tcp_connection`, of a connection that is there. -/
theorem disconnect_alone {inside : Bool} (hpc : s.context = .disconnect id inside)
    (hfree : s.locks .usingTcpConnection = none) (hid : id ∈ s.server.tcpConnections) :
    ∃ t, (machine transformNumber).RunUnder Machine.Any s t ∧
      t.server = { s.server with
        toBaseServer := s.server.toBaseServer.disconnectTcpConnection id } ∧
      t.context = (if inside then .unlock (.accepted id) else .idle) ∧ t.main = s.main ∧
      t.locks = s.locks := by
  let s₁ : System := { s with
    locks := s.locks.acquire .usingTcpConnection .context
    context := .erase id inside }
  let s₂ : System := { s₁.base (·.detachConnection id) with context := .unlockUsing id inside }
  let s₃ : System := { s₂ with
    locks := s₂.locks.release .usingTcpConnection
    context := .push id inside }
  let t : System := { s₃.base (·.pushEvent .tcpDisconnection id) with
    context := if inside then .unlock (.accepted id) else .idle }
  have h₁ : (machine transformNumber).step s (.context (.ok [])) = some s₁ := by
    show s.contextStep (.ok []) = some s₁
    simp only [contextStep, hpc, hfree, if_true]
    rfl
  have h₂ : (machine transformNumber).step s₁ (.context (.ok [])) = some s₂ := rfl
  have h₃ : (machine transformNumber).step s₂ (.context (.ok [])) = some s₃ := rfl
  have h₄ : (machine transformNumber).step s₃ (.context (.ok [])) = some t := rfl
  refine ⟨t, ?_, ?_, rfl, rfl, locks_release_acquire hfree⟩
  · exact (Machine.RunUnder.step trivial h₁).trans <| (Machine.RunUnder.step trivial h₂).trans <|
      (Machine.RunUnder.step trivial h₃).trans (.step trivial h₄)
  · rw [BaseServer.disconnectTcpConnection, if_pos hid]
    rfl

theorem contextStep_lock (read : ReadOutcome) (hpc : s.context = .lock r)
    (hthere : (s.reader r).isSome) (hfree : s.locks (.reader r) = none) :
    s.contextStep read = some { s with
      locks := s.locks.acquire (.reader r) .context
      context := .body r } := by
  obtain ⟨reader, hreader⟩ := Option.isSome_iff_exists.mp hthere
  simp only [contextStep, hpc, hreader, hfree, if_true]

theorem contextStep_body (read : ReadOutcome) {reader : BufReader} (hpc : s.context = .body r)
    (hreader : s.reader r = some reader) :
    s.contextStep read = some (s.contextBody r reader read) := by
  simp only [contextStep, hpc, hreader]

/-- What is done under the reader's mutex, and then. -/
theorem body_alone {connection : TcpConnection} (read : ReadOutcome)
    (hpc : s.context = .body (.accepted id))
    (hlookup : s.server.tcpConnections.lookup id = some connection)
    (husing : s.locks .usingTcpConnection = none) :
    ∃ t, (machine transformNumber).RunUnder Machine.Any s t ∧
      t.server = { s.server with
        toBaseServer :=
          let b := s.server.setConnection id
            { connection with reader := (connection.reader.fillBuf read).1 }
          match (connection.reader.fillBuf read).2 with
          | .error _ => b
          | .ok buf =>
            if buf.empty then b.disconnectTcpConnection id else b.pushEvent .tcpRead id } ∧
      t.context = .idle ∧ t.main = s.main ∧
      t.locks = s.locks.release (.reader (.accepted id)) := by
  have hreader : s.reader (.accepted id) = some connection.reader := by
    simp only [reader, BaseServer.connection, hlookup, Option.map_some]
  let b := s.server.setConnection id
    { connection with reader := (connection.reader.fillBuf read).1 }
  have hset : s.server.toBaseServer.setReader .accepted id
      (connection.reader.fillBuf read).1 = b := by
    simp only [BaseServer.setReader, hlookup, b]
  have hbody : (machine transformNumber).step s (.context read) =
      some (s.contextBody (.accepted id) connection.reader read) :=
    contextStep_body read hpc hreader
  have hrun := Machine.RunUnder.step (G := Machine.Any) trivial hbody
  let filled (context : ContextPc) (b : BaseServer) : System := { s with
    server := { s.server with toBaseServer := b }
    received := Function.update s.received (.accepted id)
      (s.received (.accepted id) ++ connection.reader.delivered read)
    context := context }
  cases hres : (connection.reader.fillBuf read).2 with
  | error e =>
    have heq : s.contextBody (.accepted id) connection.reader read =
        filled (.unlock (.accepted id)) b := by
      simp only [contextBody, hres, setReader, base, hset, filled]
    rw [heq] at hrun
    obtain ⟨t, hunlock, hserver, hcontext, hmain, hlocks⟩ := unlock_alone (s := filled _ b) rfl
    exact ⟨t, hrun.trans hunlock, hserver, hcontext, hmain, hlocks⟩
  | ok buf =>
    cases hempty : buf.empty with
    | true =>
      have heq : s.contextBody (.accepted id) connection.reader read =
          filled (.disconnect id true) b := by
        simp only [contextBody, hres, hempty, if_true, setReader, base, hset, filled]
      have hid : id ∈ b.tcpConnections := AList.mem_keys.mpr (by simp [b, BaseServer.setConnection])
      rw [heq] at hrun
      obtain ⟨u, hdisconnect, hserver, hcontext, hmain, hlocks⟩ :=
        disconnect_alone (s := filled (.disconnect id true) b) rfl husing hid
      obtain ⟨t, hunlock, hserver', hcontext', hmain', hlocks'⟩ :=
        unlock_alone (r := .accepted id) hcontext
      refine ⟨t, (hrun.trans hdisconnect).trans hunlock, ?_, hcontext', hmain'.trans hmain, ?_⟩
      · simp only [hserver', hserver, hempty, if_true, filled, b]
      · rw [hlocks', hlocks]
    | false =>
      have heq : s.contextBody (.accepted id) connection.reader read =
          filled (.unlock (.accepted id)) (b.pushEvent .tcpRead id) := by
        simp only [contextBody, hres, hempty, Bool.false_eq_true, if_false, setReader, base, hset,
          filled]
      rw [heq] at hrun
      obtain ⟨t, hunlock, hserver, hcontext, hmain, hlocks⟩ := unlock_alone (s := filled _ _) rfl
      refine ⟨t, hrun.trans hunlock, ?_, hcontext, hmain, hlocks⟩
      simp only [hserver, hempty, Bool.false_eq_true, if_false, filled, b]

/-- **A Read event handled alone is the handler of Read events**: the steps between the event and
the end of `with_lock` compute `handle_tcp_read_events`. -/
theorem read_alone {fd : Fd} {connection : TcpConnection} (hidle : s.context = .idle)
    (hfind : s.server.getTcpConnection fd = some (id, connection))
    (hreader : s.locks (.reader (.accepted id)) = none)
    (husing : s.locks .usingTcpConnection = none) (os : OsAnswers) :
    ∃ t, (machine transformNumber).RunUnder Machine.Any s t ∧
      t.server = { s.server with
        toBaseServer := s.server.toBaseServer.handleTcpReadEvents fd os } ∧
      t.context = .idle ∧ t.main = s.main ∧ t.locks = s.locks := by
  have hlookup := BaseServer.getTcpConnection_lookup hfind
  have hthere : (s.reader (.accepted id)).isSome := by
    simp only [reader, BaseServer.connection, hlookup, Option.map_some, Option.isSome_some]
  let s₁ : System := { s with context := .lock (.accepted id) }
  let s₂ : System := { s₁ with
    locks := s₁.locks.acquire (.reader (.accepted id)) .context
    context := .body (.accepted id) }
  have h₁ : (machine transformNumber).step s (.readEvent (.accepted id)) = some s₁ := by
    show (if s.context = .idle then s.contextIdle (.readEvent (.accepted id)) else none) = some s₁
    rw [if_pos hidle]
    exact if_pos hthere
  have h₂ : (machine transformNumber).step s₁ (.context (.ok [])) = some s₂ :=
    contextStep_lock (s := s₁) (.ok []) rfl hthere hreader
  have husing₂ : s₂.locks .usingTcpConnection = none := by
    have hne : Mutex.usingTcpConnection ≠ .reader (.accepted id) := by
      intro h
      cases h
    show s.locks.acquire (.reader (.accepted id)) .context .usingTcpConnection = none
    rw [Locks.acquire, Function.update_of_ne hne, husing]
  obtain ⟨t, hrun, hserver, hcontext, hmain, hlocks⟩ :=
    body_alone (s := s₂) os.read rfl hlookup husing₂
  refine ⟨t, (Machine.RunUnder.step trivial h₁).trans <|
    (Machine.RunUnder.step trivial h₂).trans hrun, ?_, hcontext, hmain,
    hlocks.trans (locks_release_acquire hreader)⟩
  have hhandler : s.server.toBaseServer.handleTcpReadEvents fd os = _ :=
    BaseServer.handleTcpReadEvents_of_fillBuf hfind
  exact hserver.trans (congrArg (fun b => { s.server with toBaseServer := b }) hhandler.symm)

/-! ## The main thread -/

theorem withoutConnections_baseSendUdp (b : Server) (data : List UInt8) :
    withoutConnections (b.baseSendUdp data) = (withoutConnections b).baseSendUdp data := by
  have haddr : (withoutConnections b).udpConnectionAddr = b.udpConnectionAddr := rfl
  unfold Server.baseSendUdp BaseServer.sendUdp
  rw [haddr]
  cases b.udpConnectionAddr with
  | none => rfl
  | some addr => rfl

/-- Handling a packet depends on nothing of the connections, and leaves them as they are. -/
theorem withoutConnections_handlePacket (garbage : UInt16) (b : Server) (client : Uuid)
    (packet : Packet) :
    withoutConnections (b.handlePacket transformNumber garbage client packet) =
      (withoutConnections b).handlePacket transformNumber garbage client packet := by
  unfold Server.handlePacket
  split
  · split
    · exact withoutConnections_baseSendUdp b _
    · rfl
  · rfl

theorem withoutConnections_setReader (reader : BufReader) :
    withoutConnections (s.setReader r reader).server = withoutConnections s.server := by
  obtain ⟨kind, id⟩ := r
  cases kind with
  | accepted =>
    unfold setReader base BaseServer.setReader
    simp only
    split
    · rfl
    · rfl
  | outgoing => rfl

theorem reader_handlePacket (garbage : UInt16) (client : Uuid) (packet : Packet) :
    reader { s with server := s.server.handlePacket transformNumber garbage client packet } =
      s.reader := by
  have hview := view_handlePacket transformNumber s garbage client packet
  exact congrArg View.reader hview

theorem mainStep_lock (transformNumber : UInt64 → UInt64) {client : Uuid} {body : Body}
    (draw : Draw) (hmain : s.main = .lock r client body) {reader : BufReader}
    (hreader : s.reader r = some reader) (hfree : s.locks (.reader r) = none) :
    s.mainStep transformNumber draw = some { s with
      locks := s.locks.acquire (.reader r) .main
      main := .body r client body } := by
  simp only [mainStep, hmain, withReader, hreader, hfree, if_true]

theorem mainStep_body (transformNumber : UInt64 → UInt64) {client : Uuid} {body : Body}
    (draw : Draw) (hmain : s.main = .body r client body) {reader : BufReader}
    (hreader : s.reader r = some reader) :
    s.mainStep transformNumber draw = some (s.mainBody r client reader body) := by
  simp only [mainStep, hmain, withReader, hreader]

theorem mainStep_unlock (transformNumber : UInt64 → UInt64) {client : Uuid} {after : After}
    (draw : Draw) (hmain : s.main = .unlock r client after) {reader : BufReader}
    (hreader : s.reader r = some reader) :
    s.mainStep transformNumber draw = some { s with
      locks := s.locks.release (.reader r)
      main := afterUnlock r client after } := by
  simp only [mainStep, hmain, withReader, hreader]

/-- What a body leaves of the reader, and what it hands on. -/
def result (reader : BufReader) : Body → BufReader × After
  | .first => (reader, .parsed (Packet.deserialize reader.unread))
  | .consume packet =>
    (reader.consume packet.size, .reparse (reader.consume packet.size).buf.buffer)

theorem reader_mainBody {client : Uuid} {reader : BufReader} (hreader : s.reader r = some reader)
    (body : Body) : (s.mainBody r client reader body).reader =
      Function.update s.reader r (some (result reader body).1) := by
  cases body with
  | first =>
    rw [result, ← hreader, Function.update_eq_self]
    rfl
  | consume packet => exact reader_setReader _ (by rw [hreader]; rfl)

theorem main_mainBody (client : Uuid) (reader : BufReader) (body : Body) :
    (s.mainBody r client reader body).main = .unlock r client (result reader body).2 := by
  cases body with
  | first => rfl
  | consume packet => rfl

theorem withoutConnections_mainBody (client : Uuid) (reader : BufReader) (body : Body) :
    withoutConnections (s.mainBody r client reader body).server = withoutConnections s.server := by
  cases body with
  | first => rfl
  | consume packet => exact withoutConnections_setReader _

theorem frame_mainBody (client : Uuid) (reader : BufReader) (body : Body) :
    (s.mainBody r client reader body).locks = s.locks ∧
      (s.mainBody r client reader body).context = s.context := by
  cases body with
  | first => exact ⟨rfl, rfl⟩
  | consume packet => exact ⟨rfl, rfl⟩

/-- One round under the reader's mutex. -/
theorem mutex_alone (transformNumber : UInt64 → UInt64) {client : Uuid} {body : Body}
    {reader : BufReader} (hmain : s.main = .lock r client body) (hreader : s.reader r = some reader)
    (hfree : s.locks (.reader r) = none) :
    ∃ t, (machine transformNumber).RunUnder Machine.Any s t ∧
      withoutConnections t.server = withoutConnections s.server ∧
      t.reader = Function.update s.reader r (some (result reader body).1) ∧
      t.main = afterUnlock r client (result reader body).2 ∧ t.locks = s.locks ∧
      t.context = s.context := by
  let s₁ : System := { s with
    locks := s.locks.acquire (.reader r) .main
    main := .body r client body }
  let s₂ := s₁.mainBody r client reader body
  have hreader₁ : s₁.reader r = some reader := hreader
  have hreader₂ : s₂.reader = Function.update s.reader r (some (result reader body).1) :=
    reader_mainBody hreader₁ body
  have hframe := frame_mainBody (s := s₁) (r := r) client reader body
  have hthere : s₂.reader r = some (result reader body).1 := by
    rw [hreader₂, Function.update_self]
  have h₁ : (machine transformNumber).step s (.main draw) = some s₁ :=
    mainStep_lock transformNumber draw hmain hreader hfree
  have h₂ : (machine transformNumber).step s₁ (.main draw) = some s₂ :=
    mainStep_body transformNumber draw rfl hreader₁
  let t : System := { s₂ with
    locks := s₂.locks.release (.reader r)
    main := afterUnlock r client (result reader body).2 }
  have h₃ : (machine transformNumber).step s₂ (.main draw) = some t :=
    mainStep_unlock transformNumber draw (main_mainBody client reader body) hthere
  refine ⟨t, (Machine.RunUnder.step trivial h₁).trans <| (Machine.RunUnder.step trivial h₂).trans
    (.step trivial h₃), withoutConnections_mainBody (s := s₁) client reader body, hreader₂, rfl, ?_,
    hframe.2⟩
  show s₂.locks.release (.reader r) = s.locks
  rw [hframe.1]
  exact locks_release_acquire hfree

/-- The span parsed alone shows the unread bytes, or is too short to be read. -/
theorem parse_alone (transformNumber : UInt64 → UInt64) {client : Uuid} {reader : BufReader}
    (hmain : s.main = .parse r client reader.buf.buffer) (hreader : s.reader r = some reader) :
    (machine transformNumber).RunUnder Machine.Any s
      { s with main := loopHead r client (Packet.deserialize reader.unread) } := by
  have hstep : (machine transformNumber).step s (.main draw) =
    s.mainStep transformNumber draw := rfl
  simp only [mainStep, hmain, withReader, hreader, BufReader.size_buffer] at hstep
  split at hstep
  · next hshort =>
    rw [Packet.deserialize_short hshort]
    exact .step trivial hstep
  · exact .step trivial hstep

/-- The loop of `on_tcp_data`, from its test. -/
theorem loop_alone {client : Uuid} (garbage : Nat → UInt16) (b : Server) (reader : BufReader)
    (hmain : s.main = loopHead r client (Packet.deserialize reader.unread))
    (hreader : s.reader r = some reader) (hfree : s.locks (.reader r) = none)
    (hserver : withoutConnections s.server = withoutConnections b) :
    ∃ t, (machine transformNumber).RunUnder Machine.Any s t ∧ t.main = .leave r ∧
      withoutConnections t.server =
        withoutConnections (b.onTcpDataLoop transformNumber client garbage reader).1 ∧
      t.reader = Function.update s.reader r
        (some (b.onTcpDataLoop transformNumber client garbage reader).2) ∧
      t.locks = s.locks ∧ t.context = s.context := by
  induction garbage, b, reader using Server.onTcpDataLoop.induct transformNumber client
    generalizing s with
  | case1 garbage b reader hnone =>
    rw [hnone] at hmain
    rw [Server.onTcpDataLoop_of_none hnone]
    refine ⟨s, Relation.ReflTransGen.refl, hmain, hserver, ?_, rfl, rfl⟩
    rw [← hreader, Function.update_eq_self]
  | case2 garbage b reader packet hsome ih =>
    rw [hsome] at hmain
    rw [Server.onTcpDataLoop_of_some hsome]
    let s₁ : System := { s with
      server := s.server.handlePacket transformNumber (garbage 0) client packet
      taken := Function.update s.taken r (s.taken r ++ [packet])
      main := .lock r client (.consume packet) }
    have hhandle : (machine transformNumber).step s (.main ⟨0, 0, garbage 0⟩) = some s₁ := by
      show s.mainStep transformNumber ⟨0, 0, garbage 0⟩ = some s₁
      simp only [mainStep, hmain, loopHead, s₁]
    have hreader₁ : s₁.reader = s.reader := reader_handlePacket (garbage 0) client packet
    obtain ⟨s₂, hround, hserver₂, hreader₂, hmain₂, hlocks₂, hcontext₂⟩ :=
      mutex_alone transformNumber (s := s₁) rfl (hreader₁ ▸ hreader) hfree
    have hparse := parse_alone transformNumber hmain₂
      (by rw [hreader₂, Function.update_self, result])
    have hsame : withoutConnections s₂.server =
        withoutConnections (b.handlePacket transformNumber (garbage 0) client packet) := by
      rw [hserver₂, withoutConnections_handlePacket, withoutConnections_handlePacket, hserver]
    let s₃ : System := { s₂ with
      main := loopHead r client (Packet.deserialize (reader.consume packet.size).unread) }
    have hreader₃ : s₃.reader = Function.update s.reader r (some (reader.consume packet.size)) := by
      rw [← hreader₁]
      exact hreader₂
    obtain ⟨t, hloop, hmain, hserver, hreader, hlocks, hcontext⟩ :=
      ih (s := s₃) rfl (by rw [hreader₃, Function.update_self]) (hlocks₂ ▸ hfree) hsame
    refine ⟨t, (Machine.RunUnder.step trivial hhandle).trans <| hround.trans <| hparse.trans hloop,
      hmain, hserver, ?_, hlocks.trans hlocks₂, hcontext.trans hcontext₂⟩
    rw [hreader, hreader₃, Function.update_idem]

/-- **`on_tcp_data` run alone is the function of the server**: from its call to its return the steps
handle the same packets, with the same answers, and leave the reader where it leaves it. -/
theorem onTcpData_alone {reader : BufReader} (hmain : s.main = .enter r)
    (hreader : s.reader r = some reader) (hfree : s.locks (.reader r) = none)
    (garbage : Nat → UInt16) :
    ∃ t, (machine transformNumber).RunUnder Machine.Any s t ∧ t.main = .leave r ∧
      withoutConnections t.server =
        withoutConnections (s.server.onTcpData transformNumber garbage r.id reader).1 ∧
      t.reader = Function.update s.reader r
        (some (s.server.onTcpData transformNumber garbage r.id reader).2) ∧
      t.locks = s.locks ∧ t.context = s.context := by
  unfold Server.onTcpData
  cases hclient : s.server.clientOf r.id with
  | none =>
    have hstep : (machine transformNumber).step s (.main draw) =
        some { s with main := .leave r } := by
      show s.mainStep transformNumber draw = _
      simp only [mainStep, hmain, hclient]
    refine ⟨_, .step trivial hstep, rfl, rfl, ?_, rfl, rfl⟩
    rw [← hreader, Function.update_eq_self]
    rfl
  | some entry =>
    obtain ⟨client, record⟩ := entry
    let s₁ : System := { s with main := .lock r client .first }
    have hstep : (machine transformNumber).step s (.main draw) = some s₁ := by
      show s.mainStep transformNumber draw = _
      simp only [mainStep, hmain, hclient, s₁]
    obtain ⟨s₂, hround, hserver₂, hreader₂, hmain₂, hlocks₂, hcontext₂⟩ :=
      mutex_alone transformNumber (s := s₁) rfl hreader hfree
    have hreader₂' : s₂.reader = s.reader := by
      rw [hreader₂, result, ← hreader]
      exact Function.update_eq_self _ _
    obtain ⟨t, hloop, hmain, hserver, hreader', hlocks, hcontext⟩ :=
      loop_alone garbage s.server reader hmain₂ (hreader₂' ▸ hreader) (hlocks₂ ▸ hfree) hserver₂
    exact ⟨t, (Machine.RunUnder.step trivial hstep).trans (hround.trans hloop), hmain, hserver,
      hreader₂' ▸ hreader', hlocks.trans hlocks₂, hcontext.trans hcontext₂⟩

end System

end ProjectE.Threads
