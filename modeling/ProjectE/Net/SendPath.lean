import ProjectE.Net.ContextLoop

/-!
# The send path

A message for an accepted connection goes from `send_tcp` through the send queue into the
connection's writer, and from there to the socket, a few bytes at a time. Nothing is lost on the way
as long as every message finds room to spare in the writer when it is popped (`Fits`): then the
bytes handed to the socket, those in the writer and those still queued are, in this order, the bytes
of all the calls (`sendPath_conserves`). A popped message that does not fit is dropped without an
error.
-/

namespace ProjectE.Net

open Verif

/-- The bytes of the messages for one connection. -/
def bytesFor (id : Uuid) (messages : List (Uuid × List UInt8)) : List UInt8 :=
  (messages.filter fun message => message.1 = id).flatMap (·.2)

@[simp] theorem bytesFor_append (id : Uuid) (ms ns : List (Uuid × List UInt8)) :
    bytesFor id (ms ++ ns) = bytesFor id ms ++ bytesFor id ns := by
  simp only [bytesFor, List.filter_append, List.flatMap_append]

theorem bytesFor_cons_self (id : Uuid) (data : List UInt8) (ms : List (Uuid × List UInt8)) :
    bytesFor id ((id, data) :: ms) = data ++ bytesFor id ms := by
  simp only [bytesFor, List.filter_cons, decide_true, if_true, List.flatMap_cons]

theorem bytesFor_cons_ne {id id' : Uuid} (h : id' ≠ id) (data : List UInt8)
    (ms : List (Uuid × List UInt8)) : bytesFor id ((id', data) :: ms) = bytesFor id ms := by
  simp only [bytesFor, List.filter_cons, h, decide_false, Bool.false_eq_true, if_false]

namespace BaseServer

/-- The bytes handed to the socket of an accepted connection so far. -/
def handed (s : BaseServer) (id : Uuid) : List UInt8 :=
  (s.tcpConnections.lookup id).elim [] (·.stream.sent)

/-- The contents of its writer. -/
def buffered (s : BaseServer) (id : Uuid) : List UInt8 :=
  (s.tcpConnections.lookup id).elim [] (·.writer.buffer)

/-- The messages for it that are still in the send queue. -/
def queued (s : BaseServer) (id : Uuid) : List UInt8 := bytesFor id s.sendTcpQueue

/-- What an accepted connection has taken over from the queue: the bytes handed to its socket, then
those in its writer. -/
def taken (s : BaseServer) (id : Uuid) : Option (List UInt8) :=
  (s.tcpConnections.lookup id).map fun connection =>
    connection.stream.sent ++ connection.writer.buffer

theorem handed_append_buffered {s : BaseServer} {id : Uuid} {bs : List UInt8}
    (h : s.taken id = some bs) : s.handed id ++ s.buffered id = bs := by
  obtain ⟨connection, hc, rfl⟩ := Option.map_eq_some_iff.mp h
  simp only [handed, buffered, hc, Option.elim_some]

theorem taken_of_mem {s : BaseServer} {id : Uuid} (h : id ∈ s.tcpConnections) :
    ∃ bs, s.taken id = some bs := by
  obtain ⟨connection, hc⟩ := Option.isSome_iff_exists.mp (AList.lookup_isSome.mpr h)
  exact ⟨_, by rw [taken, hc]; rfl⟩

theorem taken_of_not_mem {s : BaseServer} {id : Uuid} (h : id ∉ s.tcpConnections) :
    s.taken id = none := by
  rw [taken, AList.lookup_eq_none.mpr h, Option.map_none]

/-- What a step other than an append does to the bytes a connection has taken over: nothing, or the
connection is torn down, or it is a new one. -/
inductive Carried (o o' : Option (List UInt8)) : Prop
  | same : o' = o → Carried o o'
  | gone : o' = none → Carried o o'
  | fresh : o = none → o' = some [] → Carried o o'

variable {s : BaseServer} {c id : Uuid} {connection connection' : TcpConnection}

theorem taken_setConnection_self (s : BaseServer) (id : Uuid) (connection : TcpConnection) :
    (s.setConnection id connection).taken id =
      some (connection.stream.sent ++ connection.writer.buffer) := by
  simp only [taken, setConnection, AList.lookup_insert, Option.map_some]

theorem taken_setConnection_ne (h : c ≠ id) :
    (s.setConnection id connection).taken c = s.taken c := by
  simp only [taken, setConnection, AList.lookup_insert_ne h]

/-- Changing a connection in place without touching its bytes. -/
theorem taken_setConnection (h : s.tcpConnections.lookup id = some connection)
    (hbytes : connection'.stream.sent ++ connection'.writer.buffer =
      connection.stream.sent ++ connection.writer.buffer) :
    (s.setConnection id connection').taken c = s.taken c := by
  by_cases hc : c = id
  · subst hc
    rw [taken_setConnection_self, hbytes, taken, h, Option.map_some]
  · exact taken_setConnection_ne hc

theorem carried_detach (s : BaseServer) (id c : Uuid) :
    Carried (s.taken c) ((s.detachConnection id).taken c) := by
  unfold detachConnection
  split
  · exact .same rfl
  · by_cases hc : c = id
    · subst hc
      exact .gone (by simp only [taken, eraseConnection, AList.lookup_erase, Option.map_none])
    · exact .same (by simp only [taken, eraseConnection, pollRemove, AList.lookup_erase_ne hc])

theorem carried_emplace (s : BaseServer) (id c : Uuid) (fd : Fd) :
    Carried (s.taken c) ((s.emplaceConnection id (TcpConnection.new fd)).taken c) := by
  unfold emplaceConnection
  split
  · exact .same rfl
  · next hid =>
    by_cases hc : c = id
    · subst hc
      exact .fresh (taken_of_not_mem hid) (taken_setConnection_self s c (TcpConnection.new fd))
    · exact .same (taken_setConnection_ne hc)

/-- A flush moves bytes from the writer to the socket. -/
theorem flushed_bytes (connection : TcpConnection) (os : WriteOutcome) :
    (flushed connection (connection.writer.flush os).1
        (connection.writer.flush os).2.1).stream.sent ++
      (flushed connection (connection.writer.flush os).1
        (connection.writer.flush os).2.1).writer.buffer =
      connection.stream.sent ++ connection.writer.buffer := by
  simp only [flushed, List.append_assoc, connection.writer.flush_conserves os]

/-! ## Steps that append nothing -/

/-- The send queue is left alone, and what a connection has taken over is carried on. -/
def Quiet (c : Uuid) (s s' : BaseServer) : Prop :=
  s'.sendTcpQueue = s.sendTcpQueue ∧ Carried (s.taken c) (s'.taken c)

theorem Quiet.refl (c : Uuid) (s : BaseServer) : Quiet c s s := ⟨rfl, .same rfl⟩

/-- Same connections and same queue. -/
theorem quiet_of_eq {s' : BaseServer} (hq : s'.sendTcpQueue = s.sendTcpQueue)
    (hc : s'.tcpConnections = s.tcpConnections) : Quiet c s s' :=
  ⟨hq, .same (by rw [taken, taken, hc])⟩

/-- A step that keeps the bytes, and then perhaps a teardown. -/
theorem Quiet.after {s' s'' : BaseServer} (ht : s'.taken c = s.taken c)
    (hq : s'.sendTcpQueue = s.sendTcpQueue) (h : Quiet c s' s'') : Quiet c s s'' := by
  obtain ⟨hq', hc⟩ := h
  rw [ht] at hc
  exact ⟨hq'.trans hq, hc⟩

theorem quiet_disconnect (s : BaseServer) (id : Uuid) :
    Quiet c s (s.disconnectTcpConnection id) := by
  unfold disconnectTcpConnection
  split
  · refine ⟨?_, carried_detach s id c⟩
    unfold pushEvent detachConnection
    split <;> rfl
  · exact Quiet.refl c s

theorem quiet_disconnectSingle (s : BaseServer) : Quiet c s s.disconnectTcpConnectionSingle := by
  unfold disconnectTcpConnectionSingle
  split
  · exact quiet_of_eq rfl rfl
  · exact Quiet.refl c s

theorem quiet_handleNewTcpConnections (s : BaseServer) (os : OsAnswers) :
    Quiet c s (s.handleNewTcpConnections os) := by
  unfold handleNewTcpConnections
  split
  · exact Quiet.refl c s
  next fd _ =>
  simp only
  split
  · exact quiet_of_eq rfl rfl
  · refine ⟨?_, ?_⟩
    · simp only [addAccepted, pushEvent, emplaceConnection]
      split <;> rfl
    · exact carried_emplace { s with
        poll := s.poll.add fd
        generatedUUIDs := os.newUuid :: s.generatedUUIDs } os.newUuid c fd

theorem quiet_handleTcpReadConnection (s : BaseServer) (os : OsAnswers) :
    Quiet c s (s.handleTcpReadConnection os) := by
  unfold handleTcpReadConnection
  split
  · exact Quiet.refl c s
  · simp only
    split
    · exact quiet_of_eq rfl rfl
    · split <;> exact quiet_of_eq rfl rfl

theorem quiet_handleTcpReadEvents (s : BaseServer) (fd : Fd) (os : OsAnswers) :
    Quiet c s (s.handleTcpReadEvents fd os) := by
  unfold handleTcpReadEvents
  split
  · exact Quiet.refl c s
  next id connection hget =>
  have hkeep : (s.setConnection id { connection with
      reader := (connection.reader.fillBuf os.read).1 }).taken c = s.taken c :=
    taken_setConnection (getTcpConnection_lookup hget) rfl
  simp only
  split
  · exact Quiet.after hkeep rfl (Quiet.refl c _)
  · split
    · exact Quiet.after hkeep rfl (quiet_disconnect _ id)
    · exact Quiet.after hkeep rfl (quiet_of_eq rfl rfl)

theorem quiet_handleTcpWriteEvents (s : BaseServer) (fd : Fd) (os : OsAnswers) :
    Quiet c s (s.handleTcpWriteEvents fd os) := by
  unfold handleTcpWriteEvents
  split
  · exact Quiet.refl c s
  next id connection hget =>
  have hkeep : (s.setConnection id (flushed connection (connection.writer.flush os.write).1
      (connection.writer.flush os.write).2.1)).taken c = s.taken c :=
    taken_setConnection (getTcpConnection_lookup hget) (flushed_bytes connection os.write)
  simp only
  split
  · exact Quiet.after hkeep rfl (quiet_disconnect _ id)
  · exact Quiet.after hkeep rfl (Quiet.refl c _)

theorem quiet_handleTcpWriteConnection (s : BaseServer) (os : OsAnswers) :
    Quiet c s (s.handleTcpWriteConnection os) := by
  unfold handleTcpWriteConnection
  split
  · exact Quiet.refl c s
  · simp only
    split
    · exact Quiet.after rfl rfl (quiet_disconnectSingle _)
    · exact quiet_of_eq rfl rfl

theorem quiet_handleUdpReadEvent (isValidUdpMessage : List UInt8 → Bool) (s : BaseServer)
    (os : OsAnswers) : Quiet c s (s.handleUdpReadEvent isValidUdpMessage os) := by
  unfold handleUdpReadEvent
  split
  · exact Quiet.refl c s
  · simp only
    split
    · exact Quiet.refl c s
    · split
      · exact Quiet.refl c s
      · exact quiet_of_eq rfl rfl

/-- No event of a batch appends anything. -/
theorem quiet_handleEvent (isValidUdpMessage : List UInt8 → Bool) (s : BaseServer)
    (event : PollEvent) (os : OsAnswers) :
    Quiet c s (s.handleEvent isValidUdpMessage event os) := by
  unfold handleEvent
  split
  · unfold handleRead
    split
    · exact quiet_handleUdpReadEvent isValidUdpMessage s os
    · split
      · exact quiet_handleNewTcpConnections s os
      · split
        · exact quiet_handleTcpReadConnection s os
        · exact quiet_handleTcpReadEvents s event.fd os
  · unfold handleWrite
    split
    · exact quiet_of_eq rfl rfl
    · split
      · exact quiet_handleTcpWriteConnection s os
      · exact quiet_handleTcpWriteEvents s event.fd os
  · unfold handleError
    split
    · exact Quiet.refl c s
    · split
      · exact Quiet.refl c s
      · split
        · exact quiet_disconnectSingle s
        · split
          · exact Quiet.refl c s
          · exact quiet_disconnect s _

theorem quiet_handleDisconnection (s : BaseServer) : Quiet c s s.handleDisconnection := by
  unfold handleDisconnection
  split
  · exact Quiet.refl c s
  · exact Quiet.after rfl rfl (quiet_disconnect _ _)

theorem quiet_prepareWrite (s : BaseServer) : Quiet c s s.prepareWrite := by
  unfold prepareWrite handleTcpConnectionsWrite handleTcpConnectionWrite handleUdpSocketWrite
  refine quiet_of_eq ?_ ?_
  · repeat' split
    all_goals rfl
  · repeat' split
    all_goals rfl

/-! ## Appending -/

/-- The message at the front of the queue, if it is for `c`, is empty or leaves room to spare in the
writer of `c`. -/
def FrontFits (c : Uuid) (s : BaseServer) : Prop :=
  ∀ data, (c, data) ∈ s.sendTcpQueue.head? → data = [] ∨
    ∀ connection, s.tcpConnections.lookup c = some connection →
      data.length < subSize connection.writer.capacity connection.writer.buffer.length

theorem BufWriter.write_fits {w : BufWriter} {data : List UInt8}
    (h : data = [] ∨ data.length < subSize w.capacity w.buffer.length) :
    (w.write data).1.buffer = w.buffer ++ data := by
  rcases h with rfl | h
  · rw [w.write_nil, List.append_nil]
  · exact BufWriter.write_accepts (decide_eq_true h)

/-- Appending creates no connection. -/
theorem mem_of_mem_appendQueued (h : c ∈ s.appendQueued.tcpConnections) :
    c ∈ s.tcpConnections := by
  unfold appendQueued at h
  split at h
  · exact h
  · simp only at h
    split at h
    · exact h
    · next hsome =>
      rcases (AList.mem_insert _).mp h with rfl | h
      · exact AList.lookup_isSome.mp (Option.isSome_iff_exists.mpr ⟨_, hsome⟩)
      · exact h

/-- What the front of the queue loses, the connection takes over. -/
theorem taken_appendQueued (hfits : FrontFits c s) {bs : List UInt8} (ht : s.taken c = some bs) :
    ∃ bs', s.appendQueued.taken c = some bs' ∧
      bs' ++ s.appendQueued.queued c = bs ++ s.queued c := by
  unfold appendQueued
  split
  · exact ⟨bs, ht, rfl⟩
  next id data rest hqueue =>
  have hqueued : s.queued c = bytesFor c ((id, data) :: rest) := by rw [queued, hqueue]
  simp only
  split
  · next hnone =>
    have hne : id ≠ c := by
      rintro rfl
      rw [taken, hnone] at ht
      cases ht
    refine ⟨bs, ht, ?_⟩
    rw [hqueued, bytesFor_cons_ne hne]
    rfl
  · next connection hsome =>
    by_cases hne : id = c
    · subst hne
      have hwrite := BufWriter.write_fits ((hfits data (by rw [hqueue]; rfl)).imp_right
        fun h => h connection hsome)
      rw [taken, hsome] at ht
      cases ht
      refine ⟨_, taken_setConnection_self _ _ _, ?_⟩
      rw [hqueued, bytesFor_cons_self, hwrite]
      simp only [List.append_assoc]
      rfl
    · have hne' : c ≠ id := by
        intro h
        exact hne h.symm
      refine ⟨bs, (taken_setConnection_ne hne').trans ht, ?_⟩
      rw [hqueued, bytesFor_cons_ne hne]
      rfl

end BaseServer

/-! ## Runs -/

namespace ContextLoop

open BaseServer

variable {isValidUdpMessage : List UInt8 → Bool} {c : Uuid} {s t : ContextLoop} {a : Label}

/-- All the data passed to `send_tcp` for one id, in order. -/
def asked (s : ContextLoop) (id : Uuid) : List UInt8 := bytesFor id s.sendCalls

/-- The condition on a step: where it pops a message for `c`, the message fits. -/
def Fits (c : Uuid) (s : ContextLoop) : Label → Prop
  | .turn _ => s.pos = .sends → FrontFits c s.server
  | _ => True

/-- What `c` has taken over, and what is queued for it, is what was asked. -/
def Conserved (c : Uuid) (s : ContextLoop) : Prop :=
  ∀ bs, s.server.taken c = some bs → bs ++ s.server.queued c = s.asked c

/-- The send queue is the end of the calls made. -/
theorem queue_suffix (h : (machine isValidUdpMessage).Reach s) :
    s.server.sendTcpQueue <:+ s.sendCalls := by
  refine Machine.Reach.invariant (I := fun s => s.server.sendTcpQueue <:+ s.sendCalls) ?_ ?_ h
  · rintro s ⟨-, hq, -, -, -⟩
    rw [hq]
    exact List.nil_suffix
  · intro s a t hs hstep
    cases effect_of_step hstep with
    | sendTcp hserver hcalls =>
      rw [hserver, hcalls]
      obtain ⟨popped, hp⟩ := hs
      exact ⟨popped, by rw [← hp, List.append_assoc]; rfl⟩
    | askDisconnect hserver hcalls =>
      rw [hserver, hcalls]
      exact hs
    | wait hserver hcalls =>
      rw [hserver, hcalls, (quiet_prepareWrite (c := 0) s.server).1]
      exact hs
    | event event hserver hcalls =>
      rw [hserver, hcalls, (quiet_handleEvent (c := 0) _ s.server event _).1]
      exact hs
    | disconnection hserver hcalls =>
      rw [hserver, hcalls, (quiet_handleDisconnection (c := 0) s.server).1]
      exact hs
    | append _ hserver hcalls =>
      rw [hserver, hcalls]
      refine List.IsSuffix.trans ?_ hs
      unfold appendQueued
      split
      · exact List.suffix_refl _
      · next hqueue =>
        rw [hqueue]
        simp only
        split
        · exact List.suffix_cons _ _
        · exact List.suffix_cons _ _
    | leave hserver hcalls =>
      rw [hserver, hcalls]
      exact hs

/-- A quiet step keeps what is conserved, as long as `c` is there before it. -/
theorem Conserved.of_quiet (hcons : Conserved c s) (hin : c ∈ s.server.tcpConnections)
    (hq : Quiet c s.server t.server) (hcalls : t.sendCalls = s.sendCalls) : Conserved c t := by
  intro bs ht
  obtain ⟨hqueue, hcarried⟩ := hq
  have hqueued : t.server.queued c = s.server.queued c := by rw [queued, queued, hqueue]
  have hasked : t.asked c = s.asked c := by rw [asked, asked, hcalls]
  rw [hqueued, hasked]
  cases hcarried with
  | same h => exact hcons bs (h.symm.trans ht)
  | gone h =>
    rw [h] at ht
    cases ht
  | fresh h _ =>
    obtain ⟨bs', hbs'⟩ := taken_of_mem hin
    rw [h] at hbs'
    cases hbs'

/-- One step, taken while `c` is there and where a popped message fits. -/
theorem Conserved.step (hcons : Conserved c s) (hin : c ∈ s.server.tcpConnections)
    (hfits : Fits c s a) (hstep : (machine isValidUdpMessage).step s a = some t) :
    Conserved c t := by
  cases effect_of_step hstep with
  | sendTcp hserver hcalls =>
    intro bs ht
    rw [hserver] at ht ⊢
    have h := hcons bs ht
    rw [asked, hcalls, bytesFor_append, ← asked, ← h, List.append_assoc, queued, sendTcp,
      bytesFor_append]
    rfl
  | askDisconnect hserver hcalls =>
    exact hcons.of_quiet hin (hserver ▸ quiet_of_eq rfl rfl) hcalls
  | wait hserver hcalls => exact hcons.of_quiet hin (hserver ▸ quiet_prepareWrite _) hcalls
  | event event hserver hcalls =>
    exact hcons.of_quiet hin (hserver ▸ quiet_handleEvent _ _ event _) hcalls
  | disconnection hserver hcalls =>
    exact hcons.of_quiet hin (hserver ▸ quiet_handleDisconnection _) hcalls
  | append hpos hserver hcalls =>
    intro bs ht
    obtain ⟨bs₀, h₀⟩ := taken_of_mem hin
    obtain ⟨bs', h', heq⟩ := taken_appendQueued (hfits hpos) h₀
    rw [hserver, h'] at ht
    cases ht
    rw [hserver, heq, asked, hcalls]
    exact hcons bs₀ h₀
  | leave hserver hcalls =>
    exact hcons.of_quiet hin (hserver ▸ Quiet.refl c _) hcalls

/-- The step that accepts `c` starts its account, if nothing was asked for it before. -/
theorem conserved_of_accept (hreach : (machine isValidUdpMessage).Reach s)
    (hasked : s.asked c = []) (hout : c ∉ s.server.tcpConnections)
    (hstep : (machine isValidUdpMessage).step s a = some t) (hin : c ∈ t.server.tcpConnections) :
    Conserved c t := by
  have hnone := taken_of_not_mem hout
  obtain ⟨bs, hbs⟩ := taken_of_mem hin
  have hqueued : s.server.queued c = [] := by
    obtain ⟨popped, hp⟩ := queue_suffix hreach
    rw [asked, ← hp, bytesFor_append] at hasked
    exact (List.append_eq_nil_iff.mp hasked).2
  have hquiet (hq : Quiet c s.server t.server) (hcalls : t.sendCalls = s.sendCalls) :
      Conserved c t := by
    obtain ⟨hqueue, hcarried⟩ := hq
    intro bs' hbs'
    rw [queued, hqueue, ← queued, hqueued, asked, hcalls, ← asked, hasked]
    cases hcarried with
    | same h =>
      rw [h, hnone] at hbs'
      cases hbs'
    | gone h =>
      rw [h] at hbs'
      cases hbs'
    | fresh _ h =>
      rw [h] at hbs'
      cases hbs'
      rfl
  cases effect_of_step hstep with
  | sendTcp hserver hcalls =>
    rw [hserver] at hin
    exact absurd hin hout
  | askDisconnect hserver hcalls => exact hquiet (hserver ▸ quiet_of_eq rfl rfl) hcalls
  | wait hserver hcalls => exact hquiet (hserver ▸ quiet_prepareWrite _) hcalls
  | event event hserver hcalls => exact hquiet (hserver ▸ quiet_handleEvent _ _ event _) hcalls
  | disconnection hserver hcalls => exact hquiet (hserver ▸ quiet_handleDisconnection _) hcalls
  | append _ hserver hcalls =>
    rw [hserver] at hin
    exact absurd (mem_of_mem_appendQueued hin) hout
  | leave hserver hcalls => exact hquiet (hserver ▸ Quiet.refl c _) hcalls

/-- **The send path loses nothing, where every popped message fits**: from the step that accepts a
connection on, in every run in which it is not torn down and each message popped for it is empty or
leaves room to spare in its writer, what was handed to the socket, what is in the writer and what is
queued make up what was asked. -/
theorem sendPath_conserves {s₀ s₁ t : ContextLoop} {a : Label}
    (hreach : (machine isValidUdpMessage).Reach s₀) (hasked : s₀.asked c = [])
    (hout : c ∉ s₀.server.tcpConnections)
    (hstep : (machine isValidUdpMessage).step s₀ a = some s₁)
    (hin : c ∈ s₁.server.tcpConnections)
    (hrun : (machine isValidUdpMessage).RunUnder
      (fun s a => c ∈ s.server.tcpConnections ∧ Fits c s a) s₁ t)
    (ht : c ∈ t.server.tcpConnections) :
    t.server.handed c ++ t.server.buffered c ++ t.server.queued c = t.asked c := by
  have hcons : Conserved c t := by
    refine hrun.invariant ?_ (conserved_of_accept hreach hasked hout hstep hin)
    intro s a t hs ⟨hmem, hfits⟩ hst
    exact hs.step hmem hfits hst
  obtain ⟨bs, hbs⟩ := taken_of_mem ht
  rw [handed_append_buffered hbs]
  exact hcons bs hbs

/-! ## One message of one connection -/

/-- A loop that hosts on descriptor 3, before its first turn. -/
def hostingLoop : ContextLoop :=
  ⟨{ hosting ∅ with poll := ⟨[⟨3, true, false⟩]⟩ }, .prepare, []⟩

/-- The answers of the OS where connection 1 is accepted on descriptor 5. -/
def acceptAnswer : OsAnswers := { readAnswer (.ok []) with accept := .ok 5, newUuid := 1 }

/-- The loop after its first poll answered that the listener is ready. -/
def polled : ContextLoop := { hostingLoop with pos := .batch [⟨.read, 3⟩] }

/-- The loop after connection 1 was accepted. -/
def acceptedOne : ContextLoop :=
  { polled with
    server := polled.server.handleNewTcpConnections acceptAnswer
    pos := .batch [] }

theorem reach_polled : (machine fun _ => true).Reach polled :=
  ⟨hostingLoop, ⟨rfl, rfl, rfl, rfl, rfl⟩, Machine.runUnder_of_exec
    (rfl : (machine fun _ => true).exec Machine.Any hostingLoop [.wait (.ok [⟨.read, 3⟩])] =
      some _)⟩

theorem step_polled : (machine fun _ => true).step polled (.turn acceptAnswer) =
    some acceptedOne := rfl

/-- Connection 1 in the loop over the send queue, with one message to pop. -/
def sending (data : List UInt8) : ContextLoop :=
  { acceptedOne with
    server := acceptedOne.server.sendTcp 1 data
    pos := .sends
    sendCalls := [(1, data)] }

/-- The same after the message was popped. -/
def popped (data : List UInt8) : ContextLoop :=
  { sending data with server := (sending data).server.appendQueued }

theorem step_sending (data : List UInt8) : (machine fun _ => true).step (sending data)
    (.turn acceptAnswer) = some (popped data) := rfl

theorem buffered_popped (data : List UInt8) :
    (popped data).server.buffered 1 = (BufWriter.new.write data).1.buffer := rfl

/-- From the accept to the pop no step pops anything else. -/
theorem run_sending (data : List UInt8) :
    (machine fun _ => true).RunUnder (fun s a => 1 ∈ s.server.tcpConnections ∧ Fits 1 s a)
      acceptedOne (sending data) := by
  refine Machine.RunUnder.trans (.step (a := .turn acceptAnswer) ⟨by decide, ?_⟩ rfl) ?_
  · intro h
    cases h
  refine Machine.RunUnder.trans (.step (a := .turn acceptAnswer) ⟨by decide, ?_⟩ rfl) ?_
  · intro h
    cases h
  exact .step (a := .sendTcp 1 data) ⟨by decide, trivial⟩ rfl

/-- A message of three bytes reaches the writer. -/
theorem sendPath_conserves_three_bytes :
    (popped [1, 2, 3]).server.handed 1 ++ (popped [1, 2, 3]).server.buffered 1 ++
      (popped [1, 2, 3]).server.queued 1 = (popped [1, 2, 3]).asked 1 := by
  have hfits : Fits 1 (sending [1, 2, 3]) (.turn acceptAnswer) := by
    rintro - data hdata
    cases hdata
    right
    intro connection hconnection
    cases hconnection
    decide
  exact sendPath_conserves reach_polled rfl (by decide) step_polled (by decide)
    ((run_sending _).trans (.step ⟨by decide, hfits⟩ (step_sending _))) (by decide)

/-- A message of 8192 bytes is dropped when it is popped, though the writer is empty. -/
theorem not_conserved_long_message :
    ¬ ∀ (c : Uuid) (s₀ s₁ t : ContextLoop) (a : Label),
      (machine fun _ => true).Reach s₀ → s₀.asked c = [] → c ∉ s₀.server.tcpConnections →
      (machine fun _ => true).step s₀ a = some s₁ → c ∈ s₁.server.tcpConnections →
      (machine fun _ => true).RunUnder (fun s _ => c ∈ s.server.tcpConnections) s₁ t →
      c ∈ t.server.tcpConnections →
      t.server.handed c ++ t.server.buffered c ++ t.server.queued c = t.asked c := by
  intro hall
  let data : List UInt8 := List.replicate DEFAULT_BUF_SIZE 0
  have hrun : (machine fun _ => true).RunUnder (fun s _ => 1 ∈ s.server.tcpConnections)
      acceptedOne (popped data) :=
    ((run_sending data).mono fun _ _ h => h.1).trans (.step (by decide) (step_sending data))
  have hlaw := hall 1 polled acceptedOne (popped data) _ reach_polled rfl (by decide) step_polled
    (by decide) hrun (by decide)
  have hdropped : (popped data).server.buffered 1 = [] := by
    rw [buffered_popped, BufWriter.write_not_accepts]
    · rfl
    · simp only [BufWriter.accepts, data, List.length_replicate]
      decide
  have hasked : (popped data).asked 1 = data := List.append_nil data
  have hlost : (popped data).server.handed 1 ++ [] ++ (popped data).server.queued 1 = [] := rfl
  rw [hdropped, hlost, hasked] at hlaw
  have := congrArg List.length hlaw
  rw [List.length_replicate] at this
  cases this

end ContextLoop

end ProjectE.Net
