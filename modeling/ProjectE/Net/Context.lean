import ProjectE.Net.ContextLoop
import ProjectE.Net.Tables

/-!
# A server over its whole life

`ContextLoop` is one run of `context_loop`. Here the loop is started and stopped: the main thread
hosts and connects while the context is not running, starts it, pushes to its queues and pops its
events, and stops it between two turns, where `stop_context` joins it.

The OS is held to what it promises about descriptors. A descriptor it makes is not open anywhere in
the process, so the machine carries the descriptors that other parts of the process have open, which
change at any time; and a poll reports of an entry what was asked for, or an error, and only while
the descriptor is open. While the context is running, hosting is left out: `host_tcp` and `host_udp`
write without a lock what the context reads.
-/

namespace ProjectE.Net

open Verif

/-- The loop and what is around it. The last two fields are records that no code reads: the ids
accepted while the batch at hand is processed, and the events popped so far. -/
structure Context extends ContextLoop where
  running : Bool
  /-- Open descriptors of the process that the server does not have. -/
  others : List Fd
  fresh : List Uuid
  popped : List (TCPEvent × Uuid)
deriving DecidableEq

namespace Context

/-- The calls of the main thread, each with what the OS answers it, the steps of the context thread,
and what the rest of the process does. -/
inductive Label where
  | hostTcp (bind : Except ErrorCode Fd)
  | hostUdp (bind : Except ErrorCode Fd)
  | connectTcp (connect : Except ErrorCode Fd) (newUuid : Uuid)
  | connectUdp (any : Except ErrorCode Fd) (localAddr : Except ErrorCode SocketAddr)
      (addr : SocketAddr)
  | startContext
  | stopContext
  | sendTcp (id : Uuid) (data : List UInt8)
  | sendUdp (addr : SocketAddr) (data : List UInt8)
  | askDisconnect (id : Uuid)
  /-- `handle_events` pops an event. -/
  | popEvent
  /-- `on_tcp_data` leaves a reader in this state. -/
  | useReader (kind : BaseServer.ConnectionKind) (id : Uuid) (reader : BufReader)
  /-- The loop prepares the poll table, and the OS fills it in. -/
  | wait (polled : Except ErrorCode (List (Poll.Entry × Poll.Revents)))
  /-- The loop takes one turn of the inner loop it is in. -/
  | turn (os : OsAnswers)
  /-- Other parts of the process open and close descriptors. -/
  | environment (others : List Fd)

/-- Every open descriptor. -/
def opened (s : Context) : List Fd := s.server.descriptors ++ s.others

/-- A descriptor that the OS makes was not open. -/
def unused (s : Context) : Except ErrorCode Fd → Bool
  | .error _ => true
  | .ok fd => fd ∉ s.opened

/-- A step of the main thread that makes a socket. The socket it replaces, if any, stays open. -/
def setUp (s : Context) (server : BaseServer) : Context :=
  { s with
    server := server
    others := (s.server.descriptors.filter fun fd => fd ∉ server.descriptors) ++ s.others }

/-- `handle_events` takes the event at the front. -/
def popEvent (s : Context) : Context :=
  { s with
    server := { s.server with tcpEvents := s.server.tcpEvents.tail }
    popped := s.popped ++ s.server.tcpEvents.head?.toList }

/-- What the OS may answer to a poll. -/
def polls (s : Context) : Except ErrorCode (List (Poll.Entry × Poll.Revents)) → Bool
  | .error _ => true
  | .ok polled =>
    polled.map (·.1) = s.server.prepareWrite.poll.fds &&
      polled.all fun pair => pair.2.answers pair.1 && (!pair.2.reports || pair.1.fd ∈ s.opened)

/-- The ids accepted in the batch, after a turn of the loop. -/
def accepted (s : Context) (os : OsAnswers) (server : BaseServer) : List Uuid :=
  if os.newUuid ∈ server.tcpConnections ∧ os.newUuid ∉ s.server.tcpConnections then
    os.newUuid :: s.fresh
  else s.fresh

/-- What a step does. `none`: the step cannot be made now, or the OS would give out a descriptor or
the generator an id that is in use. -/
def step (isValidUdpMessage : List UInt8 → Bool) (s : Context) : Label → Option Context
  | .hostTcp bind =>
    if s.running || !s.unused bind then none else some (s.setUp (s.server.hostTcp bind))
  | .hostUdp bind =>
    if s.running || !s.unused bind then none else some (s.setUp (s.server.hostUdp bind))
  | .connectTcp connect newUuid =>
    if !s.unused connect || newUuid ∈ s.server.generatedUUIDs then none
    else some (s.setUp (s.server.connectTcp s.running connect newUuid))
  | .connectUdp any localAddr addr =>
    if !s.unused any then none
    else some (s.setUp (s.server.connectUdp s.running any localAddr addr))
  | .startContext =>
    if s.running then none
    else some { s with server := s.server.runContext, pos := .prepare, running := true }
  | .stopContext =>
    if s.pos = .prepare ∨ s.pos = .stopped then some { s with pos := .stopped, running := false }
    else none
  | .sendTcp id data =>
    (s.toContextLoop.step isValidUdpMessage (.sendTcp id data)).map fun loop =>
      { s with toContextLoop := loop }
  | .sendUdp addr data => some { s with server := s.server.sendUdpTo addr data }
  | .askDisconnect id =>
    (s.toContextLoop.step isValidUdpMessage (.askDisconnect id)).map fun loop =>
      { s with toContextLoop := loop }
  | .popEvent => some s.popEvent
  | .useReader kind id reader => some { s with server := s.server.setReader kind id reader }
  | .wait polled =>
    if s.polls polled then
      (s.toContextLoop.step isValidUdpMessage (.wait (polled.map Poll.events))).map fun loop =>
        { s with toContextLoop := loop, fresh := [] }
    else none
  | .turn os =>
    if s.unused os.accept then
      (s.toContextLoop.step isValidUdpMessage (.turn os)).map fun loop =>
        { s with toContextLoop := loop, fresh := s.accepted os loop.server }
    else none
  | .environment others =>
    if others.all fun fd => fd ∉ s.server.descriptors then some { s with others := others }
    else none

/-- A server that was just made, in a process with any descriptors open. -/
def Starts (s : Context) : Prop :=
  s.server = BaseServer.new ∧ s.pos = .stopped ∧ s.sendCalls = [] ∧ s.running = false ∧
    s.fresh = [] ∧ s.popped = []

/-- The runs of a server with both of its threads, from its constructor. -/
def machine (isValidUdpMessage : List UInt8 → Bool) : Machine Context Label where
  init := Starts
  step := step isValidUdpMessage

/-! ## What a step does -/

/-- A socket is made: its owner gets an unused descriptor, and a connection gets an id that was not
given out, which is announced. -/
inductive Opens (s : Context) (t : BaseServer) : Prop
  | socket (o : Owner) (fd : Fd) : o = .udpSocket ∨ o = .tcpListener → fd ∉ s.opened →
      t.fdOf = Function.update s.server.fdOf o (some fd) → t.poll = s.server.poll →
      t.generatedUUIDs = s.server.generatedUUIDs →
      t.announcements = s.server.announcements → Opens s t
  | connection (id : Uuid) (fd : Fd) : s.server.tcpConnection = none → fd ∉ s.opened →
      id ∉ s.server.generatedUUIDs →
      t.fdOf = Function.update s.server.fdOf (.connection .outgoing id) (some fd) →
      t.poll = s.server.poll → t.generatedUUIDs = id :: s.server.generatedUUIDs →
      t.announcements = s.server.announcements ++ [(.tcpConnection, id)] → Opens s t

/-- The place, the batch and whether the context runs are as before. It is what a step of the main
thread leaves to the loop, whatever it does to the tables. -/
structure SamePlace (s t : Context) : Prop where
  pos : t.pos = s.pos
  running : t.running = s.running
  fresh : t.fresh = s.fresh

/-- One turn of an inner loop, or the way to the next. -/
inductive Turn (isValidUdpMessage : List UInt8 → Bool) (os : OsAnswers) (s t : ContextLoop) : Prop
  | event (event : PollEvent) (rest : List PollEvent) : s.pos = .batch (event :: rest) →
      t.pos = .batch rest → os.newUuid ∉ s.server.generatedUUIDs →
      t.server = s.server.handleEvent isValidUdpMessage event os →
      Turn isValidUdpMessage os s t
  | disconnection (id : Uuid) (rest : List Uuid) : s.pos = .disconnections → t.pos = s.pos →
      s.server.disconnectQueue = id :: rest → t.server = s.server.handleDisconnection →
      Turn isValidUdpMessage os s t
  | append (id : Uuid) (data : List UInt8) (rest : List (Uuid × List UInt8)) : s.pos = .sends →
      t.pos = s.pos → s.server.sendTcpQueue = (id, data) :: rest →
      t.server = s.server.appendQueued → Turn isValidUdpMessage os s t
  | next : s.pos ≠ .stopped → t.pos = .disconnections ∨ t.pos = .sends ∨ t.pos = .prepare →
      t.server = s.server → Turn isValidUdpMessage os s t

/-- What a step does, by its label. -/
inductive Effect (isValidUdpMessage : List UInt8 → Bool) (s t : Context) : Label → Prop
  /-- A socket is made, or none is. -/
  | setUp {a} : s.running = false → Opens s t.server → SamePlace s t → t.popped = s.popped →
      t.others = (s.server.descriptors.filter fun fd => fd ∉ t.server.descriptors) ++ s.others →
      Effect isValidUdpMessage s t a
  /-- A queue gets longer, a reader is used, or nothing happens. -/
  | quiet {a} : BaseServer.Keeps s.server t.server → SamePlace s t → t.popped = s.popped →
      t.others = s.others → Effect isValidUdpMessage s t a
  | popEvent : t = s.popEvent → Effect isValidUdpMessage s t .popEvent
  | startContext : s.running = false → t.server = s.server.runContext → t.pos = .prepare →
      t.running = true → t.fresh = s.fresh → t.popped = s.popped → t.others = s.others →
      Effect isValidUdpMessage s t .startContext
  | stopContext : t.server = s.server → t.pos = .stopped → t.running = false →
      t.fresh = s.fresh → t.popped = s.popped → t.others = s.others →
      Effect isValidUdpMessage s t .stopContext
  | waitFails {e} : s.pos = .prepare → t.server = s.server.prepareWrite → t.pos = .stopped →
      t.running = s.running → t.popped = s.popped → t.others = s.others →
      Effect isValidUdpMessage s t (.wait (.error e))
  | wait {polled} : s.pos = .prepare → t.server = s.server.prepareWrite →
      t.pos = .batch (Poll.events polled) → polled.map (·.1) = t.server.poll.fds →
      (∀ pair ∈ polled, pair.2.reports = true → pair.1.fd ∈ s.opened) →
      t.running = s.running → t.fresh = [] → t.popped = s.popped → t.others = s.others →
      Effect isValidUdpMessage s t (.wait (.ok polled))
  | turn {os} : s.unused os.accept = true →
      Turn isValidUdpMessage os s.toContextLoop t.toContextLoop → t.running = s.running →
      t.fresh = s.accepted os t.server → t.popped = s.popped → t.others = s.others →
      Effect isValidUdpMessage s t (.turn os)
  | environment {others} : t.server = s.server → SamePlace s t → t.popped = s.popped →
      t.others = others → Effect isValidUdpMessage s t (.environment others)

variable {isValidUdpMessage : List UInt8 → Bool} {s t : Context} {a : Label}

theorem not_mem_opened {fd : Fd} (h : s.unused (.ok fd) = true) : fd ∉ s.opened :=
  of_decide_eq_true h

theorem turn_of_step {os : OsAnswers} {s t : ContextLoop}
    (h : s.step isValidUdpMessage (.turn os) = some t) : Turn isValidUdpMessage os s t := by
  simp only [ContextLoop.step] at h
  split at h
  next events hpos =>
    cases events with
    | nil =>
      cases h
      exact .next (by simp [hpos]) (.inl rfl) rfl
    | cons event rest =>
      simp only [ContextLoop.turnBatch] at h
      split at h
      · cases h
      next hnew =>
        cases h
        exact .event event rest hpos rfl hnew rfl
  next hpos =>
    split at h
    · cases h
      exact .next (by simp [hpos]) (.inr (.inl rfl)) rfl
    next hqueue =>
      cases h
      obtain ⟨id, rest, hcons⟩ : ∃ id rest, s.server.disconnectQueue = id :: rest :=
        List.exists_cons_of_ne_nil (by simpa using hqueue)
      exact .disconnection id rest hpos rfl hcons rfl
  next hpos =>
    split at h
    · cases h
      exact .next (by simp [hpos]) (.inr (.inr rfl)) rfl
    next hqueue =>
      cases h
      obtain ⟨⟨id, data⟩, rest, hcons⟩ : ∃ message rest, s.server.sendTcpQueue = message :: rest :=
        List.exists_cons_of_ne_nil (by simpa using hqueue)
      exact .append id data rest hpos rfl hcons rfl
  · cases h

/-- Where nothing is made, nothing is left open. -/
theorem effect_setUp_self : Effect isValidUdpMessage s (s.setUp s.server) a := by
  refine .quiet (.refl _) ⟨rfl, rfl, rfl⟩ rfl ?_
  have hnone : (s.server.descriptors.filter fun fd => fd ∉ s.server.descriptors) = [] := by
    apply List.filter_eq_nil_iff.mpr
    intro fd hfd
    simpa using hfd
  rw [setUp, hnone, List.nil_append]

/-- A socket is made. -/
theorem effect_socket {o : Owner} {fd : Fd} {server : BaseServer}
    (ho : o = .udpSocket ∨ o = .tcpListener) (hrunning : s.running = false)
    (hunused : s.unused (.ok fd) = true)
    (hfd : ∀ o', server.fdOf o' = Function.update s.server.fdOf o (some fd) o')
    (hpoll : server.poll = s.server.poll)
    (hgiven : server.generatedUUIDs = s.server.generatedUUIDs)
    (hannounced : server.announcements = s.server.announcements) :
    Effect isValidUdpMessage s (s.setUp server) a :=
  .setUp hrunning (.socket o fd ho (not_mem_opened hunused) (funext hfd) hpoll hgiven hannounced)
    ⟨rfl, rfl, rfl⟩ rfl rfl

theorem effect_of_step (h : s.step isValidUdpMessage a = some t) :
    Effect isValidUdpMessage s t a := by
  cases a with
  | hostTcp bind =>
    simp only [step] at h
    split at h
    · cases h
    next hguard =>
      obtain ⟨hrunning, hunused⟩ : s.running = false ∧ s.unused bind = true := by
        simpa using hguard
      cases h
      cases bind with
      | error e => exact effect_setUp_self
      | ok fd =>
        refine effect_socket (.inr rfl) hrunning hunused ?_ rfl rfl rfl
        intro o
        cases o <;> rfl
  | hostUdp bind =>
    simp only [step] at h
    split at h
    · cases h
    next hguard =>
      obtain ⟨hrunning, hunused⟩ : s.running = false ∧ s.unused bind = true := by
        simpa using hguard
      cases h
      cases bind with
      | error e => exact effect_setUp_self
      | ok fd =>
        refine effect_socket (.inl rfl) hrunning hunused ?_ rfl rfl rfl
        intro o
        cases o <;> rfl
  | connectTcp connect newUuid =>
    simp only [step] at h
    split at h
    · cases h
    next hguard =>
      obtain ⟨hunused, hnew⟩ :
          s.unused connect = true ∧ newUuid ∉ s.server.generatedUUIDs := by
        simpa using hguard
      cases h
      rcases BaseServer.connectTcp_cases s.running s.server connect newUuid with
        hsame | ⟨hrunning, hnone, fd, rfl, hconnect⟩
      · rw [hsame]
        exact effect_setUp_self
      · rw [hconnect]
        exact .setUp hrunning (.connection newUuid fd hnone (not_mem_opened hunused) hnew
          (BaseServer.fdOf_connected hnone) rfl rfl (BaseServer.announcements_push (by decide) _ _))
          ⟨rfl, rfl, rfl⟩ rfl rfl
  | connectUdp any localAddr addr =>
    simp only [step] at h
    split at h
    · cases h
    next hguard =>
      have hunused : s.unused any = true := by simpa using hguard
      cases h
      unfold BaseServer.connectUdp
      split
      · exact effect_setUp_self
      next hrunning =>
      split
      · exact effect_setUp_self
      next =>
      cases any with
      | error e => exact effect_setUp_self
      | ok fd =>
        have hrunning : s.running = false := by simpa using hrunning
        cases localAddr with
        | error e =>
          refine effect_socket (.inl rfl) hrunning hunused ?_ rfl rfl rfl
          intro o
          cases o <;> rfl
        | ok own =>
          refine effect_socket (.inl rfl) hrunning hunused ?_ rfl rfl rfl
          intro o
          cases o <;> rfl
  | startContext =>
    simp only [step] at h
    split at h
    · cases h
    next hrunning =>
      cases h
      exact .startContext (by simpa using hrunning) rfl rfl rfl rfl rfl rfl
  | stopContext =>
    simp only [step] at h
    split at h
    · cases h
      exact .stopContext rfl rfl rfl rfl rfl rfl
    · cases h
  | sendTcp id data =>
    cases h
    exact .quiet (BaseServer.keeps_of_eq rfl rfl rfl rfl rfl rfl rfl) ⟨rfl, rfl, rfl⟩ rfl rfl
  | sendUdp addr data =>
    cases h
    exact .quiet (BaseServer.keeps_of_eq rfl rfl rfl rfl rfl rfl rfl) ⟨rfl, rfl, rfl⟩ rfl rfl
  | askDisconnect id =>
    cases h
    exact .quiet (BaseServer.keeps_of_eq rfl rfl rfl rfl rfl rfl rfl) ⟨rfl, rfl, rfl⟩ rfl rfl
  | popEvent =>
    cases h
    exact .popEvent rfl
  | useReader kind id reader =>
    cases h
    exact .quiet (BaseServer.keeps_setReader s.server kind id reader) ⟨rfl, rfl, rfl⟩ rfl rfl
  | wait polled =>
    simp only [step] at h
    split at h
    next hpolls =>
      obtain ⟨loop, hloop, ht⟩ := Option.map_eq_some_iff.mp h
      cases ht
      simp only [ContextLoop.step] at hloop
      split at hloop
      next hpos =>
        cases polled with
        | error e =>
          cases hloop
          exact .waitFails hpos rfl rfl rfl rfl rfl
        | ok polled =>
          simp only [Except.map] at hloop
          split at hloop
          · cases hloop
            simp only [polls, Bool.and_eq_true, decide_eq_true_eq, List.all_eq_true] at hpolls
            refine .wait hpos rfl rfl hpolls.1 ?_ rfl rfl rfl rfl
            intro pair hpair hreports
            have hopen := (hpolls.2 pair hpair).2
            simpa [hreports] using hopen
          · cases hloop
      · cases hloop
    · cases h
  | turn os =>
    simp only [step] at h
    split at h
    next hunused =>
      obtain ⟨loop, hloop, ht⟩ := Option.map_eq_some_iff.mp h
      cases ht
      exact .turn hunused (turn_of_step hloop) rfl rfl rfl rfl
    · cases h
  | environment others =>
    simp only [step] at h
    split at h
    · cases h
      exact .environment rfl ⟨rfl, rfl, rfl⟩ rfl rfl
    · cases h

/-! ## Every run -/

/-- What was announced so far: the connections made and torn down. -/
def announced (s : Context) : List (TCPEvent × Uuid) :=
  (s.popped ++ s.server.tcpEvents).filter fun event => event.1 ≠ .tcpRead

/-- Popping an event announces nothing new. -/
theorem announced_popEvent (s : Context) : s.popEvent.announced = s.announced := by
  unfold announced popEvent
  cases s.server.tcpEvents with
  | nil => simp
  | cons event rest => simp

theorem announced_eq (s : Context) :
    s.announced = s.popped.filter (fun event => event.1 ≠ .tcpRead) ++ s.server.announcements := by
  rw [announced, List.filter_append]
  rfl

/-- The tables are sound, and the loop is nowhere while the context does not run. -/
structure Inv (s : Context) : Prop where
  sound : s.server.Sound
  halted : s.running = false → s.pos = .stopped

/-- Where the loop is somewhere, the context runs. -/
theorem Inv.running_of_pos (hs : Inv s) (hpos : s.pos ≠ .stopped) : s.running = true := by
  cases hrunning : s.running with
  | true => rfl
  | false => exact absurd (hs.halted hrunning) hpos

theorem inv_of_starts (h : Starts s) : Inv s := by
  obtain ⟨hserver, hpos, -⟩ := h
  have hnone : ∀ o, s.server.fdOf o = none := by
    intro o
    rw [hserver]
    cases o with
    | udpSocket => rfl
    | tcpListener => rfl
    | connection kind id => cases kind <;> rfl
  refine ⟨⟨?_, ?_, ?_⟩, fun _ => hpos⟩
  · intro o o' fd h
    rw [hnone] at h
    cases h
  · intro kind id fd h
    rw [hnone] at h
    cases h
  · intro kind kind' id fd fd' h
    rw [hnone] at h
    cases h

theorem not_mem_descriptors {fd : Fd} (h : s.unused (.ok fd) = true) :
    fd ∉ s.server.descriptors := fun hfd =>
  not_mem_opened h (List.mem_append_left _ hfd)

theorem unused_not_mem {os : OsAnswers} (h : s.unused os.accept = true) :
    ∀ fd, os.accept = .ok fd → fd ∉ s.server.descriptors := by
  intro fd hok
  rw [hok] at h
  exact not_mem_descriptors h

/-- The loop is at an event of the listener, and the id drawn is a new one. -/
def AtListener (s : Context) (os : OsAnswers) : Prop :=
  os.newUuid ∉ s.server.generatedUUIDs ∧
    ∃ event rest, s.pos = .batch (event :: rest) ∧ s.server.Accepting event

/-- What one turn of the loop does to the tables. -/
theorem change_of_turn {os : OsAnswers} (hs : s.server.Sound)
    (h : Turn isValidUdpMessage os s.toContextLoop t.toContextLoop) :
    BaseServer.Change os (s.AtListener os) s.server t.server := by
  cases h with
  | event event rest hpos hpos' hnew ht =>
    rw [ht]
    refine (BaseServer.change_handleEvent isValidUdpMessage event (hs.not_mem hnew)).mono ?_
    intro hready
    exact ⟨hnew, event, rest, hpos, hready⟩
  | disconnection id rest hpos hpos' hqueue ht =>
    rw [ht]
    exact BaseServer.change_handleDisconnection os _ s.server
  | append id data rest hpos hpos' hqueue ht =>
    rw [ht]
    exact .keeps (BaseServer.keeps_appendQueued s.server)
  | next hpos hpos' ht =>
    rw [ht]
    exact .keeps (.refl _)

theorem sameTables_prepareWrite (s : BaseServer) : BaseServer.SameTables s s.prepareWrite := by
  obtain ⟨poll, heq, -⟩ := BaseServer.prepareWrite_induction (P := fun _ => True)
    (fun _ _ _ _ => trivial) (fun _ _ _ _ => trivial) (trivial : True) (s := s)
  rw [heq]
  exact BaseServer.sameTables_poll s poll

theorem fdOf_popEvent (s : Context) : s.popEvent.server.fdOf = s.server.fdOf := by
  funext o
  cases o with
  | udpSocket => rfl
  | tcpListener => rfl
  | connection kind id => cases kind <;> rfl

theorem sound_of_opens {server : BaseServer} (hs : s.server.Sound) (h : Opens s server) :
    server.Sound := by
  have hunused : ∀ fd, fd ∉ s.opened → fd ∉ s.server.descriptors := by
    intro fd hfd hmem
    exact hfd (List.mem_append_left _ hmem)
  cases h with
  | socket o fd ho hfd ht hpoll hgiven =>
    refine hs.attach (hunused fd hfd) ht ?_ (by rw [hgiven]; exact List.Subset.refl _)
    rintro kind id rfl
    rcases ho with ho | ho <;> cases ho
  | connection id fd hnone hfd hnew ht hpoll hgiven =>
    refine hs.attach (hunused fd hfd) ht ?_ (by rw [hgiven]; exact List.subset_cons_self _ _)
    intro kind id heq
    cases heq
    exact ⟨hnew, hgiven ▸ List.mem_cons_self⟩

theorem Turn.pos_ne {os : OsAnswers} {s t : ContextLoop} (h : Turn isValidUdpMessage os s t) :
    s.pos ≠ .stopped := by
  intro hpos
  cases h with
  | event event rest h => rw [hpos] at h; cases h
  | disconnection id rest h => rw [hpos] at h; cases h
  | append id data rest h => rw [hpos] at h; cases h
  | next h => exact h hpos

/-- A turn that leaves events of a batch served the one before them. -/
theorem Turn.served {os : OsAnswers} {s t : ContextLoop} {rest : List PollEvent}
    (h : Turn isValidUdpMessage os s t) (hpos : t.pos = .batch rest) :
    ∃ event, s.pos = .batch (event :: rest) ∧ os.newUuid ∉ s.server.generatedUUIDs ∧
      t.server = s.server.handleEvent isValidUdpMessage event os := by
  cases h with
  | event event rest hbatch hbatch' hnew ht =>
    rw [hbatch'] at hpos
    cases hpos
    exact ⟨event, hbatch, hnew, ht⟩
  | disconnection id rest hplace hsame =>
    rw [hsame, hplace] at hpos
    cases hpos
  | append id data rest hplace hsame =>
    rw [hsame, hplace] at hpos
    cases hpos
  | next hplace hnext =>
    rw [hpos] at hnext
    simp at hnext

theorem Inv.step (hs : Inv s) (h : (machine isValidUdpMessage).step s a = some t) : Inv t := by
  cases effect_of_step h with
  | setUp hrunning hopens hplace =>
    refine ⟨sound_of_opens hs.sound hopens, ?_⟩
    rw [hplace.pos, hplace.running]
    exact hs.halted
  | quiet hkeeps hplace =>
    refine ⟨hs.sound.same hkeeps.toSameTables, ?_⟩
    rw [hplace.pos, hplace.running]
    exact hs.halted
  | popEvent ht =>
    subst ht
    have hfdOf := fdOf_popEvent s
    refine ⟨⟨hfdOf ▸ hs.sound.distinct, ?_, hfdOf ▸ hs.sound.oneKind⟩, hs.halted⟩
    rw [hfdOf]
    exact hs.sound.given
  | startContext hrunning ht hpos hrunning' =>
    refine ⟨?_, ?_⟩
    · rw [ht]
      exact hs.sound.same (BaseServer.sameTables_poll s.server _)
    · intro hfalse
      rw [hrunning'] at hfalse
      cases hfalse
  | stopContext ht hpos hrunning' => exact ⟨ht ▸ hs.sound, fun _ => hpos⟩
  | waitFails hpos ht hpos' hrunning' =>
    exact ⟨ht ▸ hs.sound.same (sameTables_prepareWrite s.server), fun _ => hpos'⟩
  | wait hpos ht hpos' hpolled hopen hrunning' =>
    refine ⟨ht ▸ hs.sound.same (sameTables_prepareWrite s.server), ?_⟩
    intro hfalse
    rw [hrunning', hs.running_of_pos (by simp [hpos])] at hfalse
    cases hfalse
  | turn hunused hturn hrunning' =>
    refine ⟨hs.sound.change (fun hready => hready.1) (unused_not_mem hunused)
      (change_of_turn hs.sound hturn), ?_⟩
    intro hfalse
    rw [hrunning', hs.running_of_pos hturn.pos_ne] at hfalse
    cases hfalse
  | environment ht hplace =>
    refine ⟨ht ▸ hs.sound, ?_⟩
    rw [hplace.pos, hplace.running]
    exact hs.halted

theorem inv_of_reach (h : (machine isValidUdpMessage).Reach s) : Inv s :=
  Machine.Reach.invariant (fun _ => inv_of_starts) (fun _ _ _ hs hstep => hs.step hstep) h

/-! ## The start of a run -/

/-- A server that was just made, in a process without other descriptors. -/
def made : Context where
  server := BaseServer.new
  pos := .stopped
  sendCalls := []
  running := false
  others := []
  fresh := []
  popped := []

theorem starts_made : Starts made := ⟨rfl, rfl, rfl, rfl, rfl, rfl⟩

/-- The OS reports that there is something to read. -/
def readable : Poll.Revents := ⟨true, false, false⟩

/-- The answers of the OS where a stream is accepted on descriptor 7 as connection 1. -/
def acceptAnswer (setNonblocking : Except ErrorCode Unit) : OsAnswers :=
  { BaseServer.readAnswer (.ok []) with
    accept := .ok 7
    setNonblocking := setNonblocking
    newUuid := 1 }

/-- The server hosts on descriptor 3, and its first poll reports a stream to accept. -/
def hostLabels : List Label :=
  [.hostTcp (.ok 3), .startContext, .wait (.ok [(⟨3, true, false⟩, readable)])]

end Context

end ProjectE.Net
