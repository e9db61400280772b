import ProjectE.Net.PollTable
import ProjectE.Net.Registered

/-!
# What the loop waits for

`prepare_write` asks for the write events of a connection if its writer holds bytes, and of the UDP
socket if a datagram is queued, and drops them otherwise. It edits the poll table one descriptor
after the other; as no two owners share a descriptor, no edit undoes another.

So what the loop waits for is told by the tables (`waits_as_wanted`): read events of every
descriptor the server has, write events of those with something to write, and nothing else. The loop
is not woken to write nothing, and does not sleep on what it could write. The conditions on the run
are those of `Registered`.
-/

namespace ProjectE.Net

open Verif

namespace InterestMap

variable {m : InterestMap} {ops : List PollOp} {op : PollOp} {fd : Fd}

theorem apply_of_ne (h : fd ≠ op.fd) : m.apply op fd = m fd := by
  cases op with
  | add => exact Function.update_of_ne h _ _
  | addWrite => exact Function.update_of_ne h _ _
  | remove => exact Function.update_of_ne h _ _
  | removeWrite => exact Function.update_of_ne h _ _

/-- What an operation makes of its descriptor depends on nothing else. -/
theorem apply_congr {m' : InterestMap} (h : m op.fd = m' op.fd) :
    m.apply op op.fd = m'.apply op op.fd := by
  cases op with
  | add fd =>
    change m fd = m' fd at h
    simp only [apply, insert, PollOp.fd, Function.update_self, h]
  | addWrite fd =>
    change m fd = m' fd at h
    simp only [apply, insert, PollOp.fd, Function.update_self, h]
  | remove fd => simp only [apply, delete, PollOp.fd, Function.update_self]
  | removeWrite fd =>
    change m fd = m' fd at h
    simp only [apply, deleteInterest, PollOp.fd, Function.update_self, h]

theorem foldl_apply_of_not_mem (h : fd ∉ ops.map PollOp.fd) : ops.foldl apply m fd = m fd := by
  induction ops generalizing m with
  | nil => rfl
  | cons op ops ih =>
    obtain ⟨hne, hrest⟩ := List.ne_and_not_mem_of_not_mem_cons h
    rw [List.foldl_cons, ih hrest, apply_of_ne hne]

/-- Operations on different descriptors do not disturb each other. -/
theorem foldl_apply_of_mem (hops : (ops.map PollOp.fd).Nodup) (h : op ∈ ops) :
    ops.foldl apply m op.fd = m.apply op op.fd := by
  induction ops generalizing m with
  | nil => cases h
  | cons first ops ih =>
    obtain ⟨hfresh, hops⟩ := List.nodup_cons.mp hops
    rcases List.mem_cons.mp h with rfl | h
    · exact foldl_apply_of_not_mem hfresh
    · rw [List.foldl_cons, ih hops h]
      refine apply_congr (apply_of_ne ?_)
      rintro heq
      exact hfresh (heq ▸ List.mem_map_of_mem h)

end InterestMap

namespace BaseServer

variable {s t : BaseServer} {fd : Fd} {o : Owner}

/-- The descriptors that are written to, each with whether there is something to write. -/
def writers (s : BaseServer) : List (Fd × Bool) :=
  (s.tcpConnection.map fun pair => (pair.2.stream.fd, !pair.2.writer.isEmpty)).toList ++
    s.tcpConnections.entries.map (fun pair => (pair.2.stream.fd, !pair.2.writer.isEmpty)) ++
    (s.udpSocket.map fun fd => (fd, !s.sendUdpQueue.isEmpty)).toList

/-- The call that is made for one of them. -/
def ask (writer : Fd × Bool) : PollOp :=
  if writer.2 then .addWrite writer.1 else .removeWrite writer.1

theorem fd_ask (writer : Fd × Bool) : (ask writer).fd = writer.1 := by
  unfold ask
  split <;> rfl

/-- What the loop should wait for. -/
def wanted (s : BaseServer) : InterestMap := fun fd =>
  if fd ∈ s.descriptors then
    some (if (fd, true) ∈ s.writers then {.read, .write} else {.read})
  else none

theorem pollWriter_eq (poll : Poll) (connection : TcpConnection) : pollWriter poll connection =
    poll.apply (ask (connection.stream.fd, !connection.writer.isEmpty)) := by
  unfold pollWriter ask
  cases connection.writer.isEmpty with
  | true => rfl
  | false => rfl

theorem handleTcpConnectionWrite_eq (s : BaseServer) : s.handleTcpConnectionWrite = { s with
    poll := s.tcpConnection.elim s.poll fun pair =>
      s.poll.apply (ask (pair.2.stream.fd, !pair.2.writer.isEmpty)) } := by
  simp only [handleTcpConnectionWrite, pollWriter_eq]
  obtain ⟨_, _, connection, _, _, _, _, _, _, _, _, _, _⟩ := s
  cases connection with
  | none => rfl
  | some pair => rfl

theorem handleUdpSocketWrite_eq (s : BaseServer) : s.handleUdpSocketWrite = { s with
    poll := s.udpSocket.elim s.poll fun fd =>
      s.poll.apply (ask (fd, !s.sendUdpQueue.isEmpty)) } := by
  obtain ⟨socket, _, _, _, _, _, _, _, _, _, queue, _, _⟩ := s
  cases socket with
  | none => rfl
  | some fd =>
    cases queue with
    | nil => rfl
    | cons message queue => rfl

/-- `prepare_write` makes one call for each descriptor that is written to. -/
theorem prepareWrite_eq (s : BaseServer) :
    s.prepareWrite = { s with poll := (s.writers.map ask).foldl Poll.apply s.poll } := by
  rw [prepareWrite, handleUdpSocketWrite_eq, handleTcpConnectionsWrite, handleTcpConnectionWrite_eq]
  simp only [writers, List.map_append, List.foldl_append, List.map_map, List.foldl_map,
    pollWriter_eq, Option.foldl_toList, Option.toList_map, Function.comp_apply]

/-- Nobody writes to a descriptor that is not the server's own, and the listener is not written
to. -/
theorem mem_writers {writer : Fd × Bool} (h : writer ∈ s.writers) :
    ∃ o, o ≠ .tcpListener ∧ s.fdOf o = some writer.1 := by
  simp only [writers, List.mem_append, Option.mem_toList, Option.map_eq_some_iff,
    List.mem_map] at h
  rcases h with (⟨pair, hpair, rfl⟩ | ⟨pair, hpair, rfl⟩) | ⟨fd, hfd, rfl⟩
  · exact ⟨.connection .outgoing pair.1, Owner.noConfusion,
      fdOf_outgoing_iff.mpr ⟨pair.2, hpair, rfl⟩⟩
  · exact ⟨.connection .accepted pair.1, Owner.noConfusion,
      fdOf_accepted_iff.mpr ⟨pair.2, AList.mem_lookup_iff.mpr hpair, rfl⟩⟩
  · exact ⟨.udpSocket, Owner.noConfusion, hfd⟩

/-- Every other descriptor of the server is written to. -/
theorem exists_writer (ho : o ≠ .tcpListener) (h : s.fdOf o = some fd) :
    ∃ pending, (fd, pending) ∈ s.writers := by
  simp only [writers, List.mem_append, Option.mem_toList, Option.map_eq_some_iff, List.mem_map]
  cases o with
  | udpSocket => exact ⟨_, .inr ⟨fd, h, rfl⟩⟩
  | tcpListener => exact absurd rfl ho
  | connection kind id =>
    cases kind with
    | accepted =>
      obtain ⟨connection, hlookup, rfl⟩ := fdOf_accepted_iff.mp h
      exact ⟨_, .inl (.inr ⟨⟨id, connection⟩, AList.mem_lookup_iff.mp hlookup, rfl⟩)⟩
    | outgoing =>
      obtain ⟨connection, hout, rfl⟩ := fdOf_outgoing_iff.mp h
      exact ⟨_, .inl (.inl ⟨(id, connection), hout, rfl⟩)⟩

/-- No descriptor is written to twice. -/
theorem nodup_writers (h : s.Registered) : (s.writers.map Prod.fst).Nodup := by
  have hin : (s.tcpConnections.entries.map (·.2.stream.fd)).Nodup := by
    refine List.pairwise_map.mpr (s.tcpConnections.nodupKeys.pairwise_ne.imp_of_mem ?_)
    intro pair pair' hpair hpair' hne heq
    have howner := h.distinct (.connection .accepted pair.1) (.connection .accepted pair'.1) _
      (fdOf_accepted_iff.mpr ⟨pair.2, AList.mem_lookup_iff.mpr hpair, heq⟩)
      (fdOf_accepted_iff.mpr ⟨pair'.2, AList.mem_lookup_iff.mpr hpair', rfl⟩)
    injection howner with _ hid
    exact hne hid
  have hout : ∀ fd ∈ s.tcpConnection.map (·.2.stream.fd),
      fd ∉ s.tcpConnections.entries.map (·.2.stream.fd) := by
    intro fd hfd hmem
    obtain ⟨⟨id, connection⟩, hsome, rfl⟩ := Option.map_eq_some_iff.mp hfd
    obtain ⟨pair, hpair, heq⟩ := List.mem_map.mp hmem
    cases h.distinct (.connection .outgoing id) (.connection .accepted pair.1) _
      (fdOf_outgoing_iff.mpr ⟨connection, hsome, rfl⟩)
      (fdOf_accepted_iff.mpr ⟨pair.2, AList.mem_lookup_iff.mpr hpair, heq⟩)
  have hudp : ∀ fd ∈ s.udpSocket, fd ∉ (s.tcpConnection.map (·.2.stream.fd)).toList ++
      s.tcpConnections.entries.map (·.2.stream.fd) := by
    intro fd hfd hmem
    rcases List.mem_append.mp hmem with hmem | hmem
    · obtain ⟨⟨id, connection⟩, hsome, rfl⟩ :=
        Option.map_eq_some_iff.mp (Option.mem_toList.mp hmem)
      cases h.distinct .udpSocket (.connection .outgoing id) _ hfd
        (fdOf_outgoing_iff.mpr ⟨connection, hsome, rfl⟩)
    · obtain ⟨pair, hpair, rfl⟩ := List.mem_map.mp hmem
      cases h.distinct .udpSocket (.connection .accepted pair.1) _ hfd
        (fdOf_accepted_iff.mpr ⟨pair.2, AList.mem_lookup_iff.mpr hpair, rfl⟩)
  have hmap : s.writers.map Prod.fst = (s.tcpConnection.map (·.2.stream.fd)).toList ++
      s.tcpConnections.entries.map (·.2.stream.fd) ++ s.udpSocket.toList := by
    simp only [writers, List.map_append, List.map_map, ← Option.toList_map, Option.map_map,
      Function.comp_def, Option.map_id']
  rw [hmap]
  refine Poll.nodup_append_toList (List.nodup_append'.mpr ⟨?_, hin, ?_⟩) _ hudp
  · cases s.tcpConnection with
    | none => exact List.nodup_nil
    | some pair => exact List.nodup_singleton _
  · intro fd hfd
    exact hout fd (Option.mem_toList.mp hfd)

/-- The listener is only read from. -/
def Listens (s : BaseServer) : Prop :=
  ∀ fd, s.tcpListener = some fd → s.poll.interests fd = some {.read}

theorem Listens.congr (h : Listens s) (ht : t.fdOf = s.fdOf) (hpoll : t.poll = s.poll) :
    Listens t := by
  intro fd hfd
  have hlistener : t.tcpListener = s.tcpListener := congrFun ht .tcpListener
  rw [hpoll]
  exact h fd (hlistener ▸ hfd)

/-- A call about another owner's descriptor is no concern of the listener. -/
theorem Listens.apply (op : PollOp) (h : Listens s) (hnodup : s.poll.descriptors.Nodup)
    (hlistener : t.tcpListener = s.tcpListener) (hpoll : t.poll = s.poll.apply op)
    (hop : s.tcpListener ≠ some op.fd) : Listens t := by
  intro fd hfd
  rw [hlistener] at hfd
  rw [hpoll, Poll.interests_apply hnodup, InterestMap.apply_of_ne]
  · exact h fd hfd
  · rintro rfl
    exact hop hfd

/-- The entries are what the map says. -/
theorem Registered.interests_of_mem {pfd : Poll.Entry} (h : s.Registered)
    (hpfd : pfd ∈ s.poll.fds) : s.poll.interests pfd.fd = some pfd.asked := by
  cases hentry : Poll.entry s.poll.fds pfd.fd with
  | none => exact absurd (decide_eq_true rfl) (List.find?_eq_none.mp hentry pfd hpfd)
  | some first =>
    have hfd : first.fd = pfd.fd := by simpa using List.find?_some hentry
    have heq := List.inj_on_of_nodup_map h.nodup (List.mem_of_find?_eq_some hentry) hpfd hfd
    rw [Poll.interests, hentry, heq, Option.map_some]

theorem Registered.interests_eq_none (h : s.Registered) (hfd : fd ∉ s.descriptors) :
    s.poll.interests fd = none := by
  have hgone : fd ∉ s.poll.fds.map (·.fd) := fun hmem => hfd ((h.mem_iff fd).mp hmem)
  rw [Poll.interests, Poll.entry_eq_none_of_not_mem hgone, Option.map_none]

theorem Registered.not_writer (h : s.Registered) (hfd : s.tcpListener = some fd) :
    fd ∉ s.writers.map Prod.fst := by
  intro hmem
  obtain ⟨writer, hwriter, rfl⟩ := List.mem_map.mp hmem
  obtain ⟨o, hne, ho⟩ := mem_writers hwriter
  exact hne (h.distinct _ .tcpListener _ ho hfd)

/-- What the call for a descriptor makes of what was asked of it. -/
theorem apply_ask {m : InterestMap} {pfd : Poll.Entry} {pending : Bool}
    (hpollin : pfd.pollin = true) (hm : m fd = some pfd.asked) :
    m.apply (ask (fd, pending)) fd = some (if pending then {.read, .write} else {.read}) := by
  cases pending with
  | true =>
    have hboth : insert .write pfd.asked = {.read, .write} := by
      ext interest
      cases interest <;> simp [Poll.mem_asked, hpollin]
    rw [ask, if_pos rfl, if_pos rfl, InterestMap.apply, InterestMap.insert, Function.update_self,
      hm, Option.getD_some, hboth]
  | false =>
    rw [ask, if_neg Bool.false_ne_true, if_neg Bool.false_ne_true, InterestMap.apply,
      InterestMap.deleteInterest, Function.update_self, hm, Option.bind_some, Poll.asked_erase,
      if_pos hpollin, if_neg (Finset.singleton_ne_empty _)]

theorem map_fd_ask (s : BaseServer) :
    (s.writers.map ask).map PollOp.fd = s.writers.map Prod.fst := by
  rw [List.map_map]
  exact List.map_congr_left fun writer _ => fd_ask writer

/-- The calls of `prepare_write`, on the map. -/
theorem Registered.interests_fold (h : s.Registered) : s.prepareWrite.poll.interests =
    (s.writers.map ask).foldl InterestMap.apply s.poll.interests := by
  rw [prepareWrite_eq]
  exact (foldl_refines (I := fun poll : Poll => poll.descriptors.Nodup)
    (fun _ op hnodup => Poll.nodup_apply hnodup op)
    (fun _ op hnodup => Poll.interests_apply hnodup op) _ h.nodup).2

/-- `prepare_write` leaves alone what is not written to. -/
theorem Registered.interests_of_not_writer (h : s.Registered) (hfd : fd ∉ s.writers.map Prod.fst) :
    s.prepareWrite.poll.interests fd = s.poll.interests fd := by
  rw [h.interests_fold, InterestMap.foldl_apply_of_not_mem]
  rw [map_fd_ask]
  exact hfd

/-- What `prepare_write` asks of what is written to, whatever was asked before. -/
theorem Registered.interests_of_writer {pending : Bool} (h : s.Registered)
    (hmem : (fd, pending) ∈ s.writers) :
    s.prepareWrite.poll.interests fd = some (if pending then {.read, .write} else {.read}) := by
  obtain ⟨o, -, ho⟩ := mem_writers hmem
  obtain ⟨pfd, hpfd, hself⟩ := List.mem_map.mp ((h.mem_iff fd).mpr (mem_descriptors.mpr ⟨o, ho⟩))
  have hnodup : ((s.writers.map ask).map PollOp.fd).Nodup := by
    rw [map_fd_ask]
    exact nodup_writers h
  have hask := InterestMap.foldl_apply_of_mem (m := s.poll.interests) hnodup
    (List.mem_map_of_mem (f := ask) hmem)
  rw [← h.interests_fold, fd_ask] at hask
  rw [hask, apply_ask (h.reads pfd hpfd) (hself ▸ h.interests_of_mem hpfd)]

/-- The list of writers says one thing of a descriptor. -/
theorem Registered.mem_writers_iff {pending : Bool} (h : s.Registered)
    (hmem : (fd, pending) ∈ s.writers) : (fd, true) ∈ s.writers ↔ pending = true := by
  constructor
  · intro htrue
    have heq := List.inj_on_of_nodup_map (nodup_writers h) htrue hmem rfl
    exact (congrArg Prod.snd heq).symm
  · rintro rfl
    exact hmem

theorem Registered.listens_prepareWrite (h : s.Registered) (hlistens : s.Listens) :
    s.prepareWrite.Listens := by
  intro fd hfd
  have hlistener : s.tcpListener = some fd := by
    rw [prepareWrite_eq] at hfd
    exact hfd
  rw [h.interests_of_not_writer (h.not_writer hlistener)]
  exact hlistens fd hlistener

/-- `prepare_write` makes the table what is wanted, whatever write interests it had. -/
theorem interests_prepareWrite (h : s.Registered) (hlistens : s.Listens) :
    s.prepareWrite.poll.interests = s.wanted := by
  funext fd
  rw [wanted]
  by_cases hfd : fd ∈ s.descriptors
  · rw [if_pos hfd]
    obtain ⟨o, ho⟩ := mem_descriptors.mp hfd
    by_cases hlistener : o = .tcpListener
    · subst hlistener
      have hnot := h.not_writer ho
      rw [h.interests_of_not_writer hnot, hlistens fd ho, if_neg]
      intro hmem
      exact hnot (List.mem_map_of_mem hmem)
    · obtain ⟨pending, hmem⟩ := exists_writer hlistener ho
      rw [h.interests_of_writer hmem]
      simp only [h.mem_writers_iff hmem]
  · have hnot : fd ∉ s.writers.map Prod.fst := by
      intro hmem
      obtain ⟨writer, hwriter, rfl⟩ := List.mem_map.mp hmem
      obtain ⟨o, -, ho⟩ := mem_writers hwriter
      exact hfd (mem_descriptors.mpr ⟨o, ho⟩)
    rw [if_neg hfd, h.interests_of_not_writer hnot, h.interests_eq_none hfd]

/-- At the start nothing is written to. -/
theorem Sound.listens_runContext (hs : Sound s) (hnone : s.tcpConnections = ∅) :
    s.runContext.Listens := by
  have hregistered := hs.registered_runContext hnone
  intro fd hfd
  obtain ⟨pfd, hpfd, rfl⟩ := List.mem_map.mp
    ((hregistered.mem_iff fd).mpr (mem_descriptors.mpr ⟨.tcpListener, hfd⟩))
  rw [hregistered.interests_of_mem hpfd]
  rw [hs.poll_runContext] at hpfd
  obtain ⟨fd, -, rfl⟩ := List.mem_map.mp hpfd
  rfl

end BaseServer

namespace Context

open BaseServer

variable {isValidUdpMessage : List UInt8 → Bool} {s t : Context} {a : Label}
  {polled : Except ErrorCode (List (Poll.Entry × Poll.Revents))}

/-- While the context runs, nothing is written to the listener. -/
def ListensInv (s : Context) : Prop :=
  s.running = true → s.server.Registered ∧ s.server.Listens

theorem ListensInv.step (hinv : Inv s) (hinv' : Inv t) (hs : ListensInv s)
    (hsets : SetsUp s a) (h : (machine isValidUdpMessage).step s a = some t) : ListensInv t := by
  have hregistered : RegisteredInv t :=
    RegisteredInv.step hinv hinv' (fun hrunning => (hs hrunning).1) hsets h
  intro hrunning
  refine ⟨hregistered hrunning, ?_⟩
  cases effect_of_step h with
  | setUp hhalted hopens hplace =>
    rw [hplace.running, hhalted] at hrunning
    cases hrunning
  | quiet hkeeps hplace =>
    exact (hs (hplace.running ▸ hrunning)).2.congr hkeeps.fdOf hkeeps.poll
  | popEvent ht =>
    subst ht
    exact (hs hrunning).2.congr (fdOf_popEvent s) rfl
  | startContext hhalted ht =>
    rw [ht]
    exact hinv.sound.listens_runContext hsets
  | stopContext ht hpos hhalted =>
    rw [hhalted] at hrunning
    cases hrunning
  | waitFails hpos ht hpos' hsame =>
    obtain ⟨hold, hlistens⟩ := hs (hsame ▸ hrunning)
    rw [ht]
    exact hold.listens_prepareWrite hlistens
  | wait hpos ht hpos' hpolled hopen hsame =>
    obtain ⟨hold, hlistens⟩ := hs (hsame ▸ hrunning)
    rw [ht]
    exact hold.listens_prepareWrite hlistens
  | @turn os hunused hturn hsame =>
    obtain ⟨hold, hlistens⟩ := hs (hsame ▸ hrunning)
    cases change_of_turn hinv.sound hturn with
    | keeps hkeeps => exact hlistens.congr hkeeps.fdOf hkeeps.poll
    | detaches kind id fd hfd ht hpoll =>
      have hlistener : t.server.tcpListener = s.server.tcpListener := congrFun ht .tcpListener
      refine hlistens.apply (.remove fd) hold.nodup hlistener hpoll ?_
      intro heq
      cases hold.distinct _ .tcpListener _ hfd heq
    | accepts fd hready hok ht hpoll =>
      have hlistener : t.server.tcpListener = s.server.tcpListener := congrFun ht .tcpListener
      refine hlistens.apply (.add fd) hold.nodup hlistener hpoll ?_
      intro heq
      exact unused_not_mem hunused fd hok (mem_descriptors.mpr ⟨.tcpListener, heq⟩)
    | acceptFails fd e hready hok herror =>
      rw [hsets fd hok] at herror
      cases herror
  | environment ht hplace =>
    rw [ht]
    exact (hs (hplace.running ▸ hrunning)).2

theorem listensInv_of_reach (h : (machine isValidUdpMessage).ReachUnder SetsUp s) :
    ListensInv s := by
  refine Machine.ReachUnder.induction (J := Inv) (fun _ => inv_of_reach) ?_ ?_ h
  · intro s ⟨_, _, _, hhalted, _⟩ hrunning
    rw [hhalted] at hrunning
    cases hrunning
  · intro s a t hs ht hinv hsets hstep
    exact hinv.step hs ht hsets hstep

/-- A wait prepares the poll table, and what the OS reports was asked for. -/
theorem wait_of_step (h : (machine isValidUdpMessage).step s (.wait polled) = some t) :
    s.pos = .prepare ∧ t.server = s.server.prepareWrite ∧ t.running = s.running ∧
    ∀ events, t.pos = .batch events → ∀ event ∈ events,
      ContextLoop.answers t.server.poll event = true := by
  change Context.step isValidUdpMessage s (.wait polled) = some t at h
  simp only [Context.step] at h
  split at h
  next =>
    obtain ⟨loop, hloop, rfl⟩ := Option.map_eq_some_iff.mp h
    simp only [ContextLoop.step] at hloop
    split at hloop
    next hpos =>
      cases polled with
      | error e =>
        cases hloop
        refine ⟨hpos, rfl, rfl, ?_⟩
        intro events hbatch
        cases hbatch
      | ok polled =>
        simp only [Except.map] at hloop
        split at hloop
        next hall =>
          cases hloop
          refine ⟨hpos, rfl, rfl, ?_⟩
          intro events hbatch event hevent
          cases hbatch
          exact List.all_eq_true.mp hall event hevent
        next => cases hloop
    next => cases hloop
  next => cases h

/-- **The loop waits for what is wanted**: whenever it waits, it asks to read of every descriptor of
the server and to write of exactly those with something to write, and is told to write of no
other. -/
theorem waits_as_wanted (polled : Except ErrorCode (List (Poll.Entry × Poll.Revents)))
    (h : (machine isValidUdpMessage).ReachUnder SetsUp s)
    (hwait : (machine isValidUdpMessage).step s (.wait polled) = some t) :
    t.server.poll.interests = s.server.wanted ∧
    ∀ events, t.pos = .batch events → ∀ event ∈ events, event.type = .write →
      (event.fd, true) ∈ s.server.writers := by
  obtain ⟨hpos, ht, hsame, hanswers⟩ := wait_of_step hwait
  have hrunning : s.running = true := (inv_of_reach h.any).running_of_pos (by simp [hpos])
  obtain ⟨hregistered, hlistens⟩ := listensInv_of_reach h hrunning
  have hinterests : t.server.poll.interests = s.server.wanted := by
    rw [ht]
    exact interests_prepareWrite hregistered hlistens
  refine ⟨hinterests, ?_⟩
  intro events hevents event hevent hwrite
  obtain ⟨pfd, hpfd, hfd⟩ := List.any_eq_true.mp (hanswers events hevents event hevent)
  rw [hwrite] at hfd
  obtain ⟨hfd, hpollout⟩ : pfd.fd = event.fd ∧ pfd.pollout = true := by simpa using hfd
  rw [ht] at hpfd
  have hasked := hregistered.prepareWrite.interests_of_mem hpfd
  rw [← ht, hinterests, wanted, hfd] at hasked
  have hmem : Interest.write ∈ pfd.asked := Poll.mem_asked.mpr (.inr ⟨rfl, hpollout⟩)
  split at hasked
  next =>
    split at hasked
    next htrue => exact htrue
    next =>
      rw [← Option.some.inj hasked] at hmem
      cases Finset.mem_singleton.mp hmem
  next => cases hasked

/-- A server with a stream on descriptor 7 is asked to send: at its next wait the write events of
the stream are asked for, and those of the listener on 3 are not. -/
theorem waits_as_wanted_sending : ∃ s : Context, s.server.writers = [(7, true)] ∧
    s.server.poll.interests = s.server.wanted ∧ s.server.wanted 3 = some {.read} ∧
    s.server.wanted 7 = some {.read, .write} := by
  have hmade : (machine fun _ => true).ReachUnder SetsUp made := .init starts_made
  have hhosted := hmade.step (a := Label.hostTcp (.ok 3)) trivial rfl
  have hstarted := hhosted.step (a := Label.startContext) rfl rfl
  have hpolled := hstarted.step (a := Label.wait (.ok [(⟨3, true, false⟩, readable)])) trivial rfl
  have haccepted := hpolled.step (a := Label.turn (acceptAnswer (.ok ()))) (fun _ _ => rfl) rfl
  have hbatch := haccepted.step (a := Label.turn (readAnswer (.ok []))) (fun _ _ => rfl) rfl
  have hsends := hbatch.step (a := Label.turn (readAnswer (.ok []))) (fun _ _ => rfl) rfl
  have hasked := hsends.step (a := Label.sendTcp 1 [5]) trivial rfl
  have hqueued := hasked.step (a := Label.turn (readAnswer (.ok []))) (fun _ _ => rfl) rfl
  have hprepare := hqueued.step (a := Label.turn (readAnswer (.ok []))) (fun _ _ => rfl) rfl
  exact ⟨_, rfl, (waits_as_wanted (.error 4) hprepare rfl).1, rfl, rfl⟩

end Context

end ProjectE.Net
