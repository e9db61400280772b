import ProjectE.Net.Context

/-!
# The poll table and the connection tables

While the context runs, the poll table has one entry, with read interest, for each descriptor the
server has, and no other entry (`registered_of_reach`). This holds at every place of the loop, under
two conditions on the run. Every accepted stream can be made nonblocking: where that fails the
handler closes the stream but leaves the entry it has just made, so a closed descriptor stays in the
table. And the context is started without accepted connections: `run_context` registers the two
sockets and the outgoing connection, not the connections of a run before.
-/

namespace ProjectE.Net

open Verif

namespace BaseServer

/-- The poll table lists the descriptors of the server, each once and for reading, and no two owners
share one. -/
structure Registered (s : BaseServer) : Prop where
  nodup : s.poll.descriptors.Nodup
  mem_iff : ∀ fd, fd ∈ s.poll.descriptors ↔ fd ∈ s.descriptors
  reads : ∀ pfd ∈ s.poll.fds, pfd.pollin = true
  distinct : ∀ o o' fd, s.fdOf o = some fd → s.fdOf o' = some fd → o = o'

variable {s t : BaseServer} {fd : Fd} {o : Owner}

theorem mem_descriptors_congr (h : t.fdOf = s.fdOf) : fd ∈ t.descriptors ↔ fd ∈ s.descriptors := by
  rw [mem_descriptors, mem_descriptors, h]

/-- Write interest does not matter. -/
theorem Registered.congr (h : Registered s) (ht : t.fdOf = s.fdOf)
    (hreads : t.poll.fds.map Poll.Entry.reads = s.poll.fds.map Poll.Entry.reads) :
    Registered t := by
  have hfds : t.poll.descriptors = s.poll.descriptors := Poll.fds_of_reads hreads
  refine ⟨hfds ▸ h.nodup, ?_, Poll.pollin_of_reads hreads h.reads, ht ▸ h.distinct⟩
  intro fd
  rw [hfds, mem_descriptors_congr ht]
  exact h.mem_iff fd

theorem Registered.keeps (h : Registered s) (hkeeps : Keeps s t) : Registered t :=
  h.congr hkeeps.fdOf (by rw [hkeeps.poll])

/-- A descriptor goes from the tables and from the poll table. -/
theorem Registered.detach (h : Registered s) (hfd : s.fdOf o = some fd)
    (ht : t.fdOf = Function.update s.fdOf o none) (hpoll : t.poll = s.poll.remove fd) :
    Registered t := by
  have hfds : t.poll.descriptors = s.poll.descriptors.filter fun fd' => fd' ≠ fd := by
    rw [hpoll, Poll.descriptors, Poll.descriptors, List.filter_map]
    rfl
  have howns : ∀ o' fd', t.fdOf o' = some fd' ↔ s.fdOf o' = some fd' ∧ fd' ≠ fd := by
    intro o' fd'
    rw [ht]
    by_cases heq : o' = o
    · subst heq
      rw [Function.update_self, hfd]
      simp [eq_comm]
    · rw [Function.update_of_ne heq]
      refine (and_iff_left_of_imp ?_).symm
      rintro hfd' rfl
      exact heq (h.distinct o' o fd' hfd' hfd)
  refine ⟨hfds ▸ h.nodup.filter _, ?_, ?_, ?_⟩
  · intro fd'
    rw [hfds, List.mem_filter, h.mem_iff, mem_descriptors, mem_descriptors]
    simp only [howns, exists_and_right, decide_eq_true_eq]
  · intro pfd hpfd
    rw [hpoll] at hpfd
    exact h.reads pfd (List.mem_of_mem_filter hpfd)
  · intro o₁ o₂ fd' h₁ h₂
    exact h.distinct o₁ o₂ fd' ((howns o₁ fd').mp h₁).1 ((howns o₂ fd').mp h₂).1

/-- A new descriptor comes into the tables and into the poll table. -/
theorem Registered.attach (h : Registered s) (hsound : Sound t) (hfd : fd ∉ s.descriptors)
    (hfree : s.fdOf o = none) (ht : t.fdOf = Function.update s.fdOf o (some fd))
    (hpoll : t.poll = s.poll.add fd) : Registered t := by
  have hnot : fd ∉ s.poll.descriptors := fun hmem => hfd ((h.mem_iff fd).mp hmem)
  have hdescriptors : t.poll.descriptors = s.poll.descriptors ++ [fd] := by
    rw [hpoll, Poll.descriptors_add_of_not_mem hnot]
  refine ⟨?_, ?_, ?_, hsound.distinct⟩
  · rw [hdescriptors, ← List.concat_eq_append]
    exact List.Nodup.concat hnot h.nodup
  · intro fd'
    rw [hdescriptors, List.mem_append, List.mem_singleton, h.mem_iff, mem_descriptors,
      mem_descriptors, ht]
    constructor
    · rintro (⟨o', ho'⟩ | rfl)
      · refine ⟨o', ?_⟩
        rw [Function.update_of_ne, ho']
        rintro rfl
        rw [hfree] at ho'
        cases ho'
      · exact ⟨o, Function.update_self ..⟩
    · rintro ⟨o', ho'⟩
      rcases update_eq_some ho' with ⟨-, heq⟩ | ⟨-, ho'⟩
      · cases heq
        exact .inr rfl
      · exact .inl ⟨o', ho'⟩
  · intro pfd hpfd
    rw [hpoll, Poll.fds_add_of_not_mem hnot] at hpfd
    rcases List.mem_append.mp hpfd with hpfd | hpfd
    · exact h.reads pfd hpfd
    · cases List.mem_singleton.mp hpfd
      rfl

/-- `prepare_write` touches nothing but write interest. -/
theorem Registered.prepareWrite (h : Registered s) : Registered s.prepareWrite := by
  let P : Poll → Prop := fun poll =>
    poll.fds.map Poll.Entry.reads = s.poll.fds.map Poll.Entry.reads
  have hadd : ∀ poll fd, fd ∈ s.descriptors → P poll → P (poll.addWrite fd) := by
    intro poll fd hfd hpoll
    have hmem : fd ∈ poll.descriptors := by
      rw [Poll.descriptors, Poll.fds_of_reads hpoll]
      exact (h.mem_iff fd).mpr hfd
    exact (Poll.reads_addWrite hmem).trans hpoll
  have hremove : ∀ poll fd, fd ∈ s.descriptors → P poll → P (poll.removeWrite fd) := by
    intro poll fd _ hpoll
    exact (Poll.reads_dropWrite (Poll.pollin_of_reads hpoll h.reads)).trans hpoll
  obtain ⟨poll, heq, hpoll⟩ := prepareWrite_induction hadd hremove rfl
  rw [heq]
  exact h.congr (sameTables_poll s poll).fdOf hpoll

/-- The table the loop starts with, where no connection was accepted. -/
theorem Sound.registered_runContext (hs : Sound s) (hnone : s.tcpConnections = ∅) :
    Registered s.runContext := by
  have hdescriptors : s.descriptors =
      s.sockets ++ (s.tcpConnection.map (·.2.stream.fd)).toList := by
    rw [descriptors, hnone]
    exact List.append_nil _
  have hpoll : s.runContext.poll = Poll.polling s.descriptors := by
    rw [hdescriptors]
    exact hs.poll_runContext
  have hfdOf : s.runContext.fdOf = s.fdOf := (sameTables_poll s _).fdOf
  refine ⟨?_, ?_, ?_, hfdOf ▸ hs.distinct⟩
  · rw [hpoll, Poll.descriptors_polling, hdescriptors]
    exact hs.nodup_front
  · intro fd
    rw [hpoll, Poll.descriptors_polling, mem_descriptors_congr hfdOf]
  · intro pfd hpfd
    rw [hpoll] at hpfd
    obtain ⟨fd, -, rfl⟩ := List.mem_map.mp hpfd
    rfl

end BaseServer

namespace Context

open BaseServer

variable {isValidUdpMessage : List UInt8 → Bool} {s t : Context} {a : Label}

/-- The condition on a step: a stream that is accepted can be made nonblocking, and the context is
started without accepted connections. -/
def SetsUp (s : Context) : Label → Prop
  | .turn os => ∀ fd, os.accept = .ok fd → os.setNonblocking = .ok ()
  | .startContext => s.server.tcpConnections = ∅
  | _ => True

/-- While the context runs, the poll table is as it should be. -/
def RegisteredInv (s : Context) : Prop := s.running = true → s.server.Registered

theorem RegisteredInv.step (hinv : Inv s) (hinv' : Inv t) (hs : RegisteredInv s)
    (hsets : SetsUp s a) (h : (machine isValidUdpMessage).step s a = some t) : RegisteredInv t := by
  intro hrunning
  cases effect_of_step h with
  | setUp hhalted hopens hplace =>
    rw [hplace.running, hhalted] at hrunning
    cases hrunning
  | quiet hkeeps hplace => exact (hs (hplace.running ▸ hrunning)).keeps hkeeps
  | popEvent ht =>
    subst ht
    exact (hs hrunning).congr (fdOf_popEvent s) rfl
  | startContext hhalted ht =>
    rw [ht]
    exact hinv.sound.registered_runContext hsets
  | stopContext ht hpos hhalted =>
    rw [hhalted] at hrunning
    cases hrunning
  | waitFails hpos ht hpos' hsame =>
    rw [ht]
    exact (hs (hsame ▸ hrunning)).prepareWrite
  | wait hpos ht hpos' hpolled hopen hsame =>
    rw [ht]
    exact (hs (hsame ▸ hrunning)).prepareWrite
  | @turn os hunused hturn hsame =>
    have hold := hs (hsame ▸ hrunning)
    cases change_of_turn hinv.sound hturn with
    | keeps hkeeps => exact hold.keeps hkeeps
    | detaches kind id fd hfd ht hpoll => exact hold.detach hfd ht hpoll
    | accepts fd hready hok ht hpoll =>
      refine hold.attach hinv'.sound (unused_not_mem hunused fd hok) ?_ ht hpoll
      cases hfree : s.server.fdOf (.connection .accepted os.newUuid) with
      | none => rfl
      | some fd' => exact absurd (hinv.sound.given _ _ _ hfree) hready.1
    | acceptFails fd e hready hok herror =>
      rw [hsets fd hok] at herror
      cases herror
  | environment ht hplace =>
    rw [ht]
    exact hs (hplace.running ▸ hrunning)

/-- **The poll table and the connection tables agree**, at every place of the loop and after a
failed poll too, in every run in which accepted streams can be made nonblocking and the context is
started without accepted connections. -/
theorem registered_of_reach (h : (machine isValidUdpMessage).ReachUnder SetsUp s)
    (hrunning : s.running = true) : s.server.Registered := by
  have hinv : RegisteredInv s := by
    refine Machine.ReachUnder.induction (J := Inv) (fun _ => inv_of_reach) ?_ ?_ h
    · intro s ⟨_, _, _, hhalted, _⟩ hrunning
      rw [hhalted] at hrunning
      cases hrunning
    · intro s a t hs ht hinv hsets hstep
      exact hinv.step hs ht hsets hstep
  exact hinv hrunning

/-- A stream is accepted on descriptor 7, and both tables have it. -/
theorem registered_accepted : ∃ s : Context, s.server.poll.descriptors = [3, 7] ∧
    s.server.Registered := by
  have hmade : (machine fun _ => true).ReachUnder SetsUp made := .init starts_made
  have hhosted := hmade.step (a := Label.hostTcp (.ok 3)) trivial rfl
  have hstarted := hhosted.step (a := Label.startContext) rfl rfl
  have hpolled := hstarted.step (a := Label.wait (.ok [(⟨3, true, false⟩, readable)])) trivial rfl
  have haccepted := hpolled.step (a := Label.turn (acceptAnswer (.ok ()))) (fun _ _ => rfl) rfl
  exact ⟨_, rfl, registered_of_reach haccepted rfl⟩

/-- A stream is accepted on descriptor 7 that cannot be made nonblocking: it is closed, and stays in
the poll table. -/
theorem not_registered : ¬ ∀ s : Context, (machine fun _ => true).Reach s → s.running = true →
    s.server.Registered := by
  intro hall
  have hexec : ((machine fun _ => true).exec Machine.Any made
      (hostLabels ++ [.turn (acceptAnswer (.error 22))])).any (fun s => s.running ∧
        7 ∈ s.server.poll.descriptors ∧ 7 ∉ s.server.descriptors) = true := by
    decide
  obtain ⟨s, hreach, hs⟩ := Machine.reachUnder_of_exec starts_made hexec
  obtain ⟨hrunning, hin, hout⟩ := of_decide_eq_true hs
  exact hout (((hall s hreach hrunning).mem_iff 7).mp hin)

-- a connection of the run before is in the map and not in the table of the next run
example : ((machine fun _ => true).exec Machine.Any made
    (hostLabels ++ [.turn (acceptAnswer (.ok ())), .turn (readAnswer (.ok [])),
      .turn (readAnswer (.ok [])), .turn (readAnswer (.ok [])), .stopContext,
      .startContext])).any (fun s => s.server.poll.descriptors = [3] ∧
        s.server.descriptors = [3, 7]) = true := by
  decide

end Context

end ProjectE.Net
