import ProjectE.Threads.Stream

/-!
# What is lost at a disconnection

The bytes of a connection live in the object that the context thread erases, while the events that
tell the main thread to take packets out of it wait in a queue. So a `TcpRead` that comes to its
turn after the erasure finds nothing, and the packets it was pushed for are gone before
`on_tcp_disconnection` is called (`not_processed`).

They are all processed where no connection is erased with a complete packet among its unread bytes
(`processed_of_drained`).
-/

namespace ProjectE.Threads

open Verif Net

namespace View

/-- The step erases no complete packet. -/
def drained (v : View) : Act → Bool
  | .context _ =>
    match v.context with
    | .erase id _ => (v.reader (.accepted id)).all fun reader =>
        (Packet.deserialize reader.unread).isNone
    | _ => true
  | _ => true

/-- All complete packets of the connections that are gone were taken. -/
def Settled (v : View) : Prop := ∀ id, v.reader (.accepted id) = none →
  v.taken (.accepted id) = (Packet.framing.splitAll (v.received (.accepted id))).1

end View

variable {v w : View} {a : Act}

theorem settled_move (hinv : Inv v) (htracked : Tracked v) (h : v.Settled)
    (hG : v.drained a = true) (hm : Move v a w) : w.Settled := by
  intro id hnone
  cases hreader : v.reader (.accepted id) with
  | none =>
    -- it was gone before: nothing is read into it, and `on_tcp_data` does not run on it
    obtain ⟨hreceived | hsome, htaken | hinside⟩ := ghosts_of_move hm (.accepted id)
    · rw [hreceived, htaken]
      exact h id hreader
    · have hsome := hinv.guarded id hinside
      rw [hreader] at hsome
      cases hsome
    · rw [hreader] at hsome
      cases hsome
    · rw [hreader] at hsome
      cases hsome
  | some reader =>
    cases readers_of_move hm with
    | keeps hkeeps _ =>
      have hsome := hkeeps (.accepted id)
      rw [hnone, hreader] at hsome
      cases hsome
    | @erases id' inside hpc hupdate _ _ _ _ hact hreceived htaken =>
      by_cases heq : id = id'
      · subst heq
        obtain ⟨read, rfl⟩ := hact
        simp only [View.drained, hpc, hreader, Option.all_some, Option.isNone_iff_eq_none] at hG
        rw [hreceived, htaken, (htracked _ _ hreader).settled (not_inside_of_erase hinv hpc) hG]
      · rw [hupdate, Function.update_of_ne (by simpa using heq), hreader] at hnone
        cases hnone
    | resets _ hupdate _ _ _ _ =>
      rw [hupdate] at hnone
      cases hnone.symm.trans hreader
    | adds _ hupdate _ _ _ _ _ _ =>
      have hsome : (w.reader (.accepted id)).isSome := by
        rw [hupdate]
        exact isSome_update (by rw [hreader]; rfl)
      rw [hnone] at hsome
      cases hsome

namespace System

/-- The main thread calls `on_tcp_disconnection(c)` next. -/
def AboutToDisconnect (s : System) (c : Uuid) : Prop :=
  s.main = .idle ∧ ∃ rest, s.server.tcpEvents = (.tcpDisconnection, c) :: rest

/-- Every complete packet among the bytes that were read from connection `c` was processed. -/
def Processed (s : System) (c : Uuid) : Prop :=
  s.taken (.accepted c) = (Packet.framing.splitAll (s.received (.accepted c))).1

/-- **No packet is lost at a disconnection, where none is erased**: in every run that erases no
connection with a complete packet among its unread bytes, all packets of a connection are processed
before `on_tcp_disconnection` is called for it. -/
theorem processed_of_drained {transformNumber : UInt64 → UInt64} {s : System} {c : Uuid}
    (h : (machine transformNumber).ReachUnder (fun s a => s.view.drained a = true) s)
    (habout : s.AboutToDisconnect c) : s.Processed c := by
  have hsettled : s.view.Settled := by
    refine view_invariant ?_ ?_ h
    · intro s hs id _
      rw [show s.view.received (.accepted id) = [] from congrFun hs.received _,
        show s.view.taken (.accepted id) = [] from congrFun hs.taken _,
        Framing.splitAll_of_none _ Packet.deserialize_nil]
    · intro _ _ _ hs hI hG hmove
      exact settled_move (inv_of_reach hs) (tracked_of_reach hs) hI hG hmove
  obtain ⟨_, rest, hevents⟩ := habout
  have hmem : (.tcpDisconnection, c) ∈ s.view.events := by
    rw [show s.view.events = _ from hevents]
    exact List.mem_cons_self
  exact hsettled c ((inv_of_reach h.any).announced c hmem)

/-! ## One packet and the end of its connection -/

/-- A packet without a body. -/
def emptyPacket : Packet := Packet.deserializeTyped 0 256 []

/-- Connection 1 is accepted and has its client, and the packet is read from it. -/
def reading : List Act :=
  [.accept 1 5, .main draw, .readEvent (.accepted 1), .context (.ok []),
    .context (.ok emptyPacket.serialize), .context (.ok [])]

/-- The packet is taken, from the read event to the end of `on_tcp_data`. -/
def taking : List Act := List.replicate 14 (.main draw)

/-- The end of the stream is read, and the connection erased. -/
def closing : List Act :=
  .readEvent (.accepted 1) :: List.replicate 7 (.context (.ok []))

/-- The main thread takes the packet before the connection is erased. -/
theorem processed_of_drained_taken : ∃ s : System,
    s.taken (.accepted 1) = [emptyPacket] ∧ s.AboutToDisconnect 1 ∧ s.Processed 1 := by
  obtain ⟨s, hreach, hs⟩ := Machine.reachUnder_of_exec
    (M := machine Server.transformNumberFunction) (G := fun s a => s.view.drained a = true)
    (l := reading ++ taking ++ closing)
    (p := fun s => s.taken (.accepted 1) = [emptyPacket] ∧ s.main = .idle ∧
      s.server.tcpEvents = [(.tcpDisconnection, 1)])
    starts_started (by decide +kernel)
  obtain ⟨htaken, hmain, hevents⟩ := of_decide_eq_true hs
  have habout : s.AboutToDisconnect 1 := ⟨hmain, [], hevents⟩
  exact ⟨s, htaken, habout, processed_of_drained hreach habout⟩

/-- The connection is erased first: the read event finds nothing, and the packet is lost. -/
theorem not_processed : ¬ ∀ (s : System) (c : Uuid),
    (machine Server.transformNumberFunction).Reach s → s.AboutToDisconnect c → s.Processed c := by
  intro hall
  obtain ⟨s, hreach, hs⟩ := Machine.reachUnder_of_exec
    (M := machine Server.transformNumberFunction) (G := Machine.Any)
    (l := reading ++ closing ++ [.main draw, .main draw])
    (p := fun s => s.received (.accepted 1) = emptyPacket.serialize ∧
      s.taken (.accepted 1) = [] ∧ s.main = .idle ∧
      s.server.tcpEvents = [(.tcpDisconnection, 1)])
    starts_started (by decide +kernel)
  obtain ⟨hreceived, htaken, hmain, hevents⟩ := of_decide_eq_true hs
  have hprocessed := hall s 1 hreach ⟨hmain, [], hevents⟩
  have hread : Packet.framing.decode emptyPacket.serialize = some emptyPacket := rfl
  rw [Processed, hreceived, htaken, Framing.splitAll_of_some _ hread] at hprocessed
  cases hprocessed

end System

end ProjectE.Threads
