import ProjectE.Net.SendPath
import ProjectE.Threads.Stream

/-!
# From send to receive

Two servers joined by a connection: the context loop of the one that accepted it, with its queue,
its writer and its socket, and both threads of the one that made it, with its reader. What is read
at one end was handed to the socket at the other. Whatever the turns of the four threads and the
lengths of the reads and writes, the packets taken at the one end are those sent at the other, in
order, each once; all of them once nothing is on the way (`delivers`).

It takes what the send path takes: each message leaves room to spare in the writer when it is
popped.
-/

namespace ProjectE.Threads

open Verif Net

/-- The sender and the receiver of one connection. -/
structure Link where
  sender : ContextLoop
  receiver : System

/-- A step of either end. -/
inductive LinkLabel where
  | sender (a : ContextLoop.Label)
  | receiver (a : Act)

/-- The bytes are the image of one packet. -/
def isImage (data : List UInt8) : Bool :=
  (Packet.deserialize data).any fun packet => packet.size = data.length

/-- The packets among the messages for a connection. -/
def packetsFor (c : Uuid) (messages : List (Uuid × List UInt8)) : List Packet :=
  (messages.filter fun message => message.1 = c).filterMap fun message =>
    Packet.deserialize message.2

theorem isImage_iff {data : List UInt8} : isImage data = true ↔
    ∃ packet, Packet.deserialize data = some packet ∧ packet.WF ∧ packet.serialize = data := by
  unfold isImage
  rw [Option.any_eq_true]
  constructor
  · rintro ⟨packet, hdes, hsize⟩
    obtain ⟨hwf, -, himage⟩ := Packet.deserialize_some hdes
    rw [of_decide_eq_true hsize, List.take_length] at himage
    exact ⟨packet, hdes, hwf, himage⟩
  · rintro ⟨packet, hdes, -, himage⟩
    refine ⟨packet, hdes, decide_eq_true ?_⟩
    rw [← himage, Packet.length_serialize]

/-- Where the messages are images of packets, their bytes are the images one after the other. -/
theorem bytesFor_eq {c : Uuid} {messages : List (Uuid × List UInt8)}
    (h : ∀ message ∈ messages, message.1 = c → message.2 = [] ∨ isImage message.2 = true) :
    bytesFor c messages = (packetsFor c messages).flatMap Packet.serialize ∧
      ∀ packet ∈ packetsFor c messages, packet.WF := by
  induction messages with
  | nil => exact ⟨rfl, fun packet hp => absurd hp List.not_mem_nil⟩
  | cons message messages ih =>
    obtain ⟨hbytes, hwf⟩ := ih fun m hm => h m (List.mem_cons_of_mem _ hm)
    obtain ⟨d, data⟩ := message
    unfold packetsFor at *
    by_cases hd : d = c
    · subst hd
      rw [bytesFor_cons_self, List.filter_cons_of_pos (by simp), hbytes]
      rcases h (d, data) List.mem_cons_self rfl with hnil | himage
      · change data = [] at hnil
        subst hnil
        rw [List.filterMap_cons_none (f := fun message : Uuid × List UInt8 =>
          Packet.deserialize message.2) Packet.deserialize_nil]
        exact ⟨rfl, hwf⟩
      · obtain ⟨packet, hdes, hp, himage⟩ := isImage_iff.mp himage
        change Packet.deserialize data = some packet at hdes
        rw [List.filterMap_cons_some (f := fun message : Uuid × List UInt8 =>
          Packet.deserialize message.2) hdes, List.flatMap_cons, himage]
        refine ⟨rfl, fun q hq => ?_⟩
        rcases List.mem_cons.mp hq with rfl | hq
        · exact hp
        · exact hwf q hq
    · rw [bytesFor_cons_ne hd, List.filter_cons_of_neg (by simpa using hd)]
      exact ⟨hbytes, hwf⟩

namespace Link

section Machine

variable (isValidUdpMessage : List UInt8 → Bool) (transformNumber : UInt64 → UInt64)

/-- One end takes a step. That the receiver reads what the sender has sent is a condition on the
run. -/
def step (s : Link) : LinkLabel → Option Link
  | .sender a => (s.sender.step isValidUdpMessage a).map fun t => { s with sender := t }
  | .receiver a => (s.receiver.step transformNumber a).map fun t => { s with receiver := t }

/-- The sender has just accepted connection `c`, for which nothing was asked before; the receiver
has just made it, as its connection `id`. -/
structure Begins (c id : Uuid) (s : Link) : Prop where
  accepted : ∃ s₀ a, (ContextLoop.machine isValidUdpMessage).Reach s₀ ∧ s₀.asked c = [] ∧
    c ∉ s₀.server.tcpConnections ∧ s₀.step isValidUdpMessage a = some s.sender
  there : c ∈ s.sender.server.tcpConnections
  starts : s.receiver.Starts
  made : (s.receiver.reader (.outgoing id)).isSome

/-- The runs of both ends, from an accept at the sender. -/
def machine (c id : Uuid) : Machine Link LinkLabel where
  init := Begins isValidUdpMessage c id
  step := step isValidUdpMessage transformNumber

end Machine

/-- The user sends packets. -/
def sends (c : Uuid) : ContextLoop.Label → Bool
  | .sendTcp id data => id ≠ c || isImage data
  | _ => true

/-- A read of the receiver's end gives what was handed over at the other and not yet read. -/
def reads (handed : List UInt8) (id : Uuid) (s : System) : Act → Bool
  | .context (.ok bs) => s.context ≠ .body (.outgoing id) ||
      (s.received (.outgoing id) ++ bs).isPrefixOf handed
  | _ => true

/-- The condition on a step: the sender does not end the connection and each message fits, and the
receiver reads what was sent. -/
def Carries (c id : Uuid) (s : Link) : LinkLabel → Prop
  | .sender a => c ∈ s.sender.server.tcpConnections ∧ s.sender.Fits c a ∧ sends c a = true
  | .receiver a => reads (s.sender.server.handed c) id s.receiver a = true

/-- The packets that were sent. -/
def sent (c : Uuid) (s : Link) : List Packet := packetsFor c s.sender.sendCalls

/-- What was received is a front of what was asked, which is made of packets. -/
structure Carried (transformNumber : UInt64 → UInt64) (c id : Uuid) (s : Link) : Prop where
  conserved : s.sender.Conserved c
  images : ∀ message ∈ s.sender.sendCalls, message.1 = c →
    message.2 = [] ∨ isImage message.2 = true
  receiver : (System.machine transformNumber).Reach s.receiver
  front : s.receiver.received (.outgoing id) <+: s.sender.asked c

variable {isValidUdpMessage : List UInt8 → Bool} {transformNumber : UInt64 → UInt64}
variable {c id : Uuid} {s t : Link}

/-- The step that accepts a connection makes no call of `send_tcp`. -/
theorem sendCalls_of_accept {s t : ContextLoop} {a : ContextLoop.Label}
    (hout : c ∉ s.server.tcpConnections) (hin : c ∈ t.server.tcpConnections)
    (hstep : s.step isValidUdpMessage a = some t) : t.sendCalls = s.sendCalls := by
  cases ContextLoop.effect_of_step hstep with
  | sendTcp hserver _ =>
    rw [hserver] at hin
    exact absurd hin hout
  | askDisconnect _ hcalls | wait _ hcalls | event _ _ hcalls | disconnection _ hcalls
  | append _ _ hcalls | leave _ hcalls => exact hcalls

theorem carried_of_begins (h : Begins isValidUdpMessage c id s) :
    Carried transformNumber c id s := by
  obtain ⟨s₀, a, hreach, hasked, hout, hstep⟩ := h.accepted
  have hcalls := sendCalls_of_accept hout h.there hstep
  refine ⟨ContextLoop.conserved_of_accept hreach hasked hout hstep h.there, ?_,
    .init h.starts, ?_⟩
  · intro message hm hc
    rw [hcalls] at hm
    have hall : (s₀.sendCalls.filter fun m => m.1 = c).flatMap (·.2) = [] := hasked
    exact .inl (List.flatMap_eq_nil_iff.mp hall message
      (List.mem_filter.mpr ⟨hm, decide_eq_true hc⟩))
  · rw [congrFun h.starts.received (.outgoing id)]
    exact List.nil_prefix

/-! ## Every step -/

/-- The calls of `send_tcp` for a connection are never fewer. -/
theorem sendCalls_of_step {s t : ContextLoop} {a : ContextLoop.Label} (hsends : sends c a = true)
    (hstep : s.step isValidUdpMessage a = some t) : ∃ more, t.sendCalls = s.sendCalls ++ more ∧
      ∀ message ∈ more, message.1 = c → isImage message.2 = true := by
  cases ContextLoop.effect_of_step hstep with
  | @sendTcp d data _ hcalls =>
    refine ⟨[(d, data)], hcalls, ?_⟩
    rintro message hm rfl
    cases List.mem_singleton.mp hm
    simpa [sends] using hsends
  | askDisconnect _ hcalls | wait _ hcalls | event _ _ hcalls | disconnection _ hcalls
  | append _ _ hcalls | leave _ hcalls =>
    exact ⟨[], hcalls.trans (List.append_nil _).symm, fun _ hm => absurd hm List.not_mem_nil⟩

/-- The sender hands over a front of what was asked. -/
theorem Carried.handed_prefix (h : Carried transformNumber c id s) :
    s.sender.server.handed c <+: s.sender.asked c := by
  cases htaken : s.sender.server.taken c with
  | none =>
    have hnone : s.sender.server.tcpConnections.lookup c = none := Option.map_eq_none_iff.mp htaken
    rw [BaseServer.handed, hnone]
    exact List.nil_prefix
  | some bs =>
    rw [← h.conserved bs htaken, ← BaseServer.handed_append_buffered htaken, List.append_assoc]
    exact List.prefix_append _ _

/-- One read of the receiver. -/
theorem received_filled {v : View} {r : ReaderRef} {reader : BufReader} {read : ReadOutcome}
    {asked handed : List UInt8} (hfront : v.received (.outgoing id) <+: asked)
    (hhanded : handed <+: asked)
    (hreads : ∀ bs, read = .ok bs → r = .outgoing id →
      v.received (.outgoing id) ++ bs <+: handed) :
    (v.filled r reader read).received (.outgoing id) <+: asked := by
  by_cases heq : r = .outgoing id
  · subst heq
    simp only [View.filled, Function.update_self]
    cases read with
    | error e =>
      rw [BufReader.delivered_error, List.append_nil]
      exact hfront
    | ok bs =>
      refine List.IsPrefix.trans ?_ ((hreads bs rfl rfl).trans hhanded)
      rw [List.prefix_append_right_inj, BufReader.delivered]
      split
      · exact List.nil_prefix
      · exact List.take_prefix _ _
  · simp only [View.filled, Function.update_of_ne (Ne.symm heq)]
    exact hfront

/-- The receiver's step: what was received grows by what was read. -/
theorem front_of_move {v w : View} {a : Act} {asked handed : List UInt8} (hm : Move v a w)
    (hfront : v.received (.outgoing id) <+: asked) (hhanded : handed <+: asked)
    (hreads : ∀ bs, a = .context (.ok bs) → v.context = .body (.outgoing id) →
      v.received (.outgoing id) ++ bs <+: handed) :
    w.received (.outgoing id) <+: asked := by
  cases hm with
  | fillError => exact received_filled hfront hhanded nofun
  | fillData hpc =>
    refine received_filled hfront hhanded ?_
    rintro _ ⟨⟩ rfl
    exact hreads _ rfl hpc
  | fillEmpty hpc =>
    refine received_filled hfront hhanded ?_
    rintro _ rfl rfl
    exact hreads _ rfl hpc
  | _ => exact hfront

theorem carried_step {a : LinkLabel} (h : Carried transformNumber c id s) (hG : Carries c id s a)
    (hstep : s.step isValidUdpMessage transformNumber a = some t) :
    Carried transformNumber c id t := by
  cases a with
  | sender a =>
    obtain ⟨sender, hsender, rfl⟩ := Option.map_eq_some_iff.mp hstep
    obtain ⟨hin, hfits, hsends⟩ := hG
    obtain ⟨more, hcalls, hmore⟩ := sendCalls_of_step hsends hsender
    refine ⟨h.conserved.step hin hfits hsender, ?_, h.receiver, ?_⟩
    · intro message hm hc
      rw [hcalls, List.mem_append] at hm
      rcases hm with hold | hnew
      · exact h.images message hold hc
      · exact .inr (hmore message hnew hc)
    · rw [ContextLoop.asked, hcalls, bytesFor_append]
      exact h.front.trans (List.prefix_append _ _)
  | receiver a =>
    obtain ⟨receiver, hreceiver, rfl⟩ := Option.map_eq_some_iff.mp hstep
    refine ⟨h.conserved, h.images, h.receiver.run (.step trivial hreceiver), ?_⟩
    have hmove := (System.move_of_step (System.consistent h.receiver) hreceiver).1
    refine front_of_move hmove h.front h.handed_prefix ?_
    rintro bs rfl hpc
    have hpc : s.receiver.context = .body (.outgoing id) := hpc
    have hread : s.receiver.received (.outgoing id) ++ bs <+: s.sender.server.handed c := by
      simpa [Carries, reads, hpc] using hG
    exact hread

/-! ## What is delivered -/

/-- The bytes sent and not yet received. -/
def onWay (c id : Uuid) (s : Link) : List UInt8 :=
  (s.sender.asked c).drop (s.receiver.received (.outgoing id)).length

/-- The packets taken are the first of those sent. The others wait, none of them lost: their images
are what is unread, without the packet in hand, and what is on the way. Where nothing waits, all are
taken. -/
structure Delivers (c id : Uuid) (s : Link) (reader : BufReader) : Prop where
  waiting : ∃ waiting, s.sent c = s.receiver.taken (.outgoing id) ++ waiting ∧
    ((s.receiver.main.pending (.outgoing id)).toList ++ waiting).flatMap Packet.serialize =
      reader.unread ++ s.onWay c id
  complete : c ∈ s.sender.server.tcpConnections → s.sender.server.queued c = [] →
    s.sender.server.buffered c = [] →
    s.receiver.received (.outgoing id) = s.sender.server.handed c → reader.unread = [] →
    s.receiver.taken (.outgoing id) = s.sent c

/-- What was asked is what was received, and what is on the way. -/
theorem Carried.received_append (h : Carried transformNumber c id s) :
    s.receiver.received (.outgoing id) ++ s.onWay c id = s.sender.asked c := by
  obtain ⟨more, hmore⟩ := h.front
  rw [onWay, ← hmore, List.drop_left]

theorem Carried.waiting (h : Carried transformNumber c id s) {reader : BufReader}
    (hreader : s.receiver.reader (.outgoing id) = some reader) :
    ∃ waiting, s.sent c = s.receiver.taken (.outgoing id) ++ waiting ∧
      ((s.receiver.main.pending (.outgoing id)).toList ++ waiting).flatMap Packet.serialize =
        reader.unread ++ s.onWay c id := by
  obtain ⟨hbytes, hwf⟩ := bytesFor_eq h.images
  have htracks := tracked_of_reach h.receiver _ reader hreader
  -- the whole stream splits into the packets sent
  have hall := Packet.splits_serialize hwf []
  rw [List.append_nil, ← hbytes, ← ContextLoop.asked, ← h.received_append] at hall
  obtain ⟨ps, hsplits, hps⟩ := htracks.splits
  obtain ⟨more, hsent, hmore⟩ := (hsplits.more (s.onWay c id)).goes_on hall Packet.deserialize_nil
  obtain ⟨rest, htaken⟩ := htracks.taken_splits
  obtain ⟨waiting, hwaiting, -⟩ := (htaken.more (s.onWay c id)).goes_on hall
    Packet.deserialize_nil
  refine ⟨waiting, hwaiting, ?_⟩
  have hrest : more = (s.receiver.main.pending (.outgoing id)).toList ++ waiting := by
    apply (List.append_right_inj ps).mp
    rw [← hsent, hwaiting, hps, List.append_assoc]
    rfl
  rw [← hrest, hmore.eq_flatMap fun hdec => (Packet.deserialize_some hdec).2.2, List.append_nil]

/-- **Delivery, in order, each once**: from the accept and the connect on, in every run of the two
ends in which the sender sends images of packets, each of which fits its writer when it is popped,
and does not end the connection, and in which the receiver reads what was handed over: as long as
the receiver's connection is there, the packets it has taken are the first of those sent, and the
others are on their way. -/
theorem delivers {s₀ : Link} (hbegins : Begins isValidUdpMessage c id s₀)
    (hrun : (machine isValidUdpMessage transformNumber c id).RunUnder (Carries c id) s₀ s)
    {reader : BufReader} (hreader : s.receiver.reader (.outgoing id) = some reader) :
    s.Delivers c id reader := by
  have hcarried : Carried transformNumber c id s :=
    hrun.invariant (fun _ _ _ hs hG hstep => carried_step hs hG hstep)
      (carried_of_begins hbegins)
  refine ⟨hcarried.waiting hreader, ?_⟩
  intro hin hqueued hbuffered hreceived hunread
  obtain ⟨waiting, hsent, hbytes⟩ := hcarried.waiting hreader
  obtain ⟨bs, hbs⟩ := BaseServer.taken_of_mem hin
  have hasked : s.sender.server.handed c = s.sender.asked c := by
    rw [← hcarried.conserved bs hbs, ← BaseServer.handed_append_buffered hbs, hqueued, hbuffered,
      List.append_nil, List.append_nil]
  have honWay : s.onWay c id = [] := by
    rw [onWay, hreceived, hasked, List.drop_length]
  rw [hunread, honWay, List.append_nil, List.flatMap_eq_nil_iff] at hbytes
  have hnone : waiting = [] := by
    rw [List.eq_nil_iff_forall_not_mem]
    intro packet hp
    have hempty := hbytes packet (List.mem_append_right _ hp)
    have hpos := packet.size_pos
    rw [← Packet.length_serialize, hempty] at hpos
    cases hpos
  rw [hsent, hnone, List.append_nil]

/-! ## One packet from one end to the other -/

instance (c : Uuid) (b : BaseServer) : Decidable (BaseServer.FrontFits c b) :=
  decidable_of_iff ((b.sendTcpQueue.head?.all fun message => message.1 ≠ c || message.2 = [] ||
      (b.tcpConnections.lookup c).all fun connection => message.2.length <
        subSize connection.writer.capacity connection.writer.buffer.length) = true) <| by
    simp only [BaseServer.FrontFits, Option.all_eq_true, Prod.forall, Bool.or_eq_true,
      decide_eq_true_eq, Option.mem_def]
    grind

instance (c : Uuid) (s : ContextLoop) : ∀ a, Decidable (s.Fits c a)
  | .turn _ => inferInstanceAs (Decidable (s.pos = .sends → BaseServer.FrontFits c s.server))
  | .sendTcp _ _ | .askDisconnect _ | .wait _ => .isTrue trivial

instance (c id : Uuid) (s : Link) : ∀ a, Decidable (Carries c id s a)
  | .sender a => inferInstanceAs (Decidable (c ∈ s.sender.server.tcpConnections ∧
      s.sender.Fits c a ∧ sends c a = true))
  | .receiver a => inferInstanceAs (Decidable (reads (s.sender.server.handed c) id s.receiver a))

/-- Connection 1 of the sender is connection 9 of the receiver. -/
def joined : Link where
  sender := ContextLoop.acceptedOne
  receiver := System.started.base fun b => { b with
    tcpConnection := some (9, TcpConnection.new 4)
    tcpEvents := [(.tcpConnection, 9)]
    generatedUUIDs := [9] }

theorem begins_joined : Begins (fun _ => true) 1 9 joined where
  accepted := ⟨ContextLoop.polled, .turn ContextLoop.acceptAnswer, ContextLoop.reach_polled, rfl,
    by decide, rfl⟩
  there := by decide
  starts := ⟨rfl, .inr ⟨9, 4, rfl, rfl, by decide⟩, rfl, rfl, rfl, rfl, rfl, rfl, rfl⟩
  made := rfl

/-- A message of one byte. -/
def hello : Packet := .deserializeTyped 0 256 [7]

/-- It is sent, popped and flushed. -/
def sendHello : List LinkLabel :=
  [.turn ContextLoop.acceptAnswer, .turn ContextLoop.acceptAnswer, .sendTcp 1 hello.serialize,
    .turn ContextLoop.acceptAnswer, .turn ContextLoop.acceptAnswer, .wait (.ok [⟨.write, 5⟩]),
    .turn { ContextLoop.acceptAnswer with write := .ok 9, newUuid := 2 }].map .sender

/-- One read, and then some steps of the main thread. -/
def receiveSome (bs : List UInt8) (steps : Nat) : List LinkLabel :=
  ([Act.readEvent (.outgoing 9), .context (.ok []), .context (.ok bs), .context (.ok [])] ++
    List.replicate steps (Act.main System.draw)).map .receiver

/-- It is read in two parts, the first of which holds no packet, and arrives. -/
theorem delivers_hello : ∃ (s : Link) (reader : BufReader),
    s.receiver.taken (.outgoing 9) = [hello] ∧ s.Delivers 1 9 reader := by
  obtain ⟨s, hrun, hs⟩ := Machine.exists_runUnder_of_exec
    (M := machine (fun _ => true) Server.transformNumberFunction 1 9) (G := Carries 1 9)
    (s := joined) (l := sendHello ++ receiveSome (hello.serialize.take 5) 8 ++
      receiveSome (hello.serialize.drop 5) 12)
    (p := fun s => ((s.receiver.reader (.outgoing 9)).any fun reader => reader.unread = []) &&
      (1 ∈ s.sender.server.tcpConnections ∧ s.sender.server.queued 1 = [] ∧
        s.sender.server.buffered 1 = [] ∧
        s.receiver.received (.outgoing 9) = s.sender.server.handed 1 ∧ s.sent 1 = [hello] : Bool))
    (by decide +kernel)
  simp only [Bool.and_eq_true, Option.any_eq_true, decide_eq_true_eq] at hs
  obtain ⟨⟨reader, hreader, hunread⟩, hin, hqueued, hbuffered, hreceived, hsent⟩ := hs
  have hdelivers : s.Delivers 1 9 reader := delivers begins_joined hrun hreader
  refine ⟨s, reader, ?_, hdelivers⟩
  rw [hdelivers.complete hin hqueued hbuffered hreceived hunread, hsent]

end Link

end ProjectE.Threads
