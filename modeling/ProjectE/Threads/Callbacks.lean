import ProjectE.Lib.Protocol
import ProjectE.Threads.Locks

/-!
# The callbacks of a connection

`handle_events` turns the events the context thread queues into calls of `on_tcp_connection`,
`on_tcp_data` and `on_tcp_disconnection`. Here the two threads run as before, and the main thread
also connects, starts the context and stops it, and calls `handle_events` again after an exception
has left it. The callbacks made are recorded, and the ids of the connections that were made.

The callbacks of one connection follow a protocol of three phases. The queue hides how far a
connection has got, so the invariant is about the callbacks made together with those on their way
(`View.pending`): they follow the protocol, and a connection that is still there (`View.Live`) has
not been announced gone. What a step does to the callbacks on their way is `Flow`.
-/

namespace ProjectE.Threads

open Verif Net

/-- The callbacks of `BaseServer` about a TCP connection. -/
inductive TcpCallback where
  | onTcpConnection
  | onTcpData
  | onTcpDisconnection
deriving DecidableEq, Repr

/-- The callback that `handle_events` makes for an event. -/
def TcpCallback.of : TCPEvent → TcpCallback
  | .tcpConnection => .onTcpConnection
  | .tcpRead => .onTcpData
  | .tcpDisconnection => .onTcpDisconnection

/-- How far a connection has got. -/
inductive Phase where
  | fresh
  | connected
  | disconnected
deriving DecidableEq, Repr

/-- Connected once, any data, disconnected once. -/
def Phase.next : Phase → TcpCallback → Option Phase
  | .fresh, .onTcpConnection => some .connected
  | .connected, .onTcpData => some .connected
  | .connected, .onTcpDisconnection => some .disconnected
  | _, _ => none

/-- The callback that a step makes. A `TcpRead` is called back where `on_tcp_data` is entered, which
is after the lookups. -/
def callback (main : MainPc) (events : List (TCPEvent × Uuid)) :
    Act → Option (TcpCallback × Uuid)
  | .main _ =>
    match main with
    | .idle =>
      match events with
      | (.tcpConnection, id) :: _ => some (.onTcpConnection, id)
      | (.tcpDisconnection, id) :: _ => some (.onTcpDisconnection, id)
      | _ => none
    | .enter r => some (.onTcpData, r.id)
    | _ => none
  | _ => none

/-- The connection that an act makes. -/
def Act.made : Act → Option Uuid
  | .accept id _ => some id
  | _ => none

/-- The acts of the main thread, which need no running context. -/
def Act.ofMain : Act → Bool
  | .main _ | .askDisconnect _ => true
  | _ => false

/-- A server over its life. The last two fields are records that no code reads. -/
structure Life where
  system : System
  running : Bool
  /-- The callbacks made, in order. -/
  callbacks : List (TcpCallback × Uuid)
  /-- The ids of the connections made, in order. -/
  made : List Uuid

namespace Life

/-- The steps of both threads, and the calls that start and stop the context. -/
inductive Label where
  | act (a : Act)
  | connectTcp (connect : Except ErrorCode Fd) (newUuid : Uuid)
  | startContext
  | stopContext
  /-- `handle_events` is called again after an exception. -/
  | handleEvents

/-- A step of the two threads. -/
def act (s : Life) (a : Act) (system : System) : Life :=
  { s with
    system := system
    callbacks := s.callbacks ++ (callback s.system.main s.system.server.tcpEvents a).toList
    made := s.made ++ a.made.toList }

/-- `connect_tcp`, and the connection it made, if it did. -/
def connectTcp (s : Life) (connect : Except ErrorCode Fd) (newUuid : Uuid) : Life :=
  let system := s.system.base fun b => b.connectTcp s.running connect newUuid
  { s with
    system := system
    made := if newUuid ∈ system.server.generatedUUIDs then s.made ++ [newUuid] else s.made }

/-- `stop_context` joins the context thread, which ends between two handlers. -/
def step (transformNumber : UInt64 → UInt64) (s : Life) : Label → Option Life
  | .act a =>
    if a.ofMain || s.running then (s.system.step transformNumber a).map (s.act a) else none
  | .connectTcp connect newUuid =>
    if newUuid ∈ s.system.server.generatedUUIDs then none else some (s.connectTcp connect newUuid)
  | .startContext =>
    if s.running then none
    else some { s with system := s.system.base (·.runContext), running := true }
  | .stopContext => if s.system.context = .idle then some { s with running := false } else none
  | .handleEvents =>
    if s.system.main = .halted then some { s with system := { s.system with main := .idle } }
    else none

/-- A server just made. -/
structure Starts (s : Life) : Prop where
  system : System.Starts s.system
  tcpConnection : s.system.server.tcpConnection = none
  generatedUUIDs : s.system.server.generatedUUIDs = []
  running : s.running = false
  callbacks : s.callbacks = []
  made : s.made = []

/-- The runs of a server over its whole life. -/
def machine (transformNumber : UInt64 → UInt64) : Machine Life Label where
  init := Starts
  step := step transformNumber

end Life

/-! ## Callbacks on their way -/

/-- The connection whose `TcpRead` was popped and not called back yet. -/
def MainPc.popped : MainPc → Option Uuid
  | .tcpRead id | .lockUsing id | .lookup id => some id
  | .enter r => some r.id
  | _ => none

@[simp] theorem popped_loopHead (r : ReaderRef) (client : Uuid) (packet : Option Packet) :
    (System.loopHead r client packet).popped = none := by
  cases packet <;> rfl

@[simp] theorem popped_afterUnlock (r : ReaderRef) (client : Uuid) (after : After) :
    (System.afterUnlock r client after).popped = none := by
  cases after with
  | parsed packet => exact popped_loopHead r client packet
  | reparse buffer => rfl

/-- The callbacks still to be made: of the event in hand, and of those queued. -/
def View.pending (v : View) : List (TcpCallback × Uuid) :=
  v.main.popped.toList.map (fun id => (.onTcpData, id)) ++
    v.events.map fun e => (TcpCallback.of e.1, e.2)

/-- A connection is there, or erased with its disconnection still to be queued. The outgoing one is
there until it is about to be reset: its disconnection is queued before. -/
def View.Live (v : View) (id : Uuid) : Prop :=
  (v.reader (.accepted id)).isSome ∨ v.context.erased = some id ∨
    ((v.reader (.outgoing id)).isSome ∧ v.context ≠ .reset id)

/-- What a step does to the callbacks on their way: it makes the first of them, or none; it drops
the data of a connection that is gone; or it appends one. -/
inductive Flow (v : View) (a : Act) (w : View) : Prop
  | keeps : v.pending = (callback v.main v.events a).toList ++ w.pending → w.ids = v.ids →
      Flow v a w
  | drops {id} : callback v.main v.events a = none → v.pending = (.onTcpData, id) :: w.pending →
      w.ids = v.ids → Flow v a w
  | reads {id} : callback v.main v.events a = none →
      w.pending = v.pending ++ [(.onTcpData, id)] → w.ids = v.ids → v.Live id → Flow v a w
  | disconnects {id} : callback v.main v.events a = none →
      w.pending = v.pending ++ [(.onTcpDisconnection, id)] → w.ids = v.ids → v.Live id →
      ¬ w.Live id → Flow v a w
  | connects {id} : callback v.main v.events a = none →
      w.pending = v.pending ++ [(.onTcpConnection, id)] → w.ids = id :: v.ids → id ∉ v.ids →
      Flow v a w

variable {v w : View} {a : Act} {id : Uuid}

/-- A place that uses a reader has no event in hand and calls nothing. -/
theorem MainPc.quiet_of_uses {pc : MainPc} {r : ReaderRef} (h : pc.uses = some r) :
    pc.popped = none ∧ ∀ events a, callback pc events a = none := by
  cases pc with
  | lock | body | unlock | parse =>
    refine ⟨rfl, ?_⟩
    intro events a
    cases a <;> rfl
  | _ => cases h

/-- The place and the queue decide what is pending. -/
theorem pending_of_main {main : MainPc} (h : v.main = main) : v.pending =
    main.popped.toList.map (fun id => (.onTcpData, id)) ++
      v.events.map fun e => (TcpCallback.of e.1, e.2) := by
  rw [← h]
  rfl

theorem pending_push (event : TCPEvent) (hmain : w.main = v.main)
    (hevents : w.events = v.events ++ [(event, id)]) :
    w.pending = v.pending ++ [(TcpCallback.of event, id)] := by
  unfold View.pending
  rw [hmain, hevents, List.map_append, List.append_assoc]
  rfl

/-- What `on_tcp_connection` is still to be called for is queued. -/
theorem mem_events_of_pending (h : (.onTcpConnection, id) ∈ v.pending) :
    (.tcpConnection, id) ∈ v.events := by
  rcases List.mem_append.mp h with h | h
  · obtain ⟨id', -, heq⟩ := List.mem_map.mp h
    cases heq
  · obtain ⟨⟨event, id'⟩, hmem, heq⟩ := List.mem_map.mp h
    cases event with
    | tcpConnection =>
      cases heq
      exact hmem
    | tcpRead => cases heq
    | tcpDisconnection => cases heq

/-- After the disconnection of an accepted connection is queued, no connection has its id. -/
theorem not_live_push (h : Inv v) (hout : ∀ id, v.context.erased = some id →
    v.reader (.outgoing id) = none) (herased : v.context.erased = some id)
    (hreader : w.reader = v.reader) (hcontext : w.context.erased = none) : ¬ w.Live id := by
  intro hlive
  rcases hlive with haccepted | herased' | ⟨houtgoing, -⟩
  · rw [hreader, (h.erased id herased).2] at haccepted
    cases haccepted
  · rw [hcontext] at herased'
    cases herased'
  · rw [hreader, hout id herased] at houtgoing
    cases houtgoing

/-- After the disconnection of the outgoing connection is queued, it is not there for long. -/
theorem not_live_reset (h : Inv v) (houtgoing : (v.reader (.outgoing id)).isSome)
    (hreader : w.reader = v.reader) (hcontext : w.context = .reset id) : ¬ w.Live id := by
  intro hlive
  rcases hlive with haccepted | herased | ⟨-, hne⟩
  · rw [hreader] at haccepted
    rw [h.disjoint id haccepted] at houtgoing
    cases houtgoing
  · rw [hcontext] at herased
    cases herased
  · exact hne hcontext

/-- A connection that the context thread does not tear down is there. -/
theorem live_of_reader {r : ReaderRef} (hreader : (v.reader r).isSome)
    (hcontext : v.context ≠ .reset r.id) : v.Live r.id := by
  obtain ⟨kind, id⟩ := r
  cases kind with
  | accepted => exact .inl hreader
  | outgoing => exact .inr (.inr ⟨hreader, hcontext⟩)

/-- The main thread goes on with the same event in hand, or with none, and calls nothing. -/
theorem flow_of_place {pc : MainPc} (hpc : v.main = pc) (hpopped : w.main.popped = pc.popped)
    (hcallback : callback pc v.events a = none) (hevents : w.events = v.events)
    (hids : w.ids = v.ids) : Flow v a w := by
  refine .keeps ?_ hids
  rw [pending_of_main hpc, hpc, hcallback, View.pending, hpopped, hevents]
  rfl

theorem flow_of_move (h : Inv v) (hout : ∀ id, v.context.erased = some id →
    v.reader (.outgoing id) = none) (hm : Move v a w) : Flow v a w := by
  cases hm with
  | connect hpc hevents => exact .keeps (by rw [pending_of_main hpc, hpc, hevents]; rfl) rfl
  | disconnect hpc hevents => exact .keeps (by rw [pending_of_main hpc, hpc, hevents]; rfl) rfl
  | popRead hpc hevents => exact .keeps (by rw [pending_of_main hpc, hpc, hevents]; rfl) rfl
  | toOutgoing hpc => exact flow_of_place hpc rfl rfl rfl rfl
  | toAccepted hpc => exact flow_of_place hpc rfl rfl rfl rfl
  | notFound hpc => exact .drops (by rw [hpc]; rfl) (by rw [pending_of_main hpc]; rfl) rfl
  | lockUsing hpc => exact flow_of_place hpc rfl rfl rfl rfl
  | found hpc => exact flow_of_place hpc rfl rfl rfl rfl
  | missed hpc => exact .drops (by rw [hpc]; rfl) (by rw [pending_of_main hpc]; rfl) rfl
  | enterKnown hpc => exact .keeps (by rw [pending_of_main hpc, hpc]; rfl) rfl
  | enterUnknown hpc => exact .keeps (by rw [pending_of_main hpc, hpc]; rfl) rfl
  | lock hpc => exact flow_of_place hpc rfl rfl rfl rfl
  | first hpc => exact flow_of_place hpc rfl rfl rfl rfl
  | consume hpc => exact flow_of_place hpc rfl rfl rfl rfl
  | unlock hpc => exact flow_of_place hpc (popped_afterUnlock _ _ _) rfl rfl rfl
  | parseShort hpc => exact flow_of_place hpc rfl rfl rfl rfl
  | parse hpc => exact flow_of_place hpc (popped_loopHead _ _ _) rfl rfl rfl
  | handle hpc => exact flow_of_place hpc rfl rfl rfl rfl
  | leave hpc => exact flow_of_place hpc rfl rfl rfl rfl
  | gone huses =>
    obtain ⟨hpopped, hcallback⟩ := MainPc.quiet_of_uses huses
    exact flow_of_place rfl hpopped.symm (hcallback _ _) rfl rfl
  | fillData hpc hreader =>
    refine .reads rfl (pending_push .tcpRead rfl rfl) rfl (live_of_reader ?_ ?_)
    · rw [hreader]
      rfl
    · rw [hpc]
      exact ContextPc.noConfusion
  | @push _ id inside hpc =>
    have herased : v.context.erased = some id := by
      rw [hpc]
      rfl
    refine .disconnects rfl (pending_push .tcpDisconnection rfl rfl) rfl (.inr (.inl herased)) ?_
    refine not_live_push h hout herased rfl ?_
    cases inside with
    | true => rfl
    | false => rfl
  | accept _ hid => exact .connects rfl (pending_push .tcpConnection rfl rfl) rfl hid
  | teardownSingle hpc hsome =>
    refine .disconnects rfl (pending_push .tcpDisconnection rfl rfl) rfl
      (live_of_reader (r := .outgoing _) hsome ?_) (not_live_reset h hsome rfl rfl)
    rw [hpc]
    exact ContextPc.noConfusion
  | _ => exact .keeps rfl rfl

/-! ## Connections that are there -/

theorem ids_of_live (h : Inv v) (hlive : v.Live id) : id ∈ v.ids := by
  rcases hlive with haccepted | herased | ⟨houtgoing, -⟩
  · exact h.ids (.accepted id) haccepted
  · exact (h.erased id herased).1
  · exact h.ids (.outgoing id) houtgoing

/-- No step makes an outgoing connection. -/
theorem outgoing_of_move (hm : Move v a w) (h : (w.reader (.outgoing id)).isSome) :
    (v.reader (.outgoing id)).isSome := by
  cases readers_of_move hm with
  | keeps hkeeps _ => rwa [hkeeps] at h
  | erases _ hreader _ _ _ _ _ _ _ =>
    rw [hreader, Function.update_of_ne (by simp)] at h
    exact h
  | resets _ hreader _ _ _ _ _ _ =>
    rw [hreader] at h
    cases h
  | adds _ hreader _ _ _ _ _ _ =>
    rw [hreader, Function.update_of_ne (by simp)] at h
    exact h

/-- A connection about to be reset stays so until it is. -/
theorem reset_of_move (hm : Move v a w) (hpc : v.context = .reset id) :
    w.context = .reset id ∨ w.reader (.outgoing id) = none := by
  cases hm with
  | reset => exact .inr rfl
  | contextLock h | contextLockGone h | fillError h | fillData h | fillEmpty h | fillGone h
  | contextUnlock h | contextUnlockGone h | contextGuard h | erase h | contextUnguard h | push h
  | accept h | readEvent h | teardown h | disconnectAsked h | disconnectIgnored h
  | teardownSingle h => cases hpc.symm.trans h
  | _ => exact .inl hpc

/-- An erased connection has no outgoing one of its id beside it. -/
theorem erased_outgoing_move (h : Inv v) (hout : ∀ id, v.context.erased = some id →
    v.reader (.outgoing id) = none) (hm : Move v a w) (herased : w.context.erased = some id) :
    w.reader (.outgoing id) = none := by
  have hnone : v.reader (.outgoing id) = none := by
    rcases erased_of_move hm herased with herased | ⟨⟨inside, hpc⟩, -⟩
    · exact hout id herased
    · exact h.disjoint id (h.works (.accepted id) (by rw [hpc]; rfl))
  rw [← Option.not_isSome_iff_eq_none]
  intro hsome
  have := outgoing_of_move hm hsome
  rw [hnone] at this
  cases this

/-- No connection under an id in use comes back. -/
theorem live_of_move (h : Inv v) (hm : Move v a w) (hid : id ∈ v.ids) (hlive : w.Live id) :
    v.Live id := by
  rcases hlive with haccepted | herased | ⟨houtgoing, hne⟩
  · left
    cases hv : v.reader (.accepted id) with
    | some reader => rfl
    | none =>
      rw [(readers_of_move hm).stays_gone hid hv] at haccepted
      cases haccepted
  · rcases erased_of_move hm herased with herased | ⟨⟨inside, hpc⟩, -⟩
    · exact .inr (.inl herased)
    · exact .inl (h.works (.accepted id) (by rw [hpc]; rfl))
  · refine .inr (.inr ⟨outgoing_of_move hm houtgoing, ?_⟩)
    intro hpc
    rcases reset_of_move hm hpc with hreset | hnone
    · exact hne hreset
    · rw [hnone] at houtgoing
      cases houtgoing

/-! ## The callbacks of one connection -/

open Protocol

/-- The callbacks made and pending of a connection follow the protocol. They have begun once it has
an id, and they have ended only where it is no longer there. -/
def Obeys (log : List (TcpCallback × Uuid)) (v : View) (id : Uuid) : Prop :=
  ∃ p, run Phase.next .fresh (eventsOf id log) = some p ∧ (p = .fresh ↔ id ∉ v.ids) ∧
    (p = .disconnected → ¬ v.Live id)

variable {log log' : List (TcpCallback × Uuid)}

/-- A connection that is there is connected. -/
theorem Obeys.connected (h : Obeys log v id) (hinv : Inv v) (hlive : v.Live id) :
    run Phase.next .fresh (eventsOf id log) = some .connected := by
  obtain ⟨p, hp, hfresh, hdisconnected⟩ := h
  cases p with
  | fresh => exact absurd (ids_of_live hinv hlive) (hfresh.mp rfl)
  | connected => exact hp
  | disconnected => exact absurd hlive (hdisconnected rfl)

theorem Obeys.fresh (h : Obeys log v id) (hid : id ∉ v.ids) :
    run Phase.next .fresh (eventsOf id log) = some .fresh := by
  obtain ⟨p, hp, hfresh, -⟩ := h
  rw [hp, hfresh.mpr hid]

/-- Nothing happened to a connection. -/
theorem Obeys.congr (h : Obeys log v id)
    (hrun : ∀ p, run Phase.next .fresh (eventsOf id log) = some p →
      run Phase.next .fresh (eventsOf id log') = some p)
    (hids : id ∈ w.ids ↔ id ∈ v.ids) (hlive : id ∈ v.ids → w.Live id → v.Live id) :
    Obeys log' w id := by
  obtain ⟨p, hp, hfresh, hdisconnected⟩ := h
  refine ⟨p, hrun p hp, by rw [hfresh, hids], ?_⟩
  intro hp' hlive'
  have hid : id ∈ v.ids := by
    by_contra hid
    cases (hfresh.mpr hid).symm.trans hp'
  exact hdisconnected hp' (hlive hid hlive')

/-- Data on its way is dropped. -/
theorem Obeys.drop {i : Uuid} {calls rest : List (TcpCallback × Uuid)}
    (h : Obeys (calls ++ (.onTcpData, i) :: rest) v id)
    (hids : id ∈ w.ids ↔ id ∈ v.ids) (hlive : id ∈ v.ids → w.Live id → v.Live id) :
    Obeys (calls ++ rest) w id := by
  have hloop : ∀ p q, Phase.next p .onTcpData = some q → q = p := by
    intro p q h
    cases p <;> cases h
    rfl
  refine h.congr ?_ hids hlive
  intro p hp
  rw [eventsOf_append] at hp ⊢
  by_cases heq : i = id
  · rw [heq, eventsOf_cons_self] at hp
    exact run_drop hloop hp
  · rwa [eventsOf_cons_ne heq] at hp

/-- A callback of another connection is appended. -/
theorem Obeys.push_ne {i : Uuid} {k : TcpCallback} (h : Obeys log v id) (hne : i ≠ id)
    (hids : id ∈ w.ids ↔ id ∈ v.ids) (hlive : id ∈ v.ids → w.Live id → v.Live id) :
    Obeys (log ++ [(k, i)]) w id := by
  refine h.congr ?_ hids hlive
  intro p hp
  rwa [eventsOf_append, eventsOf_cons_ne hne, eventsOf_nil, List.append_nil]

/-- A callback of the connection itself is appended. -/
theorem Obeys.push {k : TcpCallback} {p q : Phase}
    (hrun : run Phase.next .fresh (eventsOf id log) = some p) (hnext : Phase.next p k = some q)
    (hids : q = .fresh ↔ id ∉ w.ids) (hlive : q = .disconnected → ¬ w.Live id) :
    Obeys (log ++ [(k, id)]) w id := by
  refine ⟨q, ?_, hids, hlive⟩
  rw [eventsOf_append, eventsOf_cons_self, eventsOf_nil, run_concat, hrun]
  exact hnext

/-- A new connection is announced. -/
theorem Obeys.connect {i : Uuid} (h : Obeys log v id) (hi : i ∉ v.ids)
    (hids : w.ids = i :: v.ids) (hlive : id ∈ v.ids → w.Live id → v.Live id) :
    Obeys (log ++ [(.onTcpConnection, i)]) w id := by
  by_cases heq : i = id
  · subst heq
    refine Obeys.push (h.fresh hi) rfl ?_ ?_
    · rw [hids]
      simp
    · intro hp
      cases hp
  · refine h.push_ne heq ?_ hlive
    rw [hids, List.mem_cons]
    exact or_iff_right (Ne.symm heq)

/-- One step: the callbacks of every connection go on following the protocol. -/
theorem obeys_of_flow {calls : List (TcpCallback × Uuid)} (hinv : Inv v) (hflow : Flow v a w)
    (hlive : ∀ id ∈ v.ids, w.Live id → v.Live id) (h : ∀ id, Obeys (calls ++ v.pending) v id)
    (id : Uuid) :
    Obeys (calls ++ (callback v.main v.events a).toList ++ w.pending) w id := by
  cases hflow with
  | keeps hpending hids =>
    rw [List.append_assoc, ← hpending]
    exact (h id).congr (fun _ hp => hp) (by rw [hids]) (hlive id)
  | drops hcallback hpending hids =>
    rw [hcallback, Option.toList_none, List.append_nil]
    have hobeys := h id
    rw [hpending] at hobeys
    exact hobeys.drop (by rw [hids]) (hlive id)
  | @reads i hcallback hpending hids hi =>
    rw [hcallback, Option.toList_none, List.append_nil, hpending, ← List.append_assoc]
    by_cases heq : i = id
    · subst heq
      refine Obeys.push ((h i).connected hinv hi) rfl ?_ (fun hp => by cases hp)
      simp [hids, ids_of_live hinv hi]
    · exact (h id).push_ne heq (by rw [hids]) (hlive id)
  | @disconnects i hcallback hpending hids hi hgone =>
    rw [hcallback, Option.toList_none, List.append_nil, hpending, ← List.append_assoc]
    by_cases heq : i = id
    · subst heq
      refine Obeys.push ((h i).connected hinv hi) rfl ?_ (fun _ => hgone)
      simp [hids, ids_of_live hinv hi]
    · exact (h id).push_ne heq (by rw [hids]) (hlive id)
  | connects hcallback hpending hids hi =>
    rw [hcallback, Option.toList_none, List.append_nil, hpending, ← List.append_assoc]
    exact (h id).connect hi hids (hlive id)

/-! ## What the callbacks look like -/

/-- Connected once, any data, disconnected at most once and nothing after. -/
def Ordered (calls : List TcpCallback) : Prop :=
  calls = [] ∨ ∃ n, calls = .onTcpConnection :: List.replicate n .onTcpData ∨
    calls = .onTcpConnection :: (List.replicate n .onTcpData ++ [.onTcpDisconnection])

theorem run_disconnected {calls : List TcpCallback} {p : Phase}
    (h : run Phase.next .disconnected calls = some p) : calls = [] := by
  cases calls with
  | nil => rfl
  | cons k calls => cases k <;> cases h

/-- A connected one has any data, and then a disconnection or none. -/
theorem run_connected {calls : List TcpCallback} {p : Phase}
    (h : run Phase.next .connected calls = some p) : p ≠ .fresh ∧
      ∃ n, calls = List.replicate n .onTcpData ∨
        calls = List.replicate n .onTcpData ++ [.onTcpDisconnection] := by
  induction calls with
  | nil =>
    cases h
    exact ⟨Phase.noConfusion, 0, .inl rfl⟩
  | cons k calls ih =>
    cases k with
    | onTcpConnection => cases h
    | onTcpData =>
      obtain ⟨hp, n, hn⟩ := ih h
      refine ⟨hp, n + 1, ?_⟩
      rw [List.replicate_succ]
      exact hn.imp (congrArg _) (congrArg _)
    | onTcpDisconnection =>
      have hnil : calls = [] := run_disconnected h
      subst hnil
      cases h
      exact ⟨Phase.noConfusion, 0, .inr rfl⟩

theorem run_fresh {calls : List TcpCallback} {p : Phase}
    (h : run Phase.next .fresh calls = some p) :
    Ordered calls ∧ (p = .fresh ↔ calls = []) ∧
      (calls ≠ [] → calls.head? = some .onTcpConnection) := by
  cases calls with
  | nil =>
    cases h
    exact ⟨.inl rfl, by simp, by simp⟩
  | cons k calls =>
    cases k with
    | onTcpConnection =>
      obtain ⟨hp, n, hn⟩ := run_connected h
      refine ⟨.inr ⟨n, hn.imp (congrArg _) (congrArg _)⟩, by simp [hp], fun _ => rfl⟩
    | onTcpData => cases h
    | onTcpDisconnection => cases h

/-! ## The steps of the main thread alone -/

theorem made_of_move (hm : Move v a w) : w.ids = a.made.toList ++ v.ids ∧
    ∀ id ∈ a.made, id ∉ v.ids := by
  cases hm with
  | accept _ hid =>
    refine ⟨rfl, ?_⟩
    rintro _ ⟨⟩
    exact hid
  | _ => exact ⟨rfl, fun _ h => by cases h⟩

theorem context_of_ofMain (hm : Move v a w) (ha : a.ofMain = true) : w.context = v.context := by
  cases hm <;> first | rfl | cases ha

/-- The outgoing connection is made. -/
def View.connected (v : View) (id : Uuid) : View :=
  { v with
    reader := Function.update v.reader (.outgoing id) (some BufReader.new)
    events := v.events ++ [(.tcpConnection, id)]
    ids := id :: v.ids }

theorem View.reader_connected_accepted (v : View) (id id' : Uuid) :
    (v.connected id).reader (.accepted id') = v.reader (.accepted id') := by
  simp [View.connected]

theorem View.reader_connected_outgoing (v : View) {id id' : Uuid} (h : id' ≠ id) :
    (v.connected id).reader (.outgoing id') = v.reader (.outgoing id') :=
  Function.update_of_ne (by simpa using h) _ _

theorem inv_connected (h : Inv v) (hidle : v.context = .idle) (hid : id ∉ v.ids) :
    Inv (v.connected id) where
  locks := agrees_main h.locks rfl rfl rfl
  guarded id' hinside := by
    rw [v.reader_connected_accepted]
    exact h.guarded id' hinside
  works r hworks := by
    rw [show (v.connected id).context = .idle from hidle] at hworks
    cases hworks
  ids r hsome := by
    by_cases heq : r = .outgoing id
    · rw [heq]
      exact List.mem_cons_self
    · rw [show (v.connected id).reader r = v.reader r from Function.update_of_ne heq _ _] at hsome
      exact List.mem_cons_of_mem _ (h.ids r hsome)
  disjoint id' hsome := by
    rw [v.reader_connected_accepted] at hsome
    have hne : id' ≠ id := by
      rintro rfl
      exact hid (h.ids _ hsome)
    rw [v.reader_connected_outgoing hne]
    exact h.disjoint id' hsome
  queued e hmem := by
    rcases List.mem_append.mp hmem with hmem | hmem
    · exact List.mem_cons_of_mem _ (h.queued e hmem)
    · rw [List.mem_singleton.mp hmem]
      exact List.mem_cons_self
  onIds id' hon := List.mem_cons_of_mem _ (h.onIds id' hon)
  fresh r hfresh := h.fresh r fun hr => hfresh (List.mem_cons_of_mem _ hr)
  announced id' hmem := by
    rw [v.reader_connected_accepted]
    rcases List.mem_append.mp hmem with hmem | hmem
    · exact h.announced id' hmem
    · cases List.mem_singleton.mp hmem
  erased id' herased := by
    rw [show (v.connected id).context = .idle from hidle] at herased
    cases herased

theorem live_of_connected {id' : Uuid} (hne : id' ≠ id) (hlive : (v.connected id).Live id') :
    v.Live id' := by
  rcases hlive with haccepted | herased | ⟨houtgoing, hcontext⟩
  · rw [v.reader_connected_accepted] at haccepted
    exact .inl haccepted
  · exact .inr (.inl herased)
  · rw [v.reader_connected_outgoing hne] at houtgoing
    exact .inr (.inr ⟨houtgoing, hcontext⟩)

/-- `handle_events` is called again: an exception has released the guard. -/
theorem inv_restart (h : Inv v) (hpc : v.main = .halted) : Inv { v with main := .idle } where
  locks := agrees_main h.locks rfl rfl (by rw [hpc]; rfl)
  guarded _ hinside := by cases hinside
  works := h.works
  ids := h.ids
  disjoint := h.disjoint
  queued := h.queued
  onIds _ hon := by cases hon
  fresh := h.fresh
  announced := h.announced
  erased := h.erased

theorem pending_restart (hpc : v.main = .halted) : ({ v with main := .idle } : View).pending =
    v.pending := by
  rw [pending_of_main hpc]
  rfl

namespace Life

variable {s t : Life} {transformNumber : UInt64 → UInt64}

/-- `connect_tcp` does nothing, or it makes the outgoing connection where there is none. -/
theorem connectTcp_cases (s : Life) (connect : Except ErrorCode Fd)
    (hid : id ∉ s.system.server.generatedUUIDs) : s.connectTcp connect id = s ∨
      (s.running = false ∧ (s.connectTcp connect id).system.view = s.system.view.connected id ∧
        (s.connectTcp connect id).made = s.made ++ [id]) := by
  rcases BaseServer.connectTcp_cases s.running s.system.server.toBaseServer connect id with
    hsame | ⟨hrunning, hnone, fd, -, hconnect⟩
  · left
    unfold connectTcp System.base
    simp only [hsame, if_neg hid]
  · right
    unfold connectTcp System.base
    simp only [hconnect]
    refine ⟨hrunning, ?_, if_pos List.mem_cons_self⟩
    refine View.ext ?_ rfl rfl rfl rfl rfl rfl rfl rfl rfl rfl
    funext ⟨kind, id'⟩
    cases kind with
    | accepted =>
      rw [View.reader_connected_accepted]
      rfl
    | outgoing =>
      by_cases heq : id' = id
      · subst heq
        simp [View.connected, System.view, System.reader, BaseServer.connection,
          BaseServer.pushEvent, TcpConnection.new, Option.filter]
      · rw [View.reader_connected_outgoing _ heq]
        simp [System.view, System.reader, BaseServer.connection, BaseServer.pushEvent, hnone,
          Option.filter, Ne.symm heq]

/-- What holds of every reachable state. -/
structure Ok (s : Life) : Prop where
  consistent : s.system.Consistent
  inv : Inv s.system.view
  erased : ∀ id, s.system.context.erased = some id → s.system.reader (.outgoing id) = none
  /-- The callbacks of every connection, made and pending, follow the protocol. -/
  obeys : ∀ id, Obeys (s.callbacks ++ s.system.view.pending) s.system.view id
  /-- The ids of the connections made are those given out, and none was given out twice. -/
  made : s.made = s.system.server.generatedUUIDs.reverse
  nodup : s.system.server.generatedUUIDs.Nodup
  stopped : s.running = false → s.system.context = .idle

theorem ok_of_starts (h : Starts s) : Ok s := by
  have hevents : s.system.server.tcpEvents = [] := by
    rcases h.system.outgoing with ⟨-, hevents⟩ | ⟨id, fd, hsome, -, -⟩
    · exact hevents
    · rw [h.tcpConnection] at hsome
      cases hsome
  refine ⟨?_, inv_of_starts h.system, ?_, ?_, ?_, ?_, fun _ => h.system.context⟩
  · exact System.consistent (Machine.ReachUnder.init (M := System.machine id) h.system)
  · intro id herased
    rw [h.system.context] at herased
    cases herased
  · intro id
    have hpending : s.system.view.pending = [] := by
      rw [pending_of_main (v := s.system.view) h.system.main,
        show s.system.view.events = [] from hevents]
      rfl
    refine ⟨.fresh, ?_, ?_, fun h => by cases h⟩
    · rw [h.callbacks, hpending]
      rfl
    · rw [show s.system.view.ids = [] from h.generatedUUIDs]
      simp
  · rw [h.made, h.generatedUUIDs]
    rfl
  · rw [h.generatedUUIDs]
    exact List.nodup_nil

theorem ok_act (h : Ok s) {a : Act} {system : System}
    (hadmitted : a.ofMain = true ∨ s.running = true)
    (hstep : s.system.step transformNumber a = some system) : Ok (s.act a system) := by
  obtain ⟨hmove, hconsistent⟩ := System.move_of_step h.consistent hstep
  obtain ⟨hids, hfresh⟩ := made_of_move hmove
  have hids : system.server.generatedUUIDs = a.made.toList ++ s.system.server.generatedUUIDs := hids
  refine ⟨hconsistent, inv_move h.inv hmove, fun id => erased_outgoing_move h.inv h.erased hmove,
    ?_, ?_, ?_, ?_⟩
  · exact obeys_of_flow h.inv (flow_of_move h.inv h.erased hmove)
      (fun id => live_of_move h.inv hmove) h.obeys
  · show s.made ++ a.made.toList = system.server.generatedUUIDs.reverse
    rw [hids, List.reverse_append, h.made]
    cases a.made <;> rfl
  · show system.server.generatedUUIDs.Nodup
    rw [hids]
    cases hmade : a.made with
    | none => exact h.nodup
    | some id => exact List.nodup_cons.mpr ⟨hfresh id hmade, h.nodup⟩
  · intro hrunning
    have hmain : a.ofMain = true := hadmitted.resolve_right (by
      rw [show s.running = false from hrunning]
      exact Bool.false_ne_true)
    exact (context_of_ofMain hmove hmain).trans (h.stopped hrunning)

theorem ok_connectTcp (h : Ok s) {connect : Except ErrorCode Fd}
    (hid : id ∉ s.system.server.generatedUUIDs) : Ok (s.connectTcp connect id) := by
  rcases s.connectTcp_cases connect hid with hsame | ⟨hrunning, hview, hmade⟩
  · rwa [hsame]
  have hidle := h.stopped hrunning
  have hids : (s.connectTcp connect id).system.server.generatedUUIDs =
      id :: s.system.server.generatedUUIDs := congrArg View.ids hview
  refine ⟨⟨h.consistent.sorted, h.consistent.given⟩, ?_, ?_, ?_, ?_, ?_, fun _ => hidle⟩
  · rw [hview]
    exact inv_connected h.inv hidle hid
  · intro id' herased
    rw [show (s.connectTcp connect id).system.context = .idle from hidle] at herased
    cases herased
  · intro id'
    rw [hview, pending_push (v := s.system.view) (w := s.system.view.connected id) .tcpConnection
      rfl rfl, ← List.append_assoc]
    refine (h.obeys id').connect hid rfl ?_
    intro hid' hlive
    have hne : id' ≠ id := by
      rintro rfl
      exact hid hid'
    exact live_of_connected hne hlive
  · rw [hmade, hids, h.made, List.reverse_cons]
  · rw [hids]
    exact List.nodup_cons.mpr ⟨hid, h.nodup⟩

theorem ok_step (h : Ok s) {l : Label} (hstep : s.step transformNumber l = some t) : Ok t := by
  cases l with
  | act a =>
    simp only [step] at hstep
    split at hstep
    next hadmitted =>
      obtain ⟨system, hsystem, rfl⟩ := Option.map_eq_some_iff.mp hstep
      exact ok_act h (by simpa using hadmitted) hsystem
    · cases hstep
  | connectTcp connect id =>
    simp only [step] at hstep
    split at hstep
    · cases hstep
    next hid =>
      cases hstep
      exact ok_connectTcp h hid
  | startContext =>
    simp only [step] at hstep
    split at hstep
    · cases hstep
    · cases hstep
      exact ⟨⟨h.consistent.sorted, h.consistent.given⟩, h.inv, h.erased, h.obeys, h.made,
        h.nodup, fun hrunning => by cases hrunning⟩
  | stopContext =>
    simp only [step] at hstep
    split at hstep
    next hidle =>
      cases hstep
      exact ⟨h.consistent, h.inv, h.erased, h.obeys, h.made, h.nodup, fun _ => hidle⟩
    · cases hstep
  | handleEvents =>
    simp only [step] at hstep
    split at hstep
    next hhalted =>
      cases hstep
      refine ⟨h.consistent, inv_restart h.inv hhalted, h.erased, ?_, h.made, h.nodup, h.stopped⟩
      intro id
      have hpending := pending_restart (v := s.system.view) hhalted
      show Obeys (s.callbacks ++ ({ s.system.view with main := .idle } : View).pending) _ id
      rw [hpending]
      exact h.obeys id
    · cases hstep

theorem ok_of_reach (h : (machine transformNumber).Reach s) : Ok s :=
  Machine.Reach.invariant (fun _ => ok_of_starts) (fun _ _ _ hok hstep => ok_step hok hstep) h

/-! ## The protocol -/

/-- The callbacks made for a connection, in order. -/
def callbacksOf (s : Life) (id : Uuid) : List TcpCallback := eventsOf id s.callbacks

/-- The callbacks of a server are those of its connections. -/
structure CallbackProtocol (s : Life) : Prop where
  /-- No two connections have the same id. -/
  unique : s.made.Nodup
  /-- Connected, any data, disconnected at most once and nothing after. -/
  ordered : ∀ id, Ordered (s.callbacksOf id)
  /-- Only a connection is called back. -/
  made : ∀ id, id ∉ s.made → s.callbacksOf id = []
  /-- Every connection was announced, or will be: its event is queued. -/
  announced : ∀ id ∈ s.made, .onTcpConnection ∈ s.callbacksOf id ∨
    (.tcpConnection, id) ∈ s.system.server.tcpEvents

/-- **The callbacks of every connection are in order**, in every run of both threads: a connection
is announced before anything else is told of it, its end is told last and at most once, and no id is
given to two connections. -/
theorem callbackProtocol_of_reach (h : (machine transformNumber).Reach s) : s.CallbackProtocol := by
  have hok := ok_of_reach h
  have hids (id : Uuid) : id ∈ s.made ↔ id ∈ s.system.view.ids := by
    rw [hok.made, List.mem_reverse]
    rfl
  refine ⟨?_, ?_, ?_, ?_⟩
  · rw [hok.made]
    exact List.nodup_reverse.mpr hok.nodup
  · intro id
    obtain ⟨p, hp, -, -⟩ := hok.obeys id
    rw [eventsOf_append] at hp
    obtain ⟨r, hr⟩ := run_left hp
    exact (run_fresh hr).1
  · intro id hid
    have hp := (hok.obeys id).fresh (by rwa [← hids])
    have hnil := (run_fresh hp).2.1.mp rfl
    rw [eventsOf_append] at hnil
    exact (List.append_eq_nil_iff.mp hnil).1
  · intro id hid
    obtain ⟨p, hp, hfresh, -⟩ := hok.obeys id
    obtain ⟨-, hnil, hhead⟩ := run_fresh hp
    have hne : eventsOf id (s.callbacks ++ s.system.view.pending) ≠ [] := by
      intro heq
      exact hfresh.mp (hnil.mpr heq) ((hids id).mp hid)
    have hmem := List.mem_of_mem_head? (hhead hne)
    rw [eventsOf_append] at hmem
    exact (List.mem_append.mp hmem).imp_right fun h => mem_events_of_pending (mem_eventsOf.mp h)

/-! ## A connection and its callbacks -/

/-- A server just made. -/
def fresh : Life := ⟨{ System.started with server :=
  { System.started.server with toBaseServer := BaseServer.new } }, false, [], []⟩

theorem starts_fresh : Starts fresh :=
  ⟨⟨rfl, .inl ⟨rfl, rfl⟩, rfl, rfl, rfl, rfl, rfl, rfl, rfl⟩, rfl, rfl, rfl, rfl, rfl⟩

/-- Connection 5 is made before the context runs, its peer sends a byte, and a poll error ends it;
connection 6 is accepted meanwhile. -/
theorem callbackProtocol_outgoing : ∃ s : Life,
    s.callbacks = [(.onTcpConnection, 5), (.onTcpData, 5), (.onTcpConnection, 6),
      (.onTcpDisconnection, 5)] ∧ s.made = [5, 6] ∧ s.CallbackProtocol := by
  let main : Label := .act (.main System.draw)
  let context : Label := .act (.context (.ok [1]))
  let outgoing : ReaderRef := .outgoing 5
  obtain ⟨s, hreach, hs⟩ := Machine.reachUnder_of_exec
    (M := machine Server.transformNumberFunction) (G := Machine.Any)
    (l := [.connectTcp (.ok 4) 5, .startContext, main, .act (.readEvent outgoing), context, context,
      context, .act (.accept 6 7), main, main, main, main, main, main, main, .act .teardownSingle,
      context, .act (.main ⟨8, 88, 0⟩), main])
    (p := fun s => s.callbacks = [(.onTcpConnection, 5), (.onTcpData, 5), (.onTcpConnection, 6),
      (.onTcpDisconnection, 5)] ∧ s.made = [5, 6])
    starts_fresh (by decide +kernel)
  obtain ⟨hcallbacks, hmade⟩ := of_decide_eq_true hs
  exact ⟨s, hcallbacks, hmade, callbackProtocol_of_reach hreach⟩

end Life

end ProjectE.Threads
