import ProjectE.Lib.Transition
import ProjectE.Net.BaseServer

/-!
# The context loop

`context_loop` as a machine: the place the loop has come to is part of the state, so the handlers
run in the order the source gives them, one turn of an inner loop a step. Between any two steps the
main thread may push to the queues it shares with the loop. A poll answers only events of its table,
and a drawn id is one `new_uuid` has not given out before.
-/

namespace ProjectE.Net

open Verif

/-- Where the loop is: before `prepare_write`, in the batch of poll events, in
`handle_disconnection`, in the loop over the send queue, or out. -/
inductive LoopPos where
  | prepare
  | batch (events : List PollEvent)
  | disconnections
  | sends
  | stopped
deriving DecidableEq, Repr

/-- The server and the loop over it; `sendCalls` records the calls of `send_tcp` made so far. The
reader's side of the main thread is left out here. -/
structure ContextLoop where
  server : BaseServer
  pos : LoopPos
  sendCalls : List (Uuid × List UInt8)
deriving DecidableEq

namespace ContextLoop

/-- The two calls of the main thread that the loop answers to, and the steps of the loop. -/
inductive Label where
  /-- The main thread calls `send_tcp`. -/
  | sendTcp (id : Uuid) (data : List UInt8)
  /-- The main thread calls `ask_disconnect`. -/
  | askDisconnect (id : Uuid)
  /-- The loop prepares the poll table and waits for its events. -/
  | wait (events : Except ErrorCode (List PollEvent))
  /-- The loop takes one turn of the inner loop it is in. -/
  | turn (os : OsAnswers)

/-- A poll answers events that were asked for, and errors, of descriptors in its table. -/
def answers (poll : Poll) (event : PollEvent) : Bool :=
  poll.fds.any fun pfd => pfd.fd = event.fd &&
    match event.type with
    | .read => pfd.pollin
    | .write => pfd.pollout
    | .error => true

/-- One turn of the loop over the batch. -/
def turnBatch (isValidUdpMessage : List UInt8 → Bool) (s : ContextLoop) (os : OsAnswers) :
    List PollEvent → Option ContextLoop
  | [] => some { s with pos := .disconnections }
  | event :: rest =>
    if os.newUuid ∈ s.server.generatedUUIDs then none
    else some { s with
      server := s.server.handleEvent isValidUdpMessage event os
      pos := .batch rest }

/-- What a step does. A turn is one of the inner loop the thread is in; an inner loop with nothing
left is left by its next turn. -/
def step (isValidUdpMessage : List UInt8 → Bool) (s : ContextLoop) : Label → Option ContextLoop
  | .sendTcp id data => some { s with
      server := s.server.sendTcp id data
      sendCalls := s.sendCalls ++ [(id, data)] }
  | .askDisconnect id => some { s with server := s.server.askDisconnect id }
  | .wait events =>
    match s.pos with
    | .prepare =>
      let server := s.server.prepareWrite
      match events with
      | .error _ => some { s with server := server, pos := .stopped }
      | .ok batch =>
        if batch.all (answers server.poll) then
          some { s with server := server, pos := .batch batch }
        else none
    | _ => none
  | .turn os =>
    match s.pos with
    | .batch events => s.turnBatch isValidUdpMessage os events
    | .disconnections =>
      if s.server.disconnectQueue.isEmpty then some { s with pos := .sends }
      else some { s with server := s.server.handleDisconnection }
    | .sends =>
      if s.server.sendTcpQueue.isEmpty then some { s with pos := .prepare }
      else some { s with server := s.server.appendQueued }
    | _ => none

/-- The loop starts with no accepted connection and empty queues. -/
def Starts (s : ContextLoop) : Prop :=
  s.server.tcpConnections = ∅ ∧ s.server.sendTcpQueue = [] ∧ s.server.disconnectQueue = [] ∧
    s.pos = .prepare ∧ s.sendCalls = []

/-- The runs of the loop, from a server without connections or requests. -/
def machine (isValidUdpMessage : List UInt8 → Bool) : Machine ContextLoop Label where
  init := Starts
  step := step isValidUdpMessage

/-- What a step does to the server, and to the record of calls. -/
inductive Effect (isValidUdpMessage : List UInt8 → Bool) (s t : ContextLoop) : Label → Prop
  | sendTcp {id data} : t.server = s.server.sendTcp id data →
      t.sendCalls = s.sendCalls ++ [(id, data)] → Effect isValidUdpMessage s t (.sendTcp id data)
  | askDisconnect {id} : t.server = s.server.askDisconnect id → t.sendCalls = s.sendCalls →
      Effect isValidUdpMessage s t (.askDisconnect id)
  | wait {events} : t.server = s.server.prepareWrite → t.sendCalls = s.sendCalls →
      Effect isValidUdpMessage s t (.wait events)
  | event {os} (event) : t.server = s.server.handleEvent isValidUdpMessage event os →
      t.sendCalls = s.sendCalls → Effect isValidUdpMessage s t (.turn os)
  | disconnection {os} : t.server = s.server.handleDisconnection → t.sendCalls = s.sendCalls →
      Effect isValidUdpMessage s t (.turn os)
  | append {os} : s.pos = .sends → t.server = s.server.appendQueued → t.sendCalls = s.sendCalls →
      Effect isValidUdpMessage s t (.turn os)
  | leave {os} : t.server = s.server → t.sendCalls = s.sendCalls →
      Effect isValidUdpMessage s t (.turn os)

theorem effect_of_step {isValidUdpMessage : List UInt8 → Bool} {s t : ContextLoop} {a : Label}
    (h : s.step isValidUdpMessage a = some t) : Effect isValidUdpMessage s t a := by
  cases a with
  | sendTcp id data =>
    cases h
    exact .sendTcp rfl rfl
  | askDisconnect id =>
    cases h
    exact .askDisconnect rfl rfl
  | wait events =>
    simp only [step] at h
    split at h
    · split at h
      · cases h
        exact .wait rfl rfl
      · split at h
        · cases h
          exact .wait rfl rfl
        · cases h
    · cases h
  | turn os =>
    simp only [step] at h
    split at h
    next events hpos =>
      cases events with
      | nil =>
        cases h
        exact .leave rfl rfl
      | cons event rest =>
        simp only [turnBatch] at h
        split at h
        · cases h
        · cases h
          exact .event event rfl rfl
    · split at h
      · cases h
        exact .leave rfl rfl
      · cases h
        exact .disconnection rfl rfl
    next hpos =>
      split at h
      · cases h
        exact .leave rfl rfl
      · cases h
        exact .append hpos rfl rfl
    · cases h

end ContextLoop

end ProjectE.Net
