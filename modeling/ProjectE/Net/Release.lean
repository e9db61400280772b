import ProjectE.Net.Handed

/-!
# Descriptors over a whole life

Each close goes through `close_socket`, which calls `close` only where `shutdown` succeeds; whether
it does is an answer of the OS (`Closing.Label`). So a stream of the server is closed right only
where the first `shutdown` fails and the second succeeds, and a listener or a UDP socket only where
the one `shutdown` succeeds.

Every descriptor is closed once if every step does right (`ClosesLast`), and the first step that
does not spoils it. `close` itself always gives the number back.
-/

namespace ProjectE.Net

open Verif Protocol

/-- A server over its whole life, and the calls on descriptors made for it so far: `obtained` for
`socket` and `accept`, `used` for `shutdown`, and `released` for `close`. -/
structure Closing extends Context where
  calls : List (Custody.Event × Fd)
  destroyed : Bool
deriving DecidableEq

namespace Closing

open Custody
open Setup (Making)

/-- `oks` says which calls of `shutdown` in the step succeed, in their order. -/
inductive Label where
  /-- A call that makes a socket. -/
  | make (m : Making) (oks : List Bool)
  /-- Any other step of the server. -/
  | context (a : Context.Label) (oks : List Bool)
  /-- `~BaseServer`. -/
  | destroy (oks : List Bool)

namespace Label

/-- The answers of the OS to the calls of `shutdown` in the step. -/
def oks : Label → List Bool
  | .make _ oks => oks
  | .context _ oks => oks
  | .destroy oks => oks

/-- Whether it is the last step. -/
def destroys : Label → Bool
  | .destroy _ => true
  | _ => false

end Label

/-- The server holds the descriptor: it was obtained and not closed since. -/
def holds (s : Closing) (fd : Fd) : Bool := phase s.calls fd = some .held

/-- What the step obtains and closes. -/
def handed (s : Closing) : Label → Handed
  | .make m _ => m.handed s.setup
  | .context a _ => s.toContext.handed a
  | .destroy _ => ⟨[], s.server.destroyCloses⟩

/-- What the step leaves open without an owner. -/
def lost (s : Closing) : Label → List Fd
  | .make m _ => m.lost s.setup
  | _ => []

/-- What the step makes and does not give up, closed or not. -/
def kept (s : Closing) : Label → List Fd
  | .make m _ => (m.made s.setup).toList
  | _ => []

/-- What the step does to the server. The destructor stops the context before it closes anything. -/
def move (isValidUdpMessage : List UInt8 → Bool) (s : Closing) : Label → Option Context
  | .make m _ => s.toContext.step isValidUdpMessage m.label
  | .context a _ => if a.makes then none else s.toContext.step isValidUdpMessage a
  | .destroy _ => s.toContext.step isValidUdpMessage .stopContext

/-- The OS does not make a descriptor that is open, and the server's own stay open until they are
closed. -/
def step (isValidUdpMessage : List UInt8 → Bool) (s : Closing) (a : Label) : Option Closing :=
  let handed := s.handed a
  if s.destroyed || a.oks.length ≠ handed.closes.length ||
      handed.obtained.any (fun fd => s.holds fd || fd ∈ s.opened) then none
  else
    (s.move isValidUdpMessage a).map fun context =>
      { toContext := context
        calls := s.calls ++ handed.calls a.oks
        destroyed := a.destroys }

/-- A life begins with the constructor, before any call on a descriptor. -/
def machine (isValidUdpMessage : List UInt8 → Bool) : Machine Closing Label where
  init s := s.toContext.Starts ∧ s.calls = [] ∧ s.destroyed = false
  step := step isValidUdpMessage

/-- The server has the descriptor in one of its tables. -/
def Owned (s : Closing) (fd : Fd) : Prop := s.destroyed = false ∧ fd ∈ s.server.descriptors

/-- Nothing is done with a descriptor after it was closed, and at the end every one is closed. -/
structure ReleasedOnce (s : Closing) : Prop where
  allowed : ∀ fd, ∃ p, phase s.calls fd = some p
  closed : s.destroyed = true → ∀ fd, phase s.calls fd = some .free

/-- **The condition on a step**: of the calls that close one descriptor in it only the last
succeeds, or none if the server keeps the descriptor, and no socket is left open without an
owner. -/
def ClosesLast (s : Closing) (a : Label) : Prop :=
  s.lost a = [] ∧ ClosesRight (s.handed a).closes (s.kept a) a.oks

instance (s : Closing) (a : Label) : Decidable (ClosesLast s a) :=
  inferInstanceAs (Decidable (_ ∧ _))

/-- The step puts no socket in the place of another. -/
def KeepsSockets (s : Closing) : Label → Prop
  | .make m _ => m.replaced s.setup = []
  | _ => True

variable {isValidUdpMessage : List UInt8 → Bool} {s t u : Closing} {a : Label}

/-- While the server is there, its descriptors are those of its tables. -/
theorem owned_eq (h : s.destroyed = false) : s.Owned = (· ∈ s.server.descriptors) := by
  funext fd
  rw [Owned, h]
  simp

/-- After the destructor it has none. -/
theorem owned_eq_false (h : s.destroyed = true) : s.Owned = fun _ => False := by
  funext fd
  rw [Owned, h]
  simp

/-- What a step does to the owners and to the record of calls: descriptors are handed over as
`Transfer` has it, none that the server has open is obtained again, and each close has its own
answer of `shutdown`. -/
structure Moves (s t : Closing) (a : Label) : Prop where
  transfer : Transfer s.Owned t.Owned (s.handed a).obtained (s.lost a) (s.handed a).closes
    (s.kept a)
  length : a.oks.length = (s.handed a).closes.length
  unused : ∀ fd ∈ (s.handed a).obtained, phase s.calls fd ≠ some .held
  calls : t.calls = s.calls ++ made (s.handed a).obtained (s.handed a).closes a.oks
  inv : t.toContext.Inv

/-- Every step of the machine is one: its calls hand descriptors over as its tables say. -/
theorem moves_of_step (hs : s.toContext.Inv)
    (h : (machine isValidUdpMessage).step s a = some t) : Moves s t a := by
  simp only [machine, step] at h
  split at h
  · cases h
  next hguard =>
    obtain ⟨⟨halive, hlength⟩, hunused⟩ : (s.destroyed = false ∧
        a.oks.length = (s.handed a).closes.length) ∧
          ∀ fd ∈ (s.handed a).obtained, s.holds fd = false ∧ fd ∉ s.opened := by
      simpa using hguard
    obtain ⟨context, hcontext, heq⟩ := Option.map_eq_some_iff.mp h
    have hheld : ∀ fd ∈ (s.handed a).obtained, phase s.calls fd ≠ some .held := by
      intro fd hfd
      exact of_decide_eq_false (hunused fd hfd).1
    cases heq
    cases a with
    | make m oks =>
      refine ⟨?_, hlength, hheld, rfl, hs.step hcontext⟩
      rw [owned_eq halive, owned_eq rfl]
      refine Context.transfer_making hs ?_ hcontext
      intro fd hfd hmem
      exact (hunused fd hfd).2 (List.mem_append_left _ hmem)
    | context a oks =>
      simp only [move] at hcontext
      split at hcontext
      · cases hcontext
      next hother =>
        refine ⟨?_, hlength, hheld, rfl, hs.step hcontext⟩
        rw [owned_eq halive, owned_eq rfl]
        exact Context.transfer_of_step hs (Bool.eq_false_of_not_eq_true hother) hcontext
    | destroy oks =>
      have hstep : (Context.machine isValidUdpMessage).step s.toContext .stopContext =
          some context := hcontext
      refine ⟨?_, hlength, hheld, rfl, hs.step hstep⟩
      rw [owned_eq halive, owned_eq_false rfl]
      exact BaseServer.transfer_destroy s.server

/-- The tables are those of a server in every state of a life. -/
theorem inv_of_reach (h : (machine isValidUdpMessage).Reach s) : s.toContext.Inv := by
  refine Machine.Reach.invariant (I := fun s => s.toContext.Inv) ?_ ?_ h
  · intro s hinit
    exact Context.inv_of_starts hinit.1
  · intro s a t hs hstep
    exact (moves_of_step hs hstep).inv

/-- At the start nothing was obtained and nothing is owned. -/
theorem settled_of_starts (h : (machine isValidUdpMessage).init s) : Settled s.calls s.Owned := by
  obtain ⟨⟨hserver, -⟩, hcalls, -⟩ := h
  intro fd
  have hnot : ¬ s.Owned fd := by
    rw [Owned, hserver]
    rintro ⟨-, hmem⟩
    cases hmem
  rw [hcalls]
  exact ⟨fun howned => absurd howned hnot, fun _ => rfl⟩

/-- A step that meets the condition leaves exactly the owned descriptors open. -/
theorem Moves.settled (h : Moves s t a) (hs : Settled s.calls s.Owned) (hlast : ClosesLast s a) :
    Settled t.calls t.Owned := by
  rw [h.calls]
  exact hs.transfer h.transfer hlast.1 hlast.2

/-- A step that does not meet it leaves a descriptor used after its close, open without an owner, or
owned and closed. -/
theorem Moves.broken (h : Moves s t a) (hs : Settled s.calls s.Owned) (hlast : ¬ ClosesLast s a) :
    Broken t.calls t.Owned := by
  rw [h.calls]
  exact hs.broken h.transfer hlast

/-- A socket that is left open was just made, unless it was replaced. -/
theorem not_owned_of_lost (h : Moves s t a) (hkeeps : KeepsSockets s a) :
    ∀ fd ∈ s.lost a, ¬ s.Owned fd := by
  intro fd hfd
  cases a with
  | make m oks =>
    have hreplaced : m.replaced s.setup = [] := hkeeps
    simp only [lost, Making.lost, hreplaced, List.append_nil] at hfd
    exact h.transfer.fresh fd (List.mem_of_mem_filter hfd)
  | context a oks => cases hfd
  | destroy oks => cases hfd

/-- A step that puts no socket in the place of another does not mend that. -/
theorem Moves.stays_broken (h : Moves s t a) (hs : Broken s.calls s.Owned)
    (hkeeps : KeepsSockets s a) : Broken t.calls t.Owned := by
  rw [h.calls]
  exact hs.transfer h.transfer h.length (not_owned_of_lost h hkeeps) h.unused

/-- Under the condition, what is open is what the server owns, in every state. -/
theorem settled_of_reach (h : (machine isValidUdpMessage).ReachUnder ClosesLast s) :
    Settled s.calls s.Owned := by
  refine Machine.ReachUnder.induction (I := fun s => Settled s.calls s.Owned)
    (J := fun s => s.toContext.Inv) (fun _ => inv_of_reach) (fun _ => settled_of_starts) ?_ h
  intro s a t hs _ hsettled hlast hstep
  exact (moves_of_step hs hstep).settled hsettled hlast

/-- Where what is open is what is owned, nothing was used after its close; and after the destructor,
which leaves no owner, nothing is open. -/
theorem releasedOnce_of_settled (h : Settled s.calls s.Owned) : ReleasedOnce s := by
  refine ⟨?_, ?_⟩
  · intro fd
    by_cases howned : s.Owned fd
    · exact ⟨_, (h fd).1 howned⟩
    · exact ⟨_, (h fd).2 howned⟩
  · intro hdestroyed fd
    refine (h fd).2 ?_
    rw [owned_eq_false hdestroyed]
    exact id

/-- After the destructor each of the three ways to be broken is a descriptor that was used after its
close, or never closed. -/
theorem not_releasedOnce_of_broken (h : Broken s.calls s.Owned) (hdestroyed : s.destroyed = true) :
    ¬ ReleasedOnce s := by
  intro hreleased
  obtain ⟨fd, hbroken⟩ := h
  have hfree := hreleased.closed hdestroyed fd
  rcases hbroken with hnone | ⟨hheld, -⟩ | ⟨-, howned⟩
  · rw [hfree] at hnone
    cases hnone
  · rw [hfree] at hheld
    cases hheld
  · rw [owned_eq_false hdestroyed] at howned
    exact howned

/-- **Every descriptor is closed exactly once, and nothing is done with it after that**, in every
run in which of the calls that close one descriptor only the last succeeds, a descriptor that is
kept was not closed, and no socket is left open without an owner. Where a step is the first that is
otherwise, and no socket is replaced after it, the run ends, if the server is destroyed, with a
descriptor closed too often or not at all. -/
theorem releasedOnce_iff_closesLast (isValidUdpMessage : List UInt8 → Bool) :
    (∀ s, (machine isValidUdpMessage).ReachUnder ClosesLast s → ReleasedOnce s) ∧
      ∀ s a t u, (machine isValidUdpMessage).ReachUnder ClosesLast s → ¬ ClosesLast s a →
        (machine isValidUdpMessage).step s a = some t →
        (machine isValidUdpMessage).RunUnder KeepsSockets t u → u.destroyed = true →
        ¬ ReleasedOnce u := by
  constructor
  · intro s h
    exact releasedOnce_of_settled (settled_of_reach h)
  · intro s a t u hreach hlast hstep hrun hdestroyed
    have hmoves : Moves s t a := moves_of_step (inv_of_reach hreach.any) hstep
    have ht : Broken t.calls t.Owned := hmoves.broken (settled_of_reach hreach) hlast
    have hkept : u.toContext.Inv ∧ Broken u.calls u.Owned := by
      refine Machine.RunUnder.invariant
        (I := fun s => s.toContext.Inv ∧ Broken s.calls s.Owned) ?_ hrun ⟨hmoves.inv, ht⟩
      intro s a t hs hkeeps hstep
      have hmoves : Moves s t a := moves_of_step hs.1 hstep
      exact ⟨hmoves.inv, hmoves.stays_broken hs.2 hkeeps⟩
    exact not_releasedOnce_of_broken hkept.2 hdestroyed

/-- A server that was just made. -/
def newServer : Closing := ⟨Context.made, [], false⟩

/-- A socket that every call of the OS succeeds on. -/
def boundSocket (fd : Fd) : SocketCalls :=
  { Setup.namelessSocket with
    socket := .ok fd
    getsockname := .ok .default }

/-- The server hosts on descriptor 3, accepts a stream on descriptor 7, and is asked to disconnect
it. -/
def disconnectLabels (oks : List Bool) : List Label :=
  [.make (.hostTcp (boundSocket 3)) [], .context .startContext [],
    .context (.wait (.ok [(⟨3, true, false⟩, Context.readable)])) [],
    .context (.turn (Context.acceptAnswer (.ok ()))) [], .context (.askDisconnect 1) [],
    .context (.turn (BaseServer.readAnswer (.ok []))) [],
    .context (.turn (BaseServer.readAnswer (.ok []))) oks]

/-- No call was made for it so far. -/
theorem starts_newServer : (machine isValidUdpMessage).init newServer :=
  ⟨Context.starts_made, rfl, rfl⟩

/-- The first `shutdown` of the stream fails and the second succeeds. -/
theorem releasedOnce_disconnected : ∃ s : Closing, (.obtained, 7) ∈ s.calls ∧
    s.destroyed = true ∧ ReleasedOnce s := by
  have hexec : ((machine fun _ => true).exec ClosesLast newServer
      (disconnectLabels [false, true] ++
        [.context (.turn (BaseServer.readAnswer (.ok []))) [],
          .context (.turn (BaseServer.readAnswer (.ok []))) [], .destroy [true]])).any
      (fun s => (.obtained, 7) ∈ s.calls ∧ s.destroyed = true) = true := by
    decide
  obtain ⟨s, hreach, hs⟩ := Machine.reachUnder_of_exec starts_newServer hexec
  obtain ⟨hobtained, hdestroyed⟩ := of_decide_eq_true hs
  exact ⟨s, hobtained, hdestroyed, (releasedOnce_iff_closesLast _).1 s hreach⟩

/-- Both succeed: the second, and the `close` after it, come when the number is no longer the
server's. -/
theorem not_releasedOnce_disconnected :
    ¬ ∀ s : Closing, (machine fun _ => true).Reach s → ReleasedOnce s := by
  intro hall
  have hexec : ((machine fun _ => true).exec Machine.Any newServer
      (disconnectLabels [true, true])).any (fun s => phase s.calls 7 = none) = true := by
    decide
  obtain ⟨s, hreach, hs⟩ := Machine.reachUnder_of_exec starts_newServer hexec
  obtain ⟨p, hp⟩ := (hall s hreach).allowed 7
  rw [of_decide_eq_true hs] at hp
  cases hp

end Closing

end ProjectE.Net
