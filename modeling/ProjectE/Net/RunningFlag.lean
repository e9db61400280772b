import ProjectE.Lib.Transition
import ProjectE.Net.Setup

/-!
# The running flag

`_running` is written by `start_context` and `stop_context` on the main thread and read by
`context_loop` on the context thread. A label is one access to what the two threads share, so the
steps of the two come in any order; what `Poll::add`, `Poll::wait` and the making of a thread answer
is part of the label. Where no thread can be made, `start_context` takes the flag back before any
thread is there to read it, so that is one step.

The flag is true too long: a context thread that stops because of an error of `Poll::add` or
`Poll::wait` leaves it as it is, and the server then says that it is running until `stop_context` is
called. `truthful_of_reach` says that nothing else makes the flag wrong (`Clean`).
-/

namespace ProjectE.Net

open Verif

/-- Where the context thread is: in `run_context`, which adds the sockets that are there, or in
`context_loop`. -/
inductive ContextPc where
  | addUdpSocket
  | addTcpListener
  | addTcpConnection
  | loopHead
  | waiting
  | handling
  | returned
deriving DecidableEq, Repr

/-- What the context thread does next. -/
inductive ContextAct where
  /-- The next socket, if it is there, and what `poll.add` answers. -/
  | add (result : Option (Except ErrorCode Unit))
  | check
  | wait (events : Except ErrorCode Unit)
  | handle

namespace ContextPc

/-- After `poll.add`: `run_context` returns on an error. -/
def added (next : ContextPc) : Option (Except ErrorCode Unit) → ContextPc
  | some (.error _) => .returned
  | _ => next

/-- `run_context` and `context_loop`, access by access. -/
def act (running : Bool) : ContextPc → ContextAct → Option ContextPc
  | .addUdpSocket, .add result => some (added .addTcpListener result)
  | .addTcpListener, .add result => some (added .addTcpConnection result)
  | .addTcpConnection, .add result => some (added .loopHead result)
  | .loopHead, .check => some (if running then .waiting else .returned)
  | .waiting, .wait (.ok ()) => some .handling
  | .waiting, .wait (.error _) => some .returned
  | .handling, .handle => some .loopHead
  | _, _ => none

end ContextPc

/-- Where the main thread is: outside of the calls, in `start_context` before it sets the flag and
before it makes the thread, or in `stop_context` before it has joined. -/
inductive MainPc where
  | idle
  | starting
  | spawning
  | joining
deriving DecidableEq, Repr

/-- The steps of the two threads that have to do with `_running`. -/
inductive FlagAct where
  | callStart
  | setRunning
  | makeThread (thread : Except ErrorCode Unit)
  | callStop
  | join
  | context (a : ContextAct)

/-- `_running`, the two threads, and `none` where `_context_thread` is not joinable. Each access to
the flag is a step of its own. -/
structure RunningFlag where
  running : Bool
  main : MainPc
  context : Option ContextPc
deriving DecidableEq, Repr

namespace RunningFlag

/-- What a step does. `join` is possible only once the context thread has returned. -/
def step (s : RunningFlag) : FlagAct → Option RunningFlag
  | .callStart =>
    if s.main = .idle then
      -- A server that is running is answered an error.
      if s.running then some s else some { s with main := .starting }
    else none
  | .setRunning =>
    if s.main = .starting then some { s with main := .spawning, running := true } else none
  | .makeThread (.ok ()) =>
    -- A thread that is joinable cannot be assigned to.
    if s.main = .spawning ∧ s.context = none then
      some { s with main := .idle, context := some .addUdpSocket }
    else none
  | .makeThread (.error _) =>
    if s.main = .spawning then some { s with main := .idle, running := false } else none
  | .callStop =>
    if s.main = .idle then some { s with main := .joining, running := false } else none
  | .join =>
    if s.main = .joining ∧ (s.context = none ∨ s.context = some .returned) then
      some { s with main := .idle, context := none }
    else none
  | .context a => do
    let pc ← s.context
    let pc ← pc.act s.running a
    return { s with context := some pc }

/-- The runs of the flag, from a server that does not run. -/
def machine : Machine RunningFlag FlagAct where
  init s := s = ⟨false, .idle, none⟩
  step := step

/-- The context thread is in `context_loop` or before it, or the main thread is about to make it. -/
def Serving (s : RunningFlag) : Prop :=
  s.main = .spawning ∨ ∃ pc, s.context = some pc ∧ pc ≠ .returned

/-- A server that does not serve has its flag down, so `start_context` does not take it for a
running one. -/
structure Truthful (s : RunningFlag) : Prop where
  running : ¬s.Serving → s.running = false
  startable : ¬s.Serving → ∀ server thread,
    (Setup.startContext ⟨server, s.running⟩ thread).1 ≠ .error .serverAlreadyRunning

end RunningFlag

/-- `Poll::add` or `Poll::wait` answers an error. -/
def ContextAct.fails : ContextAct → Bool
  | .add (some (.error _)) => true
  | .wait (.error _) => true
  | _ => false

namespace RunningFlag

/-- The step is not an error of the poll while the flag is up. -/
def Clean (s : RunningFlag) : FlagAct → Prop
  | .context a => a.fails → s.running = false
  | _ => True

instance (s : RunningFlag) : ∀ a, Decidable (s.Clean a)
  | .context a => inferInstanceAs (Decidable (a.fails → s.running = false))
  | .callStart | .setRunning | .makeThread _ | .callStop | .join => .isTrue trivial

/-! ## What the steps do -/

variable {s t : RunningFlag} {a : FlagAct} {c : ContextAct} {pc pc' : ContextPc}

theorem added_eq_returned_iff {next : ContextPc} (hnext : next ≠ .returned)
    (result : Option (Except ErrorCode Unit)) :
    next.added result = .returned ↔ (ContextAct.add result).fails = true := by
  rcases result with - | (e | ⟨⟩)
  · exact iff_of_false hnext Bool.false_ne_true
  · exact iff_of_true rfl rfl
  · exact iff_of_false hnext Bool.false_ne_true

/-- The context thread returns where the poll fails, and from the head of its loop where the flag is
down. -/
theorem returned_iff {running : Bool} (h : pc.act running c = some pc') :
    pc' = .returned ↔ c.fails = true ∨ (c = .check ∧ running = false) := by
  unfold ContextPc.act at h
  split at h
  case h_8 => cases h
  all_goals cases h
  case h_1 | h_2 | h_3 => simp [added_eq_returned_iff]
  case h_4 => cases running <;> simp [ContextAct.fails]
  all_goals simp [ContextAct.fails]

/-- The steps of the two threads. -/
inductive Moves (s : RunningFlag) : FlagAct → RunningFlag → Prop
  | refused : s.main = .idle → s.running = true → Moves s .callStart s
  | called : s.main = .idle → s.running = false → Moves s .callStart { s with main := .starting }
  | set : s.main = .starting → Moves s .setRunning { s with main := .spawning, running := true }
  | made : s.main = .spawning → s.context = none →
      Moves s (.makeThread (.ok ())) { s with main := .idle, context := some .addUdpSocket }
  | notMade (e : ErrorCode) : s.main = .spawning →
      Moves s (.makeThread (.error e)) { s with main := .idle, running := false }
  | stopped : s.main = .idle → Moves s .callStop { s with main := .joining, running := false }
  | joined : s.main = .joining → s.context = none ∨ s.context = some .returned →
      Moves s .join { s with main := .idle, context := none }
  | context {c : ContextAct} {pc pc' : ContextPc} : s.context = some pc →
      pc.act s.running c = some pc' → Moves s (.context c) { s with context := some pc' }

theorem moves_of_step (h : s.step a = some t) : Moves s a t := by
  unfold step at h
  split at h
  case h_1 =>
    split at h
    next hidle =>
      split at h
      next hrunning =>
        cases h
        exact .refused hidle hrunning
      next hrunning =>
        cases h
        exact .called hidle (Bool.eq_false_of_not_eq_true hrunning)
    next => cases h
  case h_2 =>
    split at h
    next hstarting =>
      cases h
      exact .set hstarting
    next => cases h
  case h_3 =>
    split at h
    next hspawning =>
      cases h
      exact .made hspawning.1 hspawning.2
    next => cases h
  case h_4 e =>
    split at h
    next hspawning =>
      cases h
      exact .notMade e hspawning
    next => cases h
  case h_5 =>
    split at h
    next hidle =>
      cases h
      exact .stopped hidle
    next => cases h
  case h_6 =>
    split at h
    next hjoining =>
      cases h
      exact .joined hjoining.1 hjoining.2
    next => cases h
  case h_7 c =>
    obtain ⟨pc, hpc, h⟩ := Option.bind_eq_some_iff.mp h
    obtain ⟨pc', hact, h⟩ := Option.bind_eq_some_iff.mp h
    cases h
    exact .context hpc hact

/-- The two threads between them: there is no context thread while one is made, the flag is down
while the main thread joins, and where it is down afterwards there is nothing left to join. -/
structure Ordered (s : RunningFlag) : Prop where
  starting : s.main = .starting → s.context = none ∧ s.running = false
  spawning : s.main = .spawning → s.context = none ∧ s.running = true
  joining : s.main = .joining → s.running = false
  idle : s.main = .idle → s.running = false → s.context = none

theorem Ordered.step (h : Ordered s) (hstep : s.step a = some t) : Ordered t := by
  cases moves_of_step hstep with
  | refused _ _ => exact h
  | called hidle hrunning => exact ⟨fun _ => ⟨h.idle hidle hrunning, hrunning⟩, nofun, nofun, nofun⟩
  | set hstarting => exact ⟨nofun, fun _ => ⟨(h.starting hstarting).1, rfl⟩, nofun, nofun⟩
  | made hspawning _ =>
    refine ⟨nofun, nofun, nofun, fun _ hrunning => ?_⟩
    exact absurd ((h.spawning hspawning).2.symm.trans hrunning) (by decide)
  | notMade _ hspawning => exact ⟨nofun, nofun, nofun, fun _ _ => (h.spawning hspawning).1⟩
  | stopped _ => exact ⟨nofun, nofun, fun _ => rfl, nofun⟩
  | joined hjoining _ => exact ⟨nofun, nofun, nofun, fun _ _ => rfl⟩
  | context hpc _ =>
    -- Where the main thread needs that there is no context thread, there is none to make a step.
    refine ⟨fun hmain => ?_, fun hmain => ?_, h.joining, fun hmain hrunning => ?_⟩
    · cases (h.starting hmain).1.symm.trans hpc
    · cases (h.spawning hmain).1.symm.trans hpc
    · cases (h.idle hmain hrunning).symm.trans hpc

theorem ordered_of_reach (h : machine.Reach s) : Ordered s := by
  refine Machine.Reach.invariant (fun s h => ?_) (fun s a t h hstep => h.step hstep) h
  cases h
  exact ⟨nofun, nofun, nofun, fun _ _ => rfl⟩

theorem truthful_iff : Truthful s ↔ (¬s.Serving → s.running = false) := by
  refine ⟨Truthful.running, fun h => ⟨h, fun hserving server thread => ?_⟩⟩
  rw [h hserving]
  cases thread with
  | error e => exact nofun
  | ok u => exact nofun

/-- A step from a truthful state leaves the flag truthful exactly if it is clean. -/
theorem Ordered.truthful_step_iff (h : Ordered s) (htruthful : Truthful s)
    (hstep : s.step a = some t) : Truthful t ↔ s.Clean a := by
  cases moves_of_step hstep with
  | refused _ _ => exact iff_of_true htruthful trivial
  | called _ hrunning => exact iff_of_true (truthful_iff.mpr fun _ => hrunning) trivial
  | set _ => exact iff_of_true (truthful_iff.mpr fun hserving => absurd (.inl rfl) hserving) trivial
  | made _ _ =>
    have hserving : ({ s with main := .idle, context := some .addUdpSocket } :
        RunningFlag).Serving := .inr ⟨.addUdpSocket, rfl, nofun⟩
    exact iff_of_true (truthful_iff.mpr fun hno => absurd hserving hno) trivial
  | notMade _ _ => exact iff_of_true (truthful_iff.mpr fun _ => rfl) trivial
  | stopped _ => exact iff_of_true (truthful_iff.mpr fun _ => rfl) trivial
  | joined hjoining _ =>
    exact iff_of_true (truthful_iff.mpr fun _ => h.joining hjoining) trivial
  | @context c pc pc' hpc hact =>
    have hserving : ({ s with context := some pc' } : RunningFlag).Serving ↔ pc' ≠ .returned := by
      constructor
      · rintro (hspawning | ⟨pc'', heq, hne⟩)
        · cases (h.spawning hspawning).1.symm.trans hpc
        · cases heq
          exact hne
      · exact fun hne => .inr ⟨pc', rfl, hne⟩
    rw [truthful_iff, hserving, not_not, returned_iff hact]
    show (c.fails = true ∨ (c = .check ∧ s.running = false) → s.running = false) ↔
      (c.fails = true → s.running = false)
    exact ⟨fun hall hfails => hall (.inl hfails), fun hclean hor => hor.elim hclean And.right⟩

/-- **The running flag tells the truth** as long as no call of the poll fails while the flag is up,
and is wrong after the first one that does. -/
theorem truthful_of_reach (h : machine.ReachUnder Clean s) :
    Truthful s ∧ ∀ a t, machine.step s a = some t → (Truthful t ↔ s.Clean a) := by
  have htruthful : Truthful s := by
    refine h.induction (fun _ => ordered_of_reach) (fun s hs => ?_) ?_
    · cases hs
      exact truthful_iff.mpr fun _ => rfl
    · intro s a t hordered _ htruthful hclean hstep
      exact (hordered.truthful_step_iff htruthful hstep).mpr hclean
  exact ⟨htruthful, fun a t hstep => (ordered_of_reach h.any).truthful_step_iff htruthful hstep⟩

/-- A poll that is interrupted after `stop_context` has taken the flag down. -/
theorem truthful_of_reach_stopped : ∃ s : RunningFlag, s.context = some .returned ∧ Truthful s := by
  obtain ⟨s, hreach, hreturned⟩ := Machine.reachUnder_of_exec (M := machine) (G := Clean)
    (s := ⟨false, .idle, none⟩) (p := fun s => s.context = some .returned)
    (l := [.callStart, .setRunning, .makeThread (.ok ()), .context (.add none),
      .context (.add (some (.ok ()))), .context (.add none), .context .check, .callStop,
      .context (.wait (.error 4))]) rfl (by decide)
  exact ⟨s, of_decide_eq_true hreturned, (truthful_of_reach hreach).1⟩

/-- A poll that is interrupted while the server runs. -/
theorem not_truthful_of_reach : ¬ ∀ s : RunningFlag, machine.Reach s → Truthful s := by
  intro h
  obtain ⟨s, hreach, hstale⟩ := Machine.reachUnder_of_exec (M := machine) (G := Machine.Any)
    (s := ⟨false, .idle, none⟩) (p := fun s => s = ⟨true, .idle, some .returned⟩)
    (l := [.callStart, .setRunning, .makeThread (.ok ()), .context (.add none),
      .context (.add (some (.ok ()))), .context (.add none), .context .check,
      .context (.wait (.error 4))]) rfl (by decide)
  cases of_decide_eq_true hstale
  have hserving : ¬(⟨true, .idle, some .returned⟩ : RunningFlag).Serving := by
    rintro (hmain | ⟨pc, hpc, hne⟩)
    · cases hmain
    · cases hpc
      exact hne rfl
  exact absurd ((h _ hreach).running hserving) (by decide)

/-! ## Starting -/

/-- The accesses of `start_context` together are the call. -/
theorem exec_startContext (server : BaseServer) (thread : Except ErrorCode Unit)
    (hmain : s.main = .idle) (hrunning : s.running = false) (hcontext : s.context = none) :
    machine.exec Machine.Any s [.callStart, .setRunning, .makeThread thread] =
      some { s with
        running := (Setup.startContext ⟨server, s.running⟩ thread).2.running
        context :=
          match (Setup.startContext ⟨server, s.running⟩ thread).1 with
          | .ok () => some .addUdpSocket
          | .error _ => none } := by
  obtain ⟨running, main, context⟩ := s
  cases hmain
  cases hrunning
  cases hcontext
  cases thread <;> rfl

end RunningFlag

end ProjectE.Net
