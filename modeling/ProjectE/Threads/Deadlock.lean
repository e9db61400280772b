import ProjectE.Threads.Locks

/-!
# Deadlock

The main thread locks a reader of an accepted connection under `using_tcp_connection`. The context
thread locks `using_tcp_connection` under a reader's mutex in one place: `handle_tcp_read_events`
disconnects from inside `with_lock` when `fill_buf` answers nothing. If the main thread is on its
way to the same reader by then, each waits for the other (`not_deadlockFree`).

Where the two never cross, no run deadlocks (`deadlockFree`). They cross in two orders: the empty
answer comes while the main thread holds the guard and will lock the reader, or the main thread
takes the guard while the context thread, inside the reader's mutex, waits for it.
-/

namespace ProjectE.Threads

open Verif Net

namespace View

/-- The main thread holds the guard for connection `c` and is about to lock its reader. -/
def willLock (v : View) (c : Uuid) : Bool :=
  match v.main with
  | .lookup id => id = c && v.known c
  | .enter r => r = .accepted c && v.known c
  | .lock r _ _ | .handle r _ _ => r = .accepted c
  | .parse r _ buffer => r = .accepted c &&
      (v.reader r).any fun reader => (Packet.deserialize (reader.buf.view buffer)).isSome
  | _ => false

/-- The step does not bring the threads to wait for each other. -/
def noCrossing (v : View) : Act → Bool
  | .context read =>
    match v.context with
    | .body ⟨.accepted, c⟩ =>
      let empty := (v.reader (.accepted c)).any fun reader => reader.full || read = .ok []
      !(empty && v.willLock c)
    | _ => true
  | .main _ =>
    match v.main, v.context with
    | .lockUsing id, .disconnect c true => !(id = c && v.known c)
    | _, _ => true
  | _ => true

/-- Waiting for the guard under a reader's mutex, the context thread has no one waiting for that. -/
def Apart (v : View) : Prop := ∀ c, v.context = .disconnect c true → v.willLock c = false

end View

variable {v w : View} {a : Act}

/-- In the loop with a packet the reader is locked again; without one it is not. -/
theorem willLock_loopHead {r : ReaderRef} {client : Uuid} {packet : Option Packet} {c : Uuid}
    (hmain : v.main = System.loopHead r client packet) (h : r = .accepted c → packet = none) :
    v.willLock c = false := by
  cases packet with
  | none => simp [View.willLock, hmain, System.loopHead]
  | some p =>
    have hne : r ≠ .accepted c := by
      intro heq
      exact nomatch h heq
    simp [View.willLock, hmain, System.loopHead, hne]

/-- What the main thread is about to lock depends on its place, the clients, and the bytes
it sees. -/
theorem willLock_congr (hmain : w.main = v.main) (hknown : w.known = v.known)
    (hsees : ∀ r span, (w.reader r).map (·.buf.view span) = (v.reader r).map (·.buf.view span))
    (c : Uuid) : w.willLock c = v.willLock c := by
  have hparse (r : ReaderRef) (span : Span) (u : View) :
      ((u.reader r).any fun reader => (Packet.deserialize (reader.buf.view span)).isSome) =
        ((u.reader r).map (·.buf.view span)).any fun bs => (Packet.deserialize bs).isSome := by
    rw [Option.any_map]
  unfold View.willLock
  simp only [hmain, hknown, hparse, hsees]

/-- While the context thread disconnects from inside a reader's mutex, the main thread is not about
to unlock that reader. -/
theorem ne_of_unlock (hinv : Inv v) {r : ReaderRef} {c client : Uuid} {after : After}
    (hmain : v.main = .unlock r client after) (hcontext : v.context = .disconnect c true) :
    r ≠ .accepted c := by
  rintro rfl
  have hmainHolds : v.holds .main (.reader (.accepted c)) := by
    simp [View.holds, hmain, MainPc.held]
  have hcontextHolds : v.holds .context (.reader (.accepted c)) := by
    simp [View.holds, hcontext, ContextPc.held]
  cases hinv.locks.exclusive hmainHolds hcontextHolds

theorem apart_move (hinv : Inv v) (h : v.Apart) (hG : v.noCrossing a = true) (hm : Move v a w) :
    w.Apart := by
  intro c hc
  cases hm with
  | connect hpc => simp [View.willLock, hpc]
  | disconnect hpc => simp [View.willLock, hpc]
  | popRead | toOutgoing | toAccepted | notFound | missed | enterUnknown | lock | first | consume
  | parseShort | leave | gone => simp [View.willLock, View.halt]
  | @lockUsing _ id hpc hfree =>
    have hcontext : v.context = .disconnect c true := hc
    simp only [View.noCrossing, hpc, hcontext] at hG
    simpa [View.willLock, ← imp_iff_not_or] using hG
  | found hpc =>
    have hold := h c hc
    simpa [View.willLock, hpc] using hold
  | enterKnown hpc hknown =>
    have hold := h c hc
    simp only [View.willLock, hpc, Bool.and_eq_false_imp, decide_eq_true_eq] at hold
    simp only [View.willLock, decide_eq_false_iff_not]
    rintro rfl
    rw [hold rfl] at hknown
    cases hknown
  | @unlock _ r client after hpc hsome =>
    have hne := ne_of_unlock hinv hpc hc
    cases after with
    | parsed packet => exact willLock_loopHead rfl fun heq => absurd heq hne
    | reparse buffer => simp [View.willLock, System.afterUnlock, hne]
  | @parse _ r client buffer reader hpc hsize hreader =>
    have hold := h c hc
    apply willLock_loopHead rfl
    intro heq
    simpa [View.willLock, hpc, heq, heq ▸ hreader] using hold
  | handle hpc =>
    have hold := h c hc
    simpa [View.willLock, hpc] using hold
  | @fillEmpty read r reader hpc hreader hempty =>
    obtain ⟨kind, id⟩ := r
    cases kind with
    | outgoing => cases hc
    | accepted =>
      cases hc
      have hany : (v.reader (.accepted id)).any
          (fun reader => reader.full || decide (read = .ok [])) = true := by
        rw [hreader]
        simpa using hempty
      have hold : v.willLock id = false := by
        simpa [View.noCrossing, hpc, hany] using hG
      rw [← hold]
      refine willLock_congr ?_ ?_ (fun r span => ?_) id
      · rfl
      · rfl
      by_cases heq : r = .accepted id
      · -- the empty answer leaves the array alone, and what the main thread sees in it
        subst heq
        simp only [View.filled, Function.update_self, hreader, Option.map_some, Buffer.view,
          reader.bytes_fillBuf_of_empty hempty]
      · simp only [View.filled, Function.update_of_ne heq]
  | accept hpc =>
    cases hpc.symm.trans hc
  | disconnectIgnored hpc => cases hpc.symm.trans hc
  | ask => exact h c hc
  | @push _ _ inside =>
    cases inside with
    | true => cases hc
    | false => cases hc
  | contextLock | contextLockGone | fillError | fillData | fillGone | contextUnlock
  | contextUnlockGone | contextGuard | erase | contextUnguard | reset | readEvent | teardown
  | disconnectAsked | teardownSingle => cases hc

namespace System

/-- Each thread waits for a mutex the other one holds. -/
def Deadlocked (s : System) : Prop := s.locks.Deadlock s.wants

/-- Both threads wait: the main thread for a reader under the guard, the context thread for the
guard under the same reader's mutex. -/
theorem deadlocked_places {s : System} (hinv : Inv s.view) (h : s.Deadlocked) :
    ∃ c client body, s.main = .lock (.accepted c) client body ∧ s.context = .disconnect c true := by
  have hcross : ∃ m m', s.main.wants = some m ∧ m ∈ s.context.held ∧
      s.context.wants = some m' ∧ m' ∈ s.main.held := by
    obtain ⟨t, t', m, m', hne, hwants, howner, hwants', howner'⟩ := h
    have hholds := (hinv.locks t' m).mp howner
    have hholds' := (hinv.locks t m').mp howner'
    cases t with
    | main =>
      cases t' with
      | main => exact absurd rfl hne
      | context => exact ⟨m, m', hwants, hholds, hwants', hholds'⟩
    | context =>
      cases t' with
      | main => exact ⟨m', m, hwants', hholds', hwants, hholds⟩
      | context => exact absurd rfl hne
  obtain ⟨m, m', hmain, hheld, hcontext, hheld'⟩ := hcross
  cases hpc : s.main with
  | lock r client body =>
    rw [hpc] at hmain hheld'
    cases hmain
    obtain ⟨hkind, rfl⟩ := mem_guard.mp hheld'
    cases hpc' : s.context with
    | disconnect id inside =>
      rw [hpc'] at hheld
      obtain ⟨rfl, hr⟩ := mem_around.mp hheld
      cases hr
      exact ⟨id, client, body, rfl, rfl⟩
    | _ =>
      rw [hpc'] at hcontext
      cases hcontext
  | lockUsing id =>
    rw [hpc] at hheld'
    cases hheld'
  | _ =>
    rw [hpc] at hmain
    cases hmain

/-- **No deadlock, where the threads never cross**: in every run none of whose steps crosses them,
no state has each thread waiting for a mutex the other one holds. -/
theorem deadlockFree {transformNumber : UInt64 → UInt64} {s : System}
    (h : (machine transformNumber).ReachUnder (fun s a => s.view.noCrossing a = true) s) :
    ¬ s.Deadlocked := by
  intro hdead
  have hinv := inv_of_reach h.any
  have hapart : s.view.Apart := by
    refine view_invariant ?_ ?_ h
    · intro s hs c hc
      rw [show s.view.context = .idle from hs.context] at hc
      cases hc
    · intro s a t hs hI hG hmove
      exact apart_move (inv_of_reach hs) hI hG hmove
  obtain ⟨c, client, body, hmain, hcontext⟩ := deadlocked_places hinv hdead
  have hapart := hapart c hcontext
  simp [View.willLock, show s.view.main = _ from hmain] at hapart

/-! ## One read event, and the next one -/

/-- Connection 1 is accepted and has its client, a byte of it was read, and the main thread,
with the read event, comes to the lock of its reader; a second Read event finds the context
thread there. -/
def crossing : List Act :=
  [.accept 1 5, .main draw, .readEvent (.accepted 1), .context (.ok []), .context (.ok [0]),
    .context (.ok []), .main draw, .main draw, .main draw, .main draw, .main draw,
    .readEvent (.accepted 1), .context (.ok [])]

/-- The main thread waits for a reader that the context thread reads; nothing crossed. -/
theorem deadlockFree_waiting : ∃ s : System,
    s.main = .lock (.accepted 1) 7 .first ∧ s.locks (.reader (.accepted 1)) = some .context ∧
      ¬ s.Deadlocked := by
  obtain ⟨s, hreach, hs⟩ := Machine.reachUnder_of_exec
    (M := machine Server.transformNumberFunction) (G := fun s a => s.view.noCrossing a = true)
    (l := crossing) (p := fun s => s.main = .lock (.accepted 1) 7 .first ∧
      s.locks (.reader (.accepted 1)) = some .context) starts_started (by decide +kernel)
  obtain ⟨hmain, hlock⟩ := of_decide_eq_true hs
  exact ⟨s, hmain, hlock, deadlockFree hreach⟩

/-- The second read gives the end of the stream: the context thread disconnects under the reader's
mutex, and each thread waits for the other. -/
theorem not_deadlockFree : ¬ ∀ s : System,
    (machine Server.transformNumberFunction).Reach s → ¬ s.Deadlocked := by
  intro hall
  obtain ⟨s, hreach, hs⟩ := Machine.reachUnder_of_exec
    (M := machine Server.transformNumberFunction) (G := Machine.Any)
    (l := crossing ++ [.context (.ok [])])
    (p := fun s => s.wants .main = some (.reader (.accepted 1)) ∧
      s.locks (.reader (.accepted 1)) = some .context ∧
      s.wants .context = some .usingTcpConnection ∧
      s.locks .usingTcpConnection = some .main) starts_started (by decide +kernel)
  obtain ⟨hmain, hreader, hcontext, husing⟩ := of_decide_eq_true hs
  exact hall s hreach ⟨.main, .context, _, _, nofun, hmain, hreader, hcontext, husing⟩

end System

end ProjectE.Threads
