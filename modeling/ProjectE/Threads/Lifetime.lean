import ProjectE.Threads.Locks

/-!
# Lifetime of a connection

A reader is used after it is gone in three ways. `disconnect_tcp_connection`, called from inside
the `with_lock` of `handle_tcp_read_events`, erases the connection whose mutex `with_lock` then
unlocks. `handle_events` looks a connection up, takes the guard and looks it up again, and in
between it may be erased. The outgoing connection is reset with no mutex held, whatever
`on_tcp_data` does with it.

In a run none of whose erasures and resets comes at such a moment nothing of the kind happens
(`faults_of_safe`).
-/

namespace ProjectE.Threads

open Verif Net

/-- The accepted connection found by the first lookup of a `TcpRead` and looked up once more. -/
def MainPc.looksUp : MainPc → Option Uuid
  | .lockUsing id | .lookup id => some id
  | _ => none

namespace View

/-- The reader that `on_tcp_data` will still lock, unlock or read. -/
def willUse (v : View) : Option ReaderRef :=
  match v.main with
  | .enter r => if v.known r.id then some r else none
  | .lock r _ _ | .body r _ _ | .unlock r _ _ | .handle r _ _ => some r
  | .parse r _ buffer => if buffer.size < Header.sizeof then none else some r
  | _ => none

/-- The step takes no connection away that is still used. -/
def safe (v : View) : Act → Bool
  | .context _ =>
    match v.context with
    | .erase id inside => !inside && v.main ≠ .lockUsing id
    | .reset _ => v.willUse.all fun r => r.kind = .accepted
    | _ => true
  | _ => true

end View

/-- What is used is there. -/
structure Alive (v : View) : Prop where
  found : ∀ id, v.main.looksUp = some id → (v.reader (.accepted id)).isSome
  main : ∀ r, v.willUse = some r → (v.reader r).isSome
  context : ∀ r, v.context = .unlock r → (v.reader r).isSome
  /-- Nothing is erased from inside `with_lock`. -/
  outside : ∀ id inside, v.context = .unlockUsing id inside ∨ v.context = .push id inside →
    inside = false
  faults : v.faults = []

variable {v w : View} {a : Act}

/-! ## Where use begins -/

theorem willUse_of_uses {r : ReaderRef} (h : v.main.uses = some r) : v.willUse = some r := by
  unfold View.willUse
  cases hpc : v.main with
  | lock | body | unlock | parse =>
    rw [hpc] at h
    exact h
  | _ =>
    rw [hpc] at h
    cases h

theorem inside_of_willUse {r : ReaderRef} (h : v.willUse = some r) : v.main.inside = some r := by
  unfold View.willUse at h
  cases hpc : v.main with
  | enter r' =>
    simp only [hpc, Option.ite_none_right_eq_some] at h
    exact h.2
  | parse r' client buffer =>
    simp only [hpc, Option.ite_none_left_eq_some] at h
    exact h.2
  | lock | body | unlock | handle =>
    simp only [hpc] at h
    exact h
  | _ => simp [hpc] at h

theorem willUse_loopHead {r r' : ReaderRef} {client : Uuid} {packet : Option Packet}
    (hmain : w.main = System.loopHead r client packet) (h : w.willUse = some r') : r = r' := by
  cases packet with
  | none => simp [View.willUse, hmain, System.loopHead] at h
  | some p => simpa [View.willUse, hmain, System.loopHead] using h

/-- `on_tcp_data` uses the reader it used, or is just called on one that is there. -/
theorem willUse_of_move (hm : Move v a w) {r : ReaderRef} (h : w.willUse = some r) :
    v.willUse = some r ∨ (v.reader r).isSome := by
  cases hm with
  | connect hpc => simp [View.willUse, hpc] at h
  | disconnect hpc => simp [View.willUse, hpc] at h
  | toOutgoing _ hsome =>
    right
    simp only [View.willUse, Option.ite_none_right_eq_some, Option.some.injEq] at h
    exact h.2 ▸ hsome
  | found _ hsome =>
    right
    simp only [View.willUse, Option.ite_none_right_eq_some, Option.some.injEq] at h
    exact h.2 ▸ hsome
  | enterKnown hpc hknown =>
    left
    simpa [View.willUse, hpc, hknown] using h
  | lock hpc =>
    left
    simpa [View.willUse, hpc] using h
  | first hpc =>
    left
    simpa [View.willUse, hpc] using h
  | consume hpc =>
    left
    simpa [View.willUse, hpc] using h
  | @unlock _ r' client after hpc =>
    left
    have heq : r' = r := by
      cases after with
      | parsed packet => exact willUse_loopHead rfl h
      | reparse buffer =>
        simp only [View.willUse, System.afterUnlock, Option.ite_none_left_eq_some,
          Option.some.injEq] at h
        exact h.2
    simp [View.willUse, hpc, heq]
  | parse hpc hsize =>
    left
    have heq := willUse_loopHead rfl h
    simp [View.willUse, hpc, hsize, heq]
  | handle hpc =>
    left
    simpa [View.willUse, hpc] using h
  | popRead | toAccepted | notFound | lockUsing | missed | enterUnknown | parseShort | leave
  | gone => simp [View.willUse, View.halt] at h
  | _ => exact .inl h

@[simp] theorem looksUp_loopHead (r : ReaderRef) (client : Uuid) (packet : Option Packet) :
    (System.loopHead r client packet).looksUp = none := by
  cases packet <;> rfl

@[simp] theorem looksUp_afterUnlock (r : ReaderRef) (client : Uuid) (after : After) :
    (System.afterUnlock r client after).looksUp = none := by
  cases after with
  | parsed packet => exact looksUp_loopHead r client packet
  | reparse buffer => rfl

/-- The first lookup of a `TcpRead` finds the connection. -/
theorem looksUp_of_move (hm : Move v a w) {id : Uuid} (h : w.main.looksUp = some id) :
    v.main.looksUp = some id ∨ (v.reader (.accepted id)).isSome := by
  cases hm with
  | toAccepted _ _ hsome =>
    cases h
    exact .inr hsome
  | lockUsing hpc => exact .inl (by rw [hpc]; exact h)
  | unlock =>
    rw [looksUp_afterUnlock] at h
    cases h
  | parse =>
    rw [looksUp_loopHead] at h
    cases h
  | popRead | toOutgoing | notFound | found | missed | enterKnown | enterUnknown | lock | first
  | consume | parseShort | handle | leave | gone => cases h
  | _ => exact .inl h

/-- What the context thread is about to unlock it has just read, or erased under the mutex. -/
theorem unlock_of_move (hinv : Inv v) (hm : Move v a w) {r : ReaderRef}
    (h : w.context = .unlock r) : v.context = .unlock r ∨ (v.reader r).isSome ∨
      ∃ id, v.context = .push id true := by
  cases hm with
  | fillError _ hreader =>
    cases h
    exact .inr (.inl (by rw [hreader]; rfl))
  | fillData _ hreader =>
    cases h
    exact .inr (.inl (by rw [hreader]; rfl))
  | @fillEmpty _ r' reader _ hreader =>
    obtain ⟨kind, id⟩ := r'
    cases kind with
    | accepted => cases h
    | outgoing =>
      cases h
      exact .inr (.inl (by rw [hreader]; rfl))
  | fillGone hpc hnone =>
    have hsome := hinv.works _ (by rw [hpc]; rfl)
    rw [hnone] at hsome
    cases hsome
  | @push _ id inside hpc =>
    cases inside with
    | true => exact .inr (.inr ⟨id, hpc⟩)
    | false => cases h
  | contextLock | contextLockGone | contextUnlock | contextUnlockGone | contextGuard | erase
  | contextUnguard | reset | readEvent | teardown | disconnectAsked | teardownSingle => cases h
  | _ => exact .inl h

/-- What a fault means. -/
theorem faults_of_move (hm : Move v a w) : w.faults = v.faults ∨
    (∃ id, v.main.looksUp = some id ∧ v.reader (.accepted id) = none) ∨
    (∃ r, v.willUse = some r ∧ v.reader r = none) ∨
    (∃ r, v.context.works = some r ∧ v.reader r = none) ∨
    ∃ r, v.context = .unlock r ∧ v.reader r = none := by
  cases hm with
  | missed hpc hnone => exact .inr (.inl ⟨_, by rw [hpc]; rfl, hnone⟩)
  | gone huses hnone => exact .inr (.inr (.inl ⟨_, willUse_of_uses huses, hnone⟩))
  | contextLockGone hpc hnone => exact .inr (.inr (.inr (.inl ⟨_, by rw [hpc]; rfl, hnone⟩)))
  | fillGone hpc hnone => exact .inr (.inr (.inr (.inl ⟨_, by rw [hpc]; rfl, hnone⟩)))
  | contextUnlockGone hpc hnone => exact .inr (.inr (.inr (.inr ⟨_, hpc, hnone⟩)))
  | _ => exact .inl rfl

/-! ## The invariant -/

theorem found_move (hinv : Inv v) (h : Alive v) (hG : v.safe a = true) (hm : Move v a w) (id : Uuid)
    (hfound : w.main.looksUp = some id) : (w.reader (.accepted id)).isSome := by
  have hthere : (v.reader (.accepted id)).isSome :=
    (looksUp_of_move hm hfound).elim (h.found id) fun h => h
  cases readers_of_move hm with
  | keeps hkeeps _ => rwa [hkeeps]
  | @erases id' inside hpc hreader _ hmain _ _ hact =>
    rw [hreader, Function.update_of_ne]
    · exact hthere
    · rintro heq
      cases heq
      obtain ⟨read, rfl⟩ := hact
      rw [hmain] at hfound
      cases hpc' : v.main with
      | lockUsing id' =>
        rw [hpc'] at hfound
        cases hfound
        simp [View.safe, hpc, hpc'] at hG
      | lookup id' =>
        -- the connection is erased under the mutex that the main thread holds
        have hmainHolds : v.holds .main .usingTcpConnection := by
          simp [View.holds, hpc', MainPc.held]
        have hcontextHolds : v.holds .context .usingTcpConnection := by
          simp [View.holds, hpc, ContextPc.held]
        cases hinv.locks.exclusive hmainHolds hcontextHolds
      | _ =>
        rw [hpc'] at hfound
        cases hfound
  | resets _ hreader _ _ _ =>
    rw [hreader]
    exact hthere
  | adds _ hreader _ _ _ _ _ _ =>
    rw [hreader]
    exact isSome_update hthere

theorem main_move (hinv : Inv v) (h : Alive v) (hG : v.safe a = true) (hm : Move v a w)
    (r : ReaderRef) (huse : w.willUse = some r) : (w.reader r).isSome := by
  obtain ⟨kind, id⟩ := r
  cases kind with
  | accepted => exact guarded_move hinv hm id (inside_of_willUse huse)
  | outgoing =>
    have hthere : (v.reader (.outgoing id)).isSome :=
      (willUse_of_move hm huse).elim (h.main _) fun h => h
    cases readers_of_move hm with
    | keeps hkeeps _ => rwa [hkeeps]
    | erases _ hreader _ _ _ _ =>
      rw [hreader, Function.update_of_ne (by simp)]
      exact hthere
    | resets hpc _ _ hmain _ _ hact hknown =>
      obtain ⟨read, rfl⟩ := hact
      have huse : v.willUse = some (.outgoing id) := by
        rw [← huse]
        simp only [View.willUse, hmain, hknown]
      simp [View.safe, hpc, huse] at hG
    | adds _ hreader _ _ _ _ _ _ =>
      rw [hreader]
      exact isSome_update hthere

theorem context_move (hinv : Inv v) (h : Alive v) (hm : Move v a w) (r : ReaderRef)
    (hunlock : w.context = .unlock r) : (w.reader r).isSome := by
  have hthere : (v.reader r).isSome := by
    rcases unlock_of_move hinv hm hunlock with hold | hsome | ⟨id, hpush⟩
    · exact h.context r hold
    · exact hsome
    · cases h.outside id true (.inr hpush)
  cases readers_of_move hm with
  | keeps hkeeps _ => rwa [hkeeps]
  | erases _ _ _ _ hcontext _ => cases hcontext.symm.trans hunlock
  | resets _ _ _ _ hcontext _ => cases hcontext.symm.trans hunlock
  | adds _ hreader _ _ _ _ _ _ =>
    rw [hreader]
    exact isSome_update hthere

theorem outside_move (h : Alive v) (hG : v.safe a = true) (hm : Move v a w) (id : Uuid)
    (inside : Bool) (hpc : w.context = .unlockUsing id inside ∨ w.context = .push id inside) :
    inside = false := by
  cases hm with
  | erase hpc' =>
    rcases hpc with hpc | hpc
    · cases hpc
      simp only [View.safe, hpc', Bool.and_eq_true] at hG
      simpa using hG.1
    · cases hpc
  | contextUnguard hpc' =>
    rcases hpc with hpc | hpc
    · cases hpc
    · cases hpc
      exact h.outside _ _ (.inl hpc')
  | @push _ _ inside' =>
    cases inside' with
    | true => rcases hpc with hpc | hpc <;> cases hpc
    | false => rcases hpc with hpc | hpc <;> cases hpc
  | @fillEmpty _ r =>
    obtain ⟨kind, _⟩ := r
    cases kind with
    | accepted => rcases hpc with hpc | hpc <;> cases hpc
    | outgoing => rcases hpc with hpc | hpc <;> cases hpc
  | contextLock | contextLockGone | fillError | fillData | fillGone | contextUnlock
  | contextUnlockGone | contextGuard | reset | readEvent | teardown | disconnectAsked
  | teardownSingle => rcases hpc with hpc | hpc <;> cases hpc
  | _ => exact h.outside id inside hpc

theorem faults_move (hinv : Inv v) (h : Alive v) (hm : Move v a w) : w.faults = [] := by
  rcases faults_of_move hm with heq | ⟨id, hfound, hnone⟩ | ⟨r, huse, hnone⟩ | ⟨r, hworks, hnone⟩ |
    ⟨r, hunlock, hnone⟩
  · rw [heq, h.faults]
  · have hsome := h.found id hfound
    rw [hnone] at hsome
    cases hsome
  · have hsome := h.main r huse
    rw [hnone] at hsome
    cases hsome
  · have hsome := hinv.works r hworks
    rw [hnone] at hsome
    cases hsome
  · have hsome := h.context r hunlock
    rw [hnone] at hsome
    cases hsome

theorem alive_move (hinv : Inv v) (h : Alive v) (hG : v.safe a = true) (hm : Move v a w) :
    Alive w where
  found := found_move hinv h hG hm
  main := main_move hinv h hG hm
  context := context_move hinv h hm
  outside := outside_move h hG hm
  faults := faults_move hinv h hm

namespace System

theorem alive_of_starts {s : System} (h : Starts s) : Alive s.view := by
  have hmain : s.view.main = .idle := h.main
  have hcontext : s.view.context = .idle := h.context
  refine ⟨?_, ?_, ?_, ?_, h.faults⟩
  · intro id hfound
    rw [hmain] at hfound
    cases hfound
  · intro r huse
    simp [View.willUse, hmain] at huse
  · intro r hunlock
    rw [hcontext] at hunlock
    cases hunlock
  · intro id inside hpc
    rw [hcontext] at hpc
    rcases hpc with hpc | hpc <;> cases hpc

/-- **No use after the end of a connection, where each end is safe**: in every run none of whose
erasures and resets takes a connection that is still used, no reader is used after it is gone and no
second lookup misses. -/
theorem faults_of_safe {transformNumber : UInt64 → UInt64} {s : System}
    (h : (machine transformNumber).ReachUnder (fun s a => s.view.safe a = true) s) :
    s.faults = [] := by
  have halive : Alive s.view := view_invariant (fun _ => alive_of_starts)
    (fun _ _ _ hs hI hG hmove => alive_move (inv_of_reach hs) hI hG hmove) h
  exact halive.faults

/-! ## One connection and its end -/

/-- Connection 1 is accepted and has its client. -/
def connecting : List Act := [.accept 1 5, .main draw]

/-- The client's disconnection is asked for and done. -/
def disconnecting : List Act :=
  [.askDisconnect 1, .handleDisconnection, .context (.ok []), .context (.ok []), .context (.ok []),
    .context (.ok []), .main draw]

/-- A connection comes and goes, and is announced and forgotten. -/
theorem faults_of_safe_disconnecting : ∃ s : System,
    s.server.clients = [] ∧ s.server.generatedUUIDs = [1] ∧ s.faults = [] := by
  obtain ⟨s, hreach, hs⟩ := Machine.reachUnder_of_exec
    (M := machine Server.transformNumberFunction) (G := fun s a => s.view.safe a = true)
    (l := connecting ++ disconnecting)
    (p := fun s => s.server.clients = [] ∧ s.server.generatedUUIDs = [1])
    starts_started (by decide +kernel)
  obtain ⟨hclients, hids⟩ := of_decide_eq_true hs
  exact ⟨s, hclients, hids, faults_of_safe hreach⟩

/-- The peer of a connection closes: the connection is erased from inside the lock of its own
reader, which `with_lock` then unlocks. -/
theorem not_faultless : ¬ ∀ s : System,
    (machine Server.transformNumberFunction).Reach s → s.faults = [] := by
  intro hall
  obtain ⟨s, hreach, hs⟩ := Machine.reachUnder_of_exec
    (M := machine Server.transformNumberFunction) (G := Machine.Any)
    (l := connecting ++ [.readEvent (.accepted 1), .context (.ok []), .context (.ok []),
      .context (.ok []), .context (.ok []), .context (.ok []), .context (.ok []),
      .context (.ok [])])
    (p := fun s => s.faults = [.readerGone .context (.accepted 1)])
    starts_started (by decide +kernel)
  have hnone := hall s hreach
  rw [of_decide_eq_true hs] at hnone
  cases hnone

end System

end ProjectE.Threads
