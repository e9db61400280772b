import ProjectE.Threads.View

/-!
# What holds of every interleaving

The invariants all results about the two threads share. The owners of the mutexes agree with the
places of the threads. A connection is erased under `using_tcp_connection` and `on_tcp_data` runs on
an accepted connection under the same mutex, so that connection is there as long as it runs
(`Inv.guarded`); nothing of the kind holds of the outgoing connection. Ids are not used twice, so
an id never names two connections, and a connection that was announced gone does not come back.
-/

namespace ProjectE.Threads

open Verif Net

/-- The reader that `on_tcp_data` runs on. -/
def MainPc.inside : MainPc → Option ReaderRef
  | .enter r | .lock r _ _ | .body r _ _ | .unlock r _ _ | .parse r _ _ | .handle r _ _
  | .leave r => some r
  | .idle | .tcpRead _ | .lockUsing _ | .lookup _ | .halted => none

/-- The connection whose `TcpRead` the main thread works on. -/
def MainPc.on : MainPc → Option Uuid
  | .tcpRead id | .lockUsing id | .lookup id => some id
  | pc => pc.inside.map (·.id)

/-- The reader that the context thread works on. -/
def ContextPc.works : ContextPc → Option ReaderRef
  | .lock r | .body r => some r
  | .disconnect id _ | .erase id _ => some (.accepted id)
  | .reset id => some (.outgoing id)
  | .idle | .unlockUsing _ _ | .push _ _ | .unlock _ => none

/-- The accepted connection the context thread has erased and not yet announced. -/
def ContextPc.erased : ContextPc → Option Uuid
  | .unlockUsing id _ | .push id _ => some id
  | _ => none

/-- What holds at every place of both threads. -/
structure Inv (v : View) : Prop where
  /-- The owners are the threads whose places hold the mutexes. -/
  locks : v.locks.Agrees v.holds
  /-- Under the guard the connection is there. -/
  guarded : ∀ id, v.main.inside = some (.accepted id) → (v.reader (.accepted id)).isSome
  /-- The connection the context thread works on is there. -/
  works : ∀ r, v.context.works = some r → (v.reader r).isSome
  /-- A connection has an id in use. -/
  ids : ∀ r, (v.reader r).isSome → r.id ∈ v.ids
  /-- No id names two connections. -/
  disjoint : ∀ id, (v.reader (.accepted id)).isSome → v.reader (.outgoing id) = none
  /-- Events are about ids in use. -/
  queued : ∀ e ∈ v.events, e.2 ∈ v.ids
  /-- So is the event the main thread works on. -/
  onIds : ∀ id, v.main.on = some id → id ∈ v.ids
  /-- Nothing was read or taken under an id not in use. -/
  fresh : ∀ r, r.id ∉ v.ids → v.received r = [] ∧ v.taken r = []
  /-- A connection announced gone is gone. -/
  announced : ∀ id, (.tcpDisconnection, id) ∈ v.events → v.reader (.accepted id) = none
  /-- So is one that was erased. -/
  erased : ∀ id, v.context.erased = some id → id ∈ v.ids ∧ v.reader (.accepted id) = none

/-- `on_tcp_data` runs under `using_tcp_connection` for an accepted connection, and under no mutex
for the outgoing one. -/
@[simp] theorem mem_guard {r : ReaderRef} {m : Mutex} :
    m ∈ r.guard ↔ r.kind = .accepted ∧ m = .usingTcpConnection := by
  unfold ReaderRef.guard
  cases r.kind <;> simp

/-- A disconnection that comes from inside a handler holds the reader's mutex still. -/
@[simp] theorem mem_around {id : Uuid} {inside : Bool} {m : Mutex} :
    m ∈ around id inside ↔ inside = true ∧ m = .reader (.accepted id) := by
  unfold around
  cases inside <;> simp

@[simp] theorem held_loopHead (r : ReaderRef) (client : Uuid) (packet : Option Packet) :
    (System.loopHead r client packet).held = r.guard := by
  cases packet <;> rfl

@[simp] theorem held_afterUnlock (r : ReaderRef) (client : Uuid) (after : After) :
    (System.afterUnlock r client after).held = r.guard := by
  cases after with
  | parsed packet => exact held_loopHead r client packet
  | reparse buffer => rfl

@[simp] theorem inside_loopHead (r : ReaderRef) (client : Uuid) (packet : Option Packet) :
    (System.loopHead r client packet).inside = some r := by
  cases packet <;> rfl

@[simp] theorem inside_afterUnlock (r : ReaderRef) (client : Uuid) (after : After) :
    (System.afterUnlock r client after).inside = some r := by
  cases after with
  | parsed packet => exact inside_loopHead r client packet
  | reparse buffer => rfl

@[simp] theorem on_loopHead (r : ReaderRef) (client : Uuid) (packet : Option Packet) :
    (System.loopHead r client packet).on = some r.id := by
  cases packet <;> rfl

@[simp] theorem on_afterUnlock (r : ReaderRef) (client : Uuid) (after : After) :
    (System.afterUnlock r client after).on = some r.id := by
  cases after with
  | parsed packet => exact on_loopHead r client packet
  | reparse buffer => rfl

/-- The reader the main thread is in is that of the connection it works on. -/
theorem MainPc.on_of_inside {pc : MainPc} {r : ReaderRef} (h : pc.inside = some r) :
    pc.on = some r.id := by
  cases pc with
  | idle | tcpRead | lockUsing | lookup | halted => cases h
  | _ =>
    cases h
    rfl

variable {v w : View} {a : Act}

/-! ## Mutexes -/

/-- The context thread's mutexes are its own, whatever the main thread does. -/
theorem agrees_main (h : v.locks.Agrees v.holds) (hlocks : w.locks = v.locks)
    (hcontext : w.context = v.context) (hheld : w.main.held = v.main.held) :
    w.locks.Agrees w.holds := by
  rw [hlocks]
  apply h.congr
  intro t m
  cases t with
  | main => simp only [View.holds, hheld]
  | context => simp only [View.holds, hcontext]

/-- And the other way round. -/
theorem agrees_context (h : v.locks.Agrees v.holds) (hlocks : w.locks = v.locks)
    (hmain : w.main = v.main) (hheld : w.context.held = v.context.held) :
    w.locks.Agrees w.holds := by
  rw [hlocks]
  apply h.congr
  intro t m
  cases t with
  | main => simp only [View.holds, hmain]
  | context => simp only [View.holds, hheld]

/-- The main thread ends and holds nothing. -/
theorem agrees_halt (h : v.locks.Agrees v.holds) (fault : Fault) :
    (v.halt fault).locks.Agrees (v.halt fault).holds := by
  apply h.dropAll (t := .main)
  intro t m
  cases t with
  | main => simp [View.holds, View.halt, MainPc.held]
  | context => simp [View.holds, View.halt]

/-- No step leaves a mutex with an owner that does not hold it. -/
theorem agrees_move (h : v.locks.Agrees v.holds) (hm : Move v a w) : w.locks.Agrees w.holds := by
  cases hm with
  | connect => exact agrees_main h rfl rfl rfl
  | disconnect => exact agrees_main h rfl rfl rfl
  | popRead hpc => exact agrees_main h rfl rfl (by rw [hpc]; rfl)
  | toOutgoing hpc => exact agrees_main h rfl rfl (by rw [hpc]; rfl)
  | toAccepted hpc => exact agrees_main h rfl rfl (by rw [hpc]; rfl)
  | notFound hpc => exact agrees_main h rfl rfl (by rw [hpc]; rfl)
  | lockUsing hpc hfree =>
    apply h.acquire hfree
    intro t m
    cases t <;> simp [View.holds, hpc, MainPc.held]
  | found hpc => exact agrees_main h rfl rfl (by rw [hpc]; rfl)
  | missed => exact agrees_halt h _
  | enterKnown hpc => exact agrees_main h rfl rfl (by rw [hpc]; rfl)
  | enterUnknown hpc => exact agrees_main h rfl rfl (by rw [hpc]; rfl)
  | lock hpc _ hfree =>
    apply h.acquire hfree
    intro t m
    cases t <;> simp [View.holds, hpc, MainPc.held, or_comm]
  | first hpc => exact agrees_main h rfl rfl (by rw [hpc]; rfl)
  | consume hpc => exact agrees_main h rfl rfl (by rw [hpc]; rfl)
  | @unlock _ r _ _ hpc =>
    have hheld : v.main.held = .reader r :: r.guard := by rw [hpc]; rfl
    apply h.release (t := .main) (m := .reader r) (by simp [View.holds, hheld])
    intro t m
    cases t with
    | main =>
      simp only [View.holds, hheld, held_afterUnlock, mem_guard, List.mem_cons]
      grind
    | context => simp [View.holds]
  | parseShort hpc => exact agrees_main h rfl rfl (by rw [hpc]; rfl)
  | parse hpc => exact agrees_main h rfl rfl (by rw [hpc, held_loopHead]; rfl)
  | handle hpc => exact agrees_main h rfl rfl (by rw [hpc]; rfl)
  | @leave _ r hpc =>
    obtain ⟨kind, id⟩ := r
    cases kind with
    | accepted =>
      refine h.release (t := .main) (m := .usingTcpConnection)
        (by simp [View.holds, hpc, MainPc.held]) ?_
      intro t m
      cases t <;> simp [View.holds, hpc, MainPc.held]
    | outgoing => exact agrees_main h rfl rfl (by rw [hpc]; rfl)
  | gone => exact agrees_halt h _
  | contextLock hpc _ hfree =>
    apply h.acquire hfree
    intro t m
    cases t <;> simp [View.holds, hpc, ContextPc.held]
  | contextLockGone hpc => exact agrees_context h rfl rfl (by rw [hpc]; rfl)
  | fillError hpc => exact agrees_context h rfl rfl (by rw [hpc]; rfl)
  | fillData hpc => exact agrees_context h rfl rfl (by rw [hpc]; rfl)
  | @fillEmpty _ r _ hpc =>
    obtain ⟨kind, id⟩ := r
    cases kind with
    | accepted => exact agrees_context h rfl rfl (by rw [hpc]; rfl)
    | outgoing => exact agrees_context h rfl rfl (by rw [hpc]; rfl)
  | fillGone hpc => exact agrees_context h rfl rfl (by rw [hpc]; rfl)
  | @contextUnlock _ r hpc =>
    refine h.release (t := .context) (m := .reader r) (by simp [View.holds, hpc, ContextPc.held])
      ?_
    intro t m
    cases t <;> simp [View.holds, hpc, ContextPc.held]
  | @contextUnlockGone _ r hpc =>
    refine h.release (t := .context) (m := .reader r) (by simp [View.holds, hpc, ContextPc.held])
      ?_
    intro t m
    cases t <;> simp [View.holds, hpc, ContextPc.held]
  | contextGuard hpc hfree =>
    apply h.acquire hfree
    intro t m
    cases t <;> simp [View.holds, hpc, ContextPc.held, or_comm]
  | erase hpc => exact agrees_context h rfl rfl (by rw [hpc]; rfl)
  | @contextUnguard _ id inside hpc =>
    refine h.release (t := .context) (m := .usingTcpConnection)
      (by simp [View.holds, hpc, ContextPc.held]) ?_
    intro t m
    cases t with
    | main => simp [View.holds]
    | context =>
      simp only [View.holds, hpc, ContextPc.held, List.mem_cons, mem_around]
      grind
  | @push _ id inside hpc =>
    cases inside with
    | true => exact agrees_context h rfl rfl (by rw [hpc]; rfl)
    | false => exact agrees_context h rfl rfl (by rw [hpc]; rfl)
  | reset hpc => exact agrees_context h rfl rfl (by rw [hpc]; rfl)
  | accept => exact agrees_context h rfl rfl rfl
  | readEvent hpc => exact agrees_context h rfl rfl (by rw [hpc]; rfl)
  | teardown hpc => exact agrees_context h rfl rfl (by rw [hpc]; rfl)
  | disconnectAsked hpc => exact agrees_context h rfl rfl (by rw [hpc]; rfl)
  | disconnectIgnored => exact agrees_context h rfl rfl rfl
  | teardownSingle hpc => exact agrees_context h rfl rfl (by rw [hpc]; rfl)
  | ask => exact agrees_context h rfl rfl rfl

/-! ## Which readers are there -/

/-- Storing a reader removes none. -/
theorem isSome_update {f : ReaderRef → Option BufReader} {r r' : ReaderRef} {x : BufReader}
    (h : (f r').isSome) : (Function.update f r (some x) r').isSome := by
  by_cases heq : r' = r
  · rw [heq, Function.update_self]
    rfl
  · rwa [Function.update_of_ne heq]

/-- What a move does to the readers: it keeps them all, or erases one accepted connection, or resets
the outgoing one, or adds an accepted one under a new id. -/
inductive Readers (v : View) (a : Act) (w : View) : Prop
  | keeps : (∀ r, (w.reader r).isSome = (v.reader r).isSome) → w.ids = v.ids → Readers v a w
  | erases {id inside} : v.context = .erase id inside →
      w.reader = Function.update v.reader (.accepted id) none → w.ids = v.ids →
      w.main = v.main → w.context = .unlockUsing id inside → w.events = v.events →
      (∃ read, a = .context read) → w.received = v.received → w.taken = v.taken → Readers v a w
  | resets {id} : v.context = .reset id → w.reader = View.withoutOutgoing v.reader →
      w.ids = v.ids → w.main = v.main → w.context = .idle → w.events = v.events →
      (∃ read, a = .context read) → w.known = v.known → Readers v a w
  | adds {id} : id ∉ v.ids → w.reader = Function.update v.reader (.accepted id)
        (some ((v.reader (.accepted id)).getD BufReader.new)) → w.ids = id :: v.ids →
      w.main = v.main → w.context = v.context → w.events = v.events ++ [(.tcpConnection, id)] →
      w.received = v.received → w.taken = v.taken → Readers v a w

/-- Storing a reader where there was one changes nothing about which are there. -/
theorem update_isSome_eq {f : ReaderRef → Option BufReader} {r : ReaderRef} {x y : BufReader}
    (h : f r = some y) (r' : ReaderRef) :
    (Function.update f r (some x) r').isSome = (f r').isSome := by
  by_cases heq : r' = r
  · rw [heq, Function.update_self, h]
    rfl
  · rw [Function.update_of_ne heq]

/-- What one step can do to the readers. -/
theorem readers_of_move (hm : Move v a w) : Readers v a w := by
  cases hm with
  | consume _ hreader => exact .keeps (update_isSome_eq hreader) rfl
  | fillError _ hreader => exact .keeps (update_isSome_eq hreader) rfl
  | fillData _ hreader => exact .keeps (update_isSome_eq hreader) rfl
  | fillEmpty _ hreader => exact .keeps (update_isSome_eq hreader) rfl
  | erase hpc => exact .erases hpc rfl rfl rfl rfl rfl ⟨_, rfl⟩ rfl rfl
  | reset hpc => exact .resets hpc rfl rfl rfl rfl rfl ⟨_, rfl⟩ rfl
  | accept _ hid => exact .adds hid rfl rfl rfl rfl rfl rfl rfl
  | _ => exact .keeps (fun _ => rfl) rfl

/-- `on_tcp_data` runs on the reader it ran on, or was just called on one that is there. -/
theorem inside_of_move (hm : Move v a w) {r : ReaderRef} (h : w.main.inside = some r) :
    v.main.inside = some r ∨ (v.reader r).isSome := by
  cases hm with
  | toOutgoing _ hsome =>
    cases h
    exact .inr hsome
  | found _ hsome =>
    cases h
    exact .inr hsome
  | enterKnown hpc => exact .inl (by rw [hpc]; exact h)
  | enterUnknown hpc => exact .inl (by rw [hpc]; exact h)
  | lock hpc => exact .inl (by rw [hpc]; exact h)
  | first hpc => exact .inl (by rw [hpc]; exact h)
  | consume hpc => exact .inl (by rw [hpc]; exact h)
  | unlock hpc => exact .inl (by rw [hpc]; rwa [inside_afterUnlock] at h)
  | parseShort hpc => exact .inl (by rw [hpc]; exact h)
  | parse hpc => exact .inl (by rw [hpc]; rwa [inside_loopHead] at h)
  | handle hpc => exact .inl (by rw [hpc]; exact h)
  | popRead | toAccepted | notFound | lockUsing | missed | leave | gone => cases h
  | _ => exact .inl h

/-- The context thread works on the connection it worked on, or on one that is there. -/
theorem works_of_move (hm : Move v a w) {r : ReaderRef} (h : w.context.works = some r) :
    v.context.works = some r ∨ (v.reader r).isSome := by
  cases hm with
  | contextLock hpc => exact .inl (by rw [hpc]; exact h)
  | @fillEmpty _ r' reader hpc hreader =>
    right
    obtain ⟨kind, id⟩ := r'
    cases kind with
    | accepted =>
      cases h
      rw [hreader]
      rfl
    | outgoing => cases h
  | contextGuard hpc => exact .inl (by rw [hpc]; exact h)
  | readEvent _ hsome =>
    cases h
    exact .inr hsome
  | teardown _ hsome =>
    cases h
    exact .inr hsome
  | disconnectAsked _ _ hsome =>
    cases h
    exact .inr hsome
  | teardownSingle _ hsome =>
    cases h
    exact .inr hsome
  | @push _ _ inside =>
    cases inside with
    | true => cases h
    | false => cases h
  | contextLockGone | fillError | fillData | fillGone | contextUnlock | contextUnlockGone | erase
  | contextUnguard | reset => cases h
  | _ => exact .inl h

/-- An id stays in use for ever. -/
theorem ids_of_move (hm : Move v a w) {id : Uuid} (h : id ∈ v.ids) : id ∈ w.ids := by
  cases hm with
  | accept => exact List.mem_cons_of_mem _ h
  | _ => exact h

/-- Bytes are received by readers that are there, and packets taken where `on_tcp_data` runs. -/
theorem ghosts_of_move (hm : Move v a w) (r : ReaderRef) :
    (w.received r = v.received r ∨ (v.reader r).isSome) ∧
      (w.taken r = v.taken r ∨ v.main.inside = some r) := by
  have hreceived {r' : ReaderRef} {reader : BufReader} {bs : List UInt8}
      (hreader : v.reader r' = some reader) :
      Function.update v.received r' bs r = v.received r ∨ (v.reader r).isSome := by
    by_cases heq : r = r'
    · exact .inr (by rw [heq, hreader]; rfl)
    · exact .inl (Function.update_of_ne heq _ _)
  cases hm with
  | fillError _ hreader => exact ⟨hreceived hreader, .inl rfl⟩
  | fillData _ hreader => exact ⟨hreceived hreader, .inl rfl⟩
  | fillEmpty _ hreader => exact ⟨hreceived hreader, .inl rfl⟩
  | @handle _ r' _ _ hpc =>
    refine ⟨.inl rfl, ?_⟩
    by_cases heq : r = r'
    · exact .inr (by rw [hpc, heq]; rfl)
    · exact .inl (Function.update_of_ne heq _ _)
  | _ => exact ⟨.inl rfl, .inl rfl⟩

/-- Where an event comes from: an accept, a read, or a disconnection, of a connection just erased or
of the outgoing one before it is reset. -/
theorem queued_of_move (hm : Move v a w) {e : TCPEvent × Uuid} (h : e ∈ w.events) :
    e ∈ v.events ∨ (e.1 = .tcpConnection ∧ e.2 ∈ w.ids) ∨
      (e.1 = .tcpRead ∧ ∃ r, v.context.works = some r ∧ e.2 = r.id) ∨
      (e.1 = .tcpDisconnection ∧
        (v.context.erased = some e.2 ∨ (v.reader (.outgoing e.2)).isSome)) := by
  cases hm with
  | connect _ hevents => exact .inl (by rw [hevents]; exact List.mem_cons_of_mem _ h)
  | disconnect _ hevents => exact .inl (by rw [hevents]; exact List.mem_cons_of_mem _ h)
  | popRead _ hevents => exact .inl (by rw [hevents]; exact List.mem_cons_of_mem _ h)
  | @fillData r _ _ hpc =>
    rcases List.mem_append.mp h with h | h
    · exact .inl h
    · cases List.mem_singleton.mp h
      exact .inr (.inr (.inl ⟨rfl, r, by rw [hpc]; rfl, rfl⟩))
  | push hpc =>
    rcases List.mem_append.mp h with h | h
    · exact .inl h
    · cases List.mem_singleton.mp h
      exact .inr (.inr (.inr ⟨rfl, .inl (by rw [hpc]; rfl)⟩))
  | accept =>
    rcases List.mem_append.mp h with h | h
    · exact .inl h
    · cases List.mem_singleton.mp h
      exact .inr (.inl ⟨rfl, List.mem_cons_self⟩)
  | teardownSingle _ hsome =>
    rcases List.mem_append.mp h with h | h
    · exact .inl h
    · cases List.mem_singleton.mp h
      exact .inr (.inr (.inr ⟨rfl, .inr hsome⟩))
  | _ => exact .inl h

/-- The main thread works on the connection it worked on, or on that of the event it pops. -/
theorem on_of_move (hm : Move v a w) {id : Uuid} (h : w.main.on = some id) :
    v.main.on = some id ∨ ∃ rest, v.main = .idle ∧ v.events = (.tcpRead, id) :: rest := by
  cases hm with
  | popRead hpc hevents =>
    cases h
    exact .inr ⟨_, hpc, hevents⟩
  | toOutgoing hpc => exact .inl (by rw [hpc]; exact h)
  | toAccepted hpc => exact .inl (by rw [hpc]; exact h)
  | lockUsing hpc => exact .inl (by rw [hpc]; exact h)
  | found hpc => exact .inl (by rw [hpc]; exact h)
  | enterKnown hpc => exact .inl (by rw [hpc]; exact h)
  | enterUnknown hpc => exact .inl (by rw [hpc]; exact h)
  | lock hpc => exact .inl (by rw [hpc]; exact h)
  | first hpc => exact .inl (by rw [hpc]; exact h)
  | consume hpc => exact .inl (by rw [hpc]; exact h)
  | unlock hpc => exact .inl (by rw [hpc]; rwa [on_afterUnlock] at h)
  | parseShort hpc => exact .inl (by rw [hpc]; exact h)
  | parse hpc => exact .inl (by rw [hpc]; rwa [on_loopHead] at h)
  | handle hpc => exact .inl (by rw [hpc]; exact h)
  | notFound | missed | leave | gone => cases h
  | _ => exact .inl h

/-- What is erased and not announced was so before, or was erased in this step. -/
theorem erased_of_move (hm : Move v a w) {id : Uuid} (h : w.context.erased = some id) :
    v.context.erased = some id ∨ (∃ inside, v.context = .erase id inside) ∧
      w.reader (.accepted id) = none := by
  cases hm with
  | erase hpc =>
    cases h
    exact .inr ⟨⟨_, hpc⟩, Function.update_self _ _ _⟩
  | contextUnguard hpc => exact .inl (by rw [hpc]; exact h)
  | @fillEmpty _ r' reader hpc hreader =>
    obtain ⟨kind, _⟩ := r'
    cases kind with
    | accepted => cases h
    | outgoing => cases h
  | @push _ _ inside =>
    cases inside with
    | true => cases h
    | false => cases h
  | contextLock | contextLockGone | fillError | fillData | fillGone | contextUnlock
  | contextUnlockGone | contextGuard | reset | readEvent | teardown | disconnectAsked
  | teardownSingle => cases h
  | _ => exact .inl h

/-! ## The invariant -/

/-- `on_tcp_data` runs on an accepted connection under the guard. -/
theorem using_mem_held {pc : MainPc} {id : Uuid} (h : pc.inside = some (.accepted id)) :
    .usingTcpConnection ∈ pc.held := by
  cases pc with
  | idle | tcpRead | lockUsing | lookup | halted => cases h
  | _ =>
    cases h
    simp [MainPc.held]

/-- Under the guard of the context thread, `on_tcp_data` runs on no accepted connection. -/
theorem not_inside_of_erase (hinv : Inv v) {id id' : Uuid} {inside : Bool}
    (hpc : v.context = .erase id inside) : v.main.inside ≠ some (.accepted id') := by
  intro hinside
  have hmainHolds : v.holds .main .usingTcpConnection := using_mem_held hinside
  have hcontextHolds : v.holds .context .usingTcpConnection := by
    simp [View.holds, hpc, ContextPc.held]
  cases hinv.locks.exclusive hmainHolds hcontextHolds

/-- A connection that is gone under an id in use stays gone. -/
theorem Readers.stays_gone (hr : Readers v a w) {id : Uuid} (hid : id ∈ v.ids)
    (hnone : v.reader (.accepted id) = none) : w.reader (.accepted id) = none := by
  cases hr with
  | keeps hkeeps _ =>
    rw [← Option.not_isSome_iff_eq_none, hkeeps, hnone]
    exact Bool.false_ne_true
  | @erases id' _ _ hreader _ _ _ =>
    rw [hreader]
    by_cases heq : id = id'
    · rw [heq, Function.update_self]
    · rw [Function.update_of_ne (by simpa using heq), hnone]
  | resets _ hreader _ _ _ =>
    rw [hreader]
    exact hnone
  | @adds id' hfresh hreader _ _ _ _ _ _ =>
    have hne : id ≠ id' := by
      intro heq
      exact hfresh (heq ▸ hid)
    rw [hreader, Function.update_of_ne (by simpa using hne), hnone]

/-- The connection `on_tcp_data` runs on is not erased meanwhile: the eraser needs the mutex that
the main thread holds. -/
theorem guarded_move (h : Inv v) (hm : Move v a w) (id : Uuid)
    (hinside : w.main.inside = some (.accepted id)) : (w.reader (.accepted id)).isSome := by
  have hthere : (v.reader (.accepted id)).isSome :=
    (inside_of_move hm hinside).elim (h.guarded id) fun h => h
  cases readers_of_move hm with
  | keeps hkeeps _ => rwa [hkeeps]
  | erases hpc hreader _ hmain _ _ =>
    rw [hmain] at hinside
    exact absurd hinside (not_inside_of_erase h hpc)
  | resets _ hreader _ _ _ =>
    rw [hreader]
    exact hthere
  | adds _ hreader _ _ _ _ _ _ =>
    rw [hreader]
    exact isSome_update hthere

/-- The connection the context thread works on is there until that thread takes it out. -/
theorem works_move (h : Inv v) (hm : Move v a w) (r : ReaderRef)
    (hworks : w.context.works = some r) : (w.reader r).isSome := by
  have hthere : (v.reader r).isSome := (works_of_move hm hworks).elim (h.works r) fun h => h
  cases readers_of_move hm with
  | keeps hkeeps _ => rwa [hkeeps]
  | erases _ _ _ _ hcontext _ =>
    rw [hcontext] at hworks
    cases hworks
  | resets _ _ _ _ hcontext _ =>
    rw [hcontext] at hworks
    cases hworks
  | adds _ hreader _ _ _ _ _ _ =>
    rw [hreader]
    exact isSome_update hthere

/-- A connection that appears has an id that was just taken into use. -/
theorem ids_move (h : Inv v) (hm : Move v a w) (r : ReaderRef) (hsome : (w.reader r).isSome) :
    r.id ∈ w.ids := by
  cases readers_of_move hm with
  | keeps hkeeps _ =>
    rw [hkeeps] at hsome
    exact ids_of_move hm (h.ids r hsome)
  | @erases id _ _ hreader _ _ _ _ =>
    rw [hreader] at hsome
    by_cases heq : r = .accepted id
    · rw [heq, Function.update_self] at hsome
      cases hsome
    · rw [Function.update_of_ne heq] at hsome
      exact ids_of_move hm (h.ids r hsome)
  | resets _ hreader _ _ _ _ =>
    rw [hreader] at hsome
    obtain ⟨kind, id⟩ := r
    cases kind with
    | accepted => exact ids_of_move hm (h.ids _ hsome)
    | outgoing => cases hsome
  | @adds id _ hreader hids _ _ _ _ _ =>
    rw [hreader] at hsome
    by_cases heq : r = .accepted id
    · rw [heq, hids]
      exact List.mem_cons_self
    · rw [Function.update_of_ne heq] at hsome
      exact ids_of_move hm (h.ids r hsome)

/-- A new connection's id is not another's, as ids are not used twice. -/
theorem disjoint_move (h : Inv v) (hm : Move v a w) (id : Uuid)
    (hsome : (w.reader (.accepted id)).isSome) : w.reader (.outgoing id) = none := by
  cases readers_of_move hm with
  | keeps hkeeps _ =>
    rw [hkeeps] at hsome
    rw [← Option.not_isSome_iff_eq_none, hkeeps, h.disjoint id hsome]
    exact Bool.false_ne_true
  | @erases id' _ _ hreader _ _ _ _ =>
    rw [hreader] at hsome ⊢
    rw [Function.update_of_ne (by simp)]
    by_cases heq : id = id'
    · rw [heq, Function.update_self] at hsome
      cases hsome
    · rw [Function.update_of_ne (by simpa using heq)] at hsome
      exact h.disjoint id hsome
  | resets _ hreader _ _ _ _ =>
    rw [hreader]
    rfl
  | @adds id' hfresh hreader _ _ _ _ _ _ =>
    rw [hreader] at hsome ⊢
    rw [Function.update_of_ne (by simp)]
    by_cases heq : id = id'
    · subst heq
      rw [← Option.not_isSome_iff_eq_none]
      intro hout
      exact hfresh (h.ids _ hout)
    · rw [Function.update_of_ne (by simpa using heq)] at hsome
      exact h.disjoint id hsome

/-- One step keeps the invariant. -/
theorem inv_move (h : Inv v) (hm : Move v a w) : Inv w where
  locks := agrees_move h.locks hm
  guarded := guarded_move h hm
  works := works_move h hm
  ids := ids_move h hm
  disjoint := disjoint_move h hm
  queued e hmem := by
    rcases queued_of_move hm hmem with hold | ⟨_, hid⟩ | ⟨_, r, hworks, hid⟩ | ⟨_, herased | hout⟩
    · exact ids_of_move hm (h.queued e hold)
    · exact hid
    · exact hid ▸ ids_of_move hm (h.ids r (h.works r hworks))
    · exact ids_of_move hm (h.erased _ herased).1
    · exact ids_of_move hm (h.ids _ hout)
  onIds id hon := by
    rcases on_of_move hm hon with hold | ⟨rest, _, hevents⟩
    · exact ids_of_move hm (h.onIds id hold)
    · exact ids_of_move hm (h.queued (.tcpRead, id) (by rw [hevents]; exact List.mem_cons_self))
  fresh r hfresh := by
    have hold : r.id ∉ v.ids := by
      intro hid
      exact hfresh (ids_of_move hm hid)
    obtain ⟨hreceived, htaken⟩ := ghosts_of_move hm r
    obtain ⟨h₁, h₂⟩ := h.fresh r hold
    constructor
    · rcases hreceived with heq | hsome
      · rw [heq, h₁]
      · exact absurd (h.ids r hsome) hold
    · rcases htaken with heq | hinside
      · rw [heq, h₂]
      · exact absurd (h.onIds _ (MainPc.on_of_inside hinside)) hold
  announced id hmem := by
    have hgone : id ∈ v.ids ∧ v.reader (.accepted id) = none := by
      rcases queued_of_move hm hmem with hold | ⟨hevent, _⟩ | ⟨hevent, _⟩ | ⟨_, herased | hout⟩
      · exact ⟨h.queued _ hold, h.announced id hold⟩
      · cases hevent
      · cases hevent
      · exact h.erased id herased
      · refine ⟨h.ids _ hout, ?_⟩
        rw [← Option.not_isSome_iff_eq_none]
        intro hsome
        rw [h.disjoint id hsome] at hout
        cases hout
    exact (readers_of_move hm).stays_gone hgone.1 hgone.2
  erased id hid := by
    rcases erased_of_move hm hid with hold | ⟨⟨inside, hpc⟩, hnone⟩
    · obtain ⟨hin, hnone⟩ := h.erased id hold
      exact ⟨ids_of_move hm hin, (readers_of_move hm).stays_gone hin hnone⟩
    · exact ⟨ids_of_move hm (h.ids _ (h.works (.accepted id) (by rw [hpc]; rfl))), hnone⟩

/-- At the start there is no connection and no event. -/
theorem inv_of_starts {s : System} (h : System.Starts s) : Inv s.view := by
  have haccepted (id : Uuid) : s.reader (.accepted id) = none :=
    System.reader_accepted_none (by rw [h.connections]; exact AList.notMem_empty id)
  have hlocks : s.view.locks = fun _ => none := h.locks
  have hmain : s.view.main = .idle := h.main
  have hcontext : s.view.context = .idle := h.context
  refine ⟨?_, ?_, ?_, ?_, ?_, ?_, ?_, ?_, ?_, ?_⟩
  · intro t m
    rw [hlocks]
    cases t with
    | main => simp [View.holds, hmain, MainPc.held]
    | context => simp [View.holds, hcontext, ContextPc.held]
  · intro id hinside
    rw [hmain] at hinside
    cases hinside
  · intro r hworks
    rw [hcontext] at hworks
    cases hworks
  · rintro ⟨kind, id⟩ hsome
    cases kind with
    | accepted =>
      rw [show s.view.reader ⟨.accepted, id⟩ = none from haccepted id] at hsome
      cases hsome
    | outgoing =>
      have hout := System.reader_outgoing_isSome.mp hsome
      rcases h.outgoing with ⟨hnone, _⟩ | ⟨id', fd, hconnection, _, hid⟩
      · rw [hnone] at hout
        cases hout
      · rw [hconnection] at hout
        cases hout
        exact hid
  · intro id hsome
    rw [show s.view.reader (.accepted id) = none from haccepted id] at hsome
    cases hsome
  · intro e hmem
    have hmem : e ∈ s.server.tcpEvents := hmem
    rcases h.outgoing with ⟨_, hevents⟩ | ⟨id', fd, _, hevents, hid⟩
    · rw [hevents] at hmem
      cases hmem
    · rw [hevents, List.mem_singleton] at hmem
      cases hmem
      exact hid
  · intro id hon
    rw [hmain] at hon
    cases hon
  · intro r _
    exact ⟨congrFun h.received r, congrFun h.taken r⟩
  · intro id hmem
    have hmem : (.tcpDisconnection, id) ∈ s.server.tcpEvents := hmem
    rcases h.outgoing with ⟨_, hevents⟩ | ⟨id', fd, _, hevents, _⟩
    · rw [hevents] at hmem
      cases hmem
    · rw [hevents] at hmem
      simp at hmem
  · intro id herased
    rw [hcontext] at herased
    cases herased

/-- **Every reachable state meets the invariant.** -/
theorem inv_of_reach {transformNumber : UInt64 → UInt64} {s : System}
    (h : (System.machine transformNumber).Reach s) : Inv s.view :=
  System.view_invariant (fun _ => inv_of_starts) (fun _ _ _ _ hI _ hmove => inv_move hI hmove) h

end ProjectE.Threads
