import ProjectE.Lib.Census
import ProjectE.Lib.Fifo
import ProjectE.Lib.Linear
import ProjectE.Lib.Lock
import ProjectE.Lib.Transition

/-!
# The thread-safe queue

The server hands everything from one thread to the other in queues: the events of connections, the
datagrams received, what is to be sent and who is to be disconnected. A queue is a mutex, a
condition variable and a stop flag. Any number of threads call it here; a step is one thread's lock,
its critical section, its wait, its unlock, its notification or its return. The condition variable
may wake a thread for no reason, and a wait with a limit may end at any time.

The queue is linearizable (`linearizes`): each call takes effect at one point between its call and
its return, as the sequential queue (`serve`) would have it. So values come out once, in the order
in which they went in (`hands_over_in_order`), whatever the threads do.
-/

namespace ProjectE.Threads

open Verif Verif.Linear

universe u v

variable {T : Type u} {τ : Type v}

/-- The overloads of `push` do the same to the values; `waitPopFor` is `wait_pop` with a limit. -/
inductive QueueCall (T : Type u) where
  | size
  | push (value : T)
  | waitPop
  | waitPopFor
  | tryPop
  | clear
  | empty
  | stop
  | isStopped

/-- What the methods answer. -/
inductive QueueAnswer (T : Type u) where
  | void
  | count (n : Nat)
  | value (v : Option T)
  | flag (b : Bool)

/-- Whether a method notifies, and how many of those who wait. -/
inductive Notify where
  | one
  | all
  deriving DecidableEq

/-- What a call does with the condition variable after it has unlocked. -/
def QueueCall.notify? : QueueCall T → Option Notify
  | .push _ => some .one
  | .stop => some .all
  | _ => none

/-- The calls that may sleep. -/
def QueueCall.waits : QueueCall T → Bool
  | .waitPop | .waitPopFor => true
  | _ => false

/-- The calls that take values out. -/
def QueueCall.takes : QueueCall T → Bool
  | .waitPop | .waitPopFor | .tryPop | .clear => true
  | _ => false

/-! ## What stands between the lock and the unlock -/

/-- The members of `TSQueue` that its mutex guards. -/
structure TsQueue (T : Type u) where
  queue : List T := []
  stopped : Bool := false

namespace TsQueue

/-- `size`, under the lock. -/
def size (q : TsQueue T) : Nat := q.queue.length

/-- `push`: the value goes to the back. -/
def push (q : TsQueue T) (value : T) : TsQueue T := { q with queue := q.queue ++ [value] }

/-- What both waits wait for. -/
def ready (q : TsQueue T) : Bool := !q.queue.isEmpty || q.stopped

/-- `front` and `pop`; of an empty queue there is no front. -/
def pop (q : TsQueue T) : Option T × TsQueue T :=
  (q.queue.head?, { q with queue := q.queue.tail })

/-- What is done after the wait. -/
def take (q : TsQueue T) : Option T × TsQueue T :=
  if q.stopped && q.queue.isEmpty then (none, q) else q.pop

/-- The queue is not ready: the caller sleeps. -/
def waitPop (q : TsQueue T) : Option (Option T × TsQueue T) :=
  if q.ready then some q.take else none

/-- The wait with a limit asks once more when the limit has passed. -/
def waitPopFor (q : TsQueue T) (expired : Bool) : Option (Option T × TsQueue T) :=
  if q.ready then some q.take else if expired then some (none, q) else none

/-- `try_pop`: the value at the front, if there is one. -/
def tryPop (q : TsQueue T) : Option T × TsQueue T :=
  if q.queue.isEmpty then (none, q) else q.pop

/-- `while (!_queue.empty()) _queue.pop()`: the loop of `clear`, which has the lock all the while.
-/
def clearLoop : List T → List T
  | [] => []
  | _ :: rest => clearLoop rest

/-- `clear`: the values are popped one after the other and given to nobody. -/
def clear (q : TsQueue T) : TsQueue T := { q with queue := clearLoop q.queue }

/-- `empty`, under the lock. -/
def empty (q : TsQueue T) : Bool := q.queue.isEmpty

/-- `stop`: the waits end, and the values stay. -/
def stop (q : TsQueue T) : TsQueue T := { q with stopped := true }

/-- `is_stopped`, under the lock. -/
def isStopped (q : TsQueue T) : Bool := q.stopped

/-- A call's critical section; none if it ends in the wait. -/
def body (q : TsQueue T) (expired : Bool) : QueueCall T → Option (QueueAnswer T × TsQueue T)
  | .size => some (.count q.size, q)
  | .push v => some (.void, q.push v)
  | .waitPop => q.waitPop.map fun r => (.value r.1, r.2)
  | .waitPopFor => (q.waitPopFor expired).map fun r => (.value r.1, r.2)
  | .tryPop => some (.value q.tryPop.1, q.tryPop.2)
  | .clear => some (.void, q.clear)
  | .empty => some (.flag q.empty, q)
  | .stop => some (.void, q.stop)
  | .isStopped => some (.flag q.isStopped, q)

/-- The loop of `clear` ends with an empty queue. -/
@[simp] theorem clearLoop_eq (l : List T) : clearLoop l = [] := by
  induction l with
  | nil => rfl
  | cons v l ih => exact ih

/-- Only a wait on an empty queue that is not stopped sleeps. -/
theorem body_eq_none {q : TsQueue T} {expired : Bool} {c : QueueCall T}
    (h : q.body expired c = none) : c.waits = true ∧ q.queue = [] ∧ q.stopped = false := by
  obtain ⟨l, b⟩ := q
  cases c <;> simp [body] at h
  · cases l <;> cases b <;> simp [waitPop, ready] at h
    exact ⟨rfl, rfl, rfl⟩
  · cases l <;> cases b <;> simp [waitPopFor, ready] at h
    exact ⟨rfl, rfl, rfl⟩

end TsQueue

/-! ## The sequential queue -/

/-- The values and the stop flag, and what a call on a queue that nobody else has does to them. A
wait on an empty queue that is not stopped has no answer; with a limit it answers that there is
nothing. -/
def serve : List T × Bool → QueueCall T → Option (QueueAnswer T × (List T × Bool))
  | (l, b), .size => some (.count l.length, (l, b))
  | (l, b), .push v => some (.void, (l ++ [v], b))
  | ([], false), .waitPop => none
  | ([], true), .waitPop => some (.value none, ([], true))
  | ([], b), .waitPopFor => some (.value none, ([], b))
  | ([], b), .tryPop => some (.value none, ([], b))
  | (v :: l, b), .waitPop => some (.value (some v), (l, b))
  | (v :: l, b), .waitPopFor => some (.value (some v), (l, b))
  | (v :: l, b), .tryPop => some (.value (some v), (l, b))
  | (_, b), .clear => some (.void, ([], b))
  | (l, b), .empty => some (.flag l.isEmpty, (l, b))
  | (l, _), .stop => some (.void, (l, true))
  | (l, b), .isStopped => some (.flag b, (l, b))

/-- What the sequential queue sees of a queue. -/
def TsQueue.contents (q : TsQueue T) : List T × Bool := (q.queue, q.stopped)

/-- A critical section is a call of the sequential queue. -/
theorem TsQueue.serve_of_body {q q' : TsQueue T} {expired : Bool} {c : QueueCall T}
    {a : QueueAnswer T} (h : q.body expired c = some (a, q')) :
    serve q.contents c = some (a, q'.contents) := by
  obtain ⟨l, b⟩ := q
  cases c with
  | size | push v | empty | stop | isStopped =>
    cases h
    rfl
  | clear =>
    cases h
    simp [serve, contents, clear]
  | waitPop => cases l <;> cases b <;> cases h <;> rfl
  | waitPopFor => cases l <;> cases b <;> cases expired <;> cases h <;> rfl
  | tryPop => cases l <;> cases h <;> rfl

/-! ## The threads -/

/-- Where a thread is in a call. Between the wait and the check after it a thread is where it was
before the first check, but may know that its limit has passed. -/
inductive QueuePc (T : Type u) where
  | outside
  | lock (call : QueueCall T) (expired : Bool)
  | inside (call : QueueCall T) (expired : Bool)
  | asleep (call : QueueCall T)
  | unlock (call : QueueCall T) (answer : QueueAnswer T)
  | notify (whom : Notify) (answer : QueueAnswer T)
  | leave (answer : QueueAnswer T)

namespace QueuePc

/-- What is left of a call after it has unlocked. -/
def after (call : QueueCall T) (answer : QueueAnswer T) : QueuePc T :=
  match call.notify? with
  | some whom => .notify whom answer
  | none => .leave answer

/-- A thread that sleeps goes back to the mutex when it is woken; any other is where it was. -/
def woken : QueuePc T → QueuePc T
  | .asleep c => .lock c false
  | p => p

/-- The thread has the mutex. -/
def holds : QueuePc T → Bool
  | .inside _ _ | .unlock _ _ => true
  | _ => false

/-- The thread waits on the condition variable. -/
def sleeps : QueuePc T → Bool
  | .asleep _ => true
  | _ => false

/-- The thread will look at the queue, or will wake another that does. -/
def attends : QueuePc T → Bool
  | .lock c _ | .inside c _ => c.waits
  | .unlock c _ => c.notify? = some .one
  | .notify whom _ => whom = .one
  | _ => false

/-- The thread will wake all. -/
def rouses : QueuePc T → Bool
  | .unlock c _ => c.notify? = some .all
  | .notify whom _ => whom = .all
  | _ => false

/-- The part of its call the thread is in: from the critical section on it has its answer. -/
def phase : QueuePc T → Phase (QueueCall T) (QueueAnswer T)
  | .outside => .idle
  | .lock c _ | .inside c _ | .asleep c => .called c
  | .unlock _ a | .notify _ a | .leave a => .done a

variable {p : QueuePc T} {c : QueueCall T} {a : QueueAnswer T}

/-- To be woken gives nobody the mutex. -/
@[simp] theorem woken_holds : p.woken.holds = p.holds := by
  cases p <;> rfl

/-- To be woken answers no call. -/
@[simp] theorem woken_phase : p.woken.phase = p.phase := by
  cases p <;> rfl

@[simp] theorem woken_sleeps : p.woken.sleeps = false := by
  cases p <;> rfl

@[simp] theorem after_holds : (after c a).holds = false := by
  unfold after
  cases c.notify? <;> rfl

@[simp] theorem after_sleeps : (after c a).sleeps = false := by
  unfold after
  cases c.notify? <;> rfl

@[simp] theorem after_attends : (after c a).attends = (unlock c a).attends := by
  unfold after
  cases hn : c.notify? <;> simp [attends, hn]

@[simp] theorem after_rouses : (after c a).rouses = (unlock c a).rouses := by
  unfold after
  cases hn : c.notify? <;> simp [rouses, hn]

@[simp] theorem after_phase : (after c a).phase = .done a := by
  unfold after
  cases c.notify? <;> rfl

end QueuePc

/-- The queue and its mutex, where each thread is, and what happened so far. -/
structure QueueState (T : Type u) (τ : Type v) where
  queue : TsQueue T
  mutex : Locks Unit τ
  pc : τ → QueuePc T
  /-- What the threads did, for the statements only. -/
  trace : List (Event (QueueCall T) (QueueAnswer T) × τ)

/-- The steps of the threads; a wait may end without a reason or by its timeout. -/
inductive QueueAct (T : Type u) (τ : Type v) where
  | call (t : τ) (c : QueueCall T)
  | lock (t : τ)
  | body (t : τ)
  | wake (t : τ) (expired : Bool)
  | unlock (t : τ)
  | notify (t : τ) (woken : Option τ)
  | ret (t : τ)

/-- A step that a thread makes by itself, once it has been called and while it is awake. -/
def QueueAct.own : QueueAct T τ → Bool
  | .call _ _ | .wake _ _ => false
  | _ => true

namespace QueueState

/-- An event of the thread is put on the trace. -/
def record (s : QueueState T τ) (t : τ) (e : Event (QueueCall T) (QueueAnswer T)) :
    QueueState T τ :=
  { s with trace := s.trace ++ [(e, t)] }

/-- `notify_all`: every thread that waits may go on, and looks at its condition again before it
does. -/
def wakeAll (s : QueueState T τ) : QueueState T τ :=
  { s with pc := fun u => (s.pc u).woken }

/-- A new queue that nobody has called. -/
def init (s : QueueState T τ) : Prop :=
  s = ⟨{}, fun _ => none, fun _ => .outside, []⟩

variable {s s' : QueueState T τ} {t u : τ} {p : QueuePc T}
variable {e : Event (QueueCall T) (QueueAnswer T)}

@[simp] theorem record_pc : (s.record t e).pc = s.pc := rfl
@[simp] theorem record_queue : (s.record t e).queue = s.queue := rfl
@[simp] theorem record_mutex : (s.record t e).mutex = s.mutex := rfl
@[simp] theorem record_trace : (s.record t e).trace = s.trace ++ [(e, t)] := rfl
@[simp] theorem wakeAll_pc : s.wakeAll.pc = fun u => (s.pc u).woken := rfl
@[simp] theorem wakeAll_queue : s.wakeAll.queue = s.queue := rfl
@[simp] theorem wakeAll_mutex : s.wakeAll.mutex = s.mutex := rfl
@[simp] theorem wakeAll_trace : s.wakeAll.trace = s.trace := rfl

variable [DecidableEq τ]

/-- The thread is at another place. -/
def goto (s : QueueState T τ) (t : τ) (p : QueuePc T) : QueueState T τ :=
  { s with pc := Function.update s.pc t p }

/-- `notify_one` wakes some thread that sleeps, and is lost if there is none. -/
def notifyOne [Fintype τ] (s : QueueState T τ) : Option τ → Option (QueueState T τ)
  | some u => match s.pc u with
    | .asleep c => some (s.goto u (.lock c false))
    | _ => none
  | none => if ∀ u, (s.pc u).sleeps = false then some s else none

/-- One step of one thread. A critical section is one step, as the mutex is held all through it. -/
def step [Fintype τ] (s : QueueState T τ) : QueueAct T τ → Option (QueueState T τ)
  | .call t c => match s.pc t with
    | .outside => some ((s.goto t (.lock c false)).record t (.invoke c))
    | _ => none
  | .lock t => match s.pc t with
    | .lock c e =>
      if s.mutex () = none then some { s.goto t (.inside c e) with mutex := s.mutex.acquire () t }
      else none
    | _ => none
  | .body t => match s.pc t with
    | .inside c e => match s.queue.body e c with
      | some (a, q) => some ({ s.goto t (.unlock c a) with queue := q }.record t (.commit c a))
      -- the wait gives the mutex back and sleeps in one step
      | none => some { s.goto t (.asleep c) with mutex := s.mutex.release () }
    | _ => none
  | .wake t expired => match s.pc t with
    | .asleep .waitPopFor => some (s.goto t (.lock .waitPopFor expired))
    -- for no reason: a wait without a limit does not expire
    | .asleep c => if expired then none else some (s.goto t (.lock c false))
    | _ => none
  | .unlock t => match s.pc t with
    | .unlock c a =>
      some { s.goto t (.after c a) with mutex := s.mutex.release () }
    | _ => none
  | .notify t woken => match s.pc t with
    | .notify .one a => (s.notifyOne woken).map fun r => r.goto t (.leave a)
    | .notify .all a => some (s.wakeAll.goto t (.leave a))
    | _ => none
  | .ret t => match s.pc t with
    | .leave a => some ((s.goto t .outside).record t (.respond a))
    | _ => none

/-- All threads and all their interleavings. -/
def machine [Fintype τ] : Machine (QueueState T τ) (QueueAct T τ) := ⟨init, step⟩

@[simp] theorem goto_pc : (s.goto t p).pc = Function.update s.pc t p := rfl
@[simp] theorem goto_queue : (s.goto t p).queue = s.queue := rfl
@[simp] theorem goto_mutex : (s.goto t p).mutex = s.mutex := rfl
@[simp] theorem goto_trace : (s.goto t p).trace = s.trace := rfl

/-- What a step can do, and what it finds. -/
inductive Moves (s : QueueState T τ) : QueueAct T τ → QueueState T τ → Prop
  | call {t : τ} {c : QueueCall T} (h : s.pc t = .outside) :
      Moves s (.call t c) ((s.goto t (.lock c false)).record t (.invoke c))
  | lock {t : τ} {c : QueueCall T} {e : Bool} (h : s.pc t = .lock c e) (hfree : s.mutex () = none) :
      Moves s (.lock t) { s.goto t (.inside c e) with mutex := s.mutex.acquire () t }
  | serve {t : τ} {c : QueueCall T} {e : Bool} {a : QueueAnswer T} {q : TsQueue T}
      (h : s.pc t = .inside c e) (hbody : s.queue.body e c = some (a, q)) :
      Moves s (.body t) ({ s.goto t (.unlock c a) with queue := q }.record t (.commit c a))
  | sleep {t : τ} {c : QueueCall T} {e : Bool} (h : s.pc t = .inside c e)
      (hbody : s.queue.body e c = none) :
      Moves s (.body t) { s.goto t (.asleep c) with mutex := s.mutex.release () }
  | wake {t : τ} {c : QueueCall T} {e : Bool} (h : s.pc t = .asleep c) :
      Moves s (.wake t e) (s.goto t (.lock c e))
  | unlock {t : τ} {c : QueueCall T} {a : QueueAnswer T} (h : s.pc t = .unlock c a) :
      Moves s (.unlock t) { s.goto t (.after c a) with mutex := s.mutex.release () }
  | notifyOne {t u : τ} {c : QueueCall T} {a : QueueAnswer T} (h : s.pc t = .notify .one a)
      (hu : s.pc u = .asleep c) :
      Moves s (.notify t (some u)) ((s.goto u (.lock c false)).goto t (.leave a))
  | notifyNone {t : τ} {a : QueueAnswer T} (h : s.pc t = .notify .one a)
      (hawake : ∀ u, (s.pc u).sleeps = false) : Moves s (.notify t none) (s.goto t (.leave a))
  | notifyAll {t : τ} {a : QueueAnswer T} {w : Option τ} (h : s.pc t = .notify .all a) :
      Moves s (.notify t w) (s.wakeAll.goto t (.leave a))
  | ret {t : τ} {a : QueueAnswer T} (h : s.pc t = .leave a) :
      Moves s (.ret t) ((s.goto t .outside).record t (.respond a))

/-- What a step can have done. -/
theorem moves_of_step [Fintype τ] {act : QueueAct T τ} (h : s.step act = some s') :
    s.Moves act s' := by
  cases act with
  | call t c =>
    simp only [step] at h
    split at h
    case h_1 hpc =>
      cases h
      exact .call hpc
    · cases h
  | lock t =>
    simp only [step] at h
    split at h
    case h_1 c e hpc =>
      obtain ⟨hfree, heq⟩ := Option.ite_none_right_eq_some.mp h
      cases heq
      exact .lock hpc hfree
    · cases h
  | body t =>
    simp only [step] at h
    split at h
    case h_1 c e hpc =>
      split at h
      case h_1 a q hbody =>
        cases h
        exact .serve hpc hbody
      case h_2 hbody =>
        cases h
        exact .sleep hpc hbody
    · cases h
  | wake t expired =>
    simp only [step] at h
    split at h
    case h_1 hpc =>
      cases h
      exact .wake hpc
    case h_2 c _ hpc =>
      split at h
      · cases h
      next hno =>
        cases h
        simp only [Bool.not_eq_true] at hno
        subst hno
        exact .wake hpc
    · cases h
  | unlock t =>
    simp only [step] at h
    split at h
    case h_1 c a hpc =>
      cases h
      exact .unlock hpc
    · cases h
  | notify t woken =>
    simp only [step] at h
    split at h
    case h_1 a hpc =>
      obtain ⟨r, hr, rfl⟩ := Option.map_eq_some_iff.mp h
      cases woken with
      | some u =>
        simp only [notifyOne] at hr
        split at hr
        case h_1 c hu =>
          cases hr
          exact .notifyOne hpc hu
        · cases hr
      | none =>
        simp only [notifyOne] at hr
        obtain ⟨hawake, heq⟩ := Option.ite_none_right_eq_some.mp hr
        cases heq
        exact .notifyNone hpc hawake
    case h_2 a hpc =>
      cases h
      exact .notifyAll hpc
    · cases h
  | ret t =>
    simp only [step] at h
    split at h
    case h_1 a hpc =>
      cases h
      exact .ret hpc
    · cases h

/-! ## The mutex and the order of the calls -/

/-- The thread that owns the mutex is the one in its critical section. -/
def Exclusive (s : QueueState T τ) : Prop := s.mutex.Agrees fun t _ => (s.pc t).holds = true

/-- A thread goes on without taking or giving the mutex. -/
private theorem Exclusive.keep (h : s.Exclusive) (hp : p.holds = (s.pc t).holds)
    (hmutex : s'.mutex = s.mutex)
    (hpc : ∀ u, (s'.pc u).holds = (Function.update s.pc t p u).holds) : s'.Exclusive := by
  unfold Exclusive
  rw [hmutex]
  refine Locks.Agrees.congr h fun u m => ?_
  rw [hpc u]
  by_cases hu : u = t
  · subst hu
    rw [Function.update_self, hp]
  · rw [Function.update_of_ne hu]

/-- A step gives the mutex to no second thread: it is taken only where nobody has it. -/
theorem exclusive_of_moves {act : QueueAct T τ} (hs : s.Exclusive) (h : s.Moves act s') :
    s'.Exclusive := by
  cases h with
  | @call t c hpc =>
    exact hs.keep (t := t) (p := .lock c false) (by simp [hpc, QueuePc.holds]) rfl fun u => rfl
  | @lock t c e hpc hfree =>
    refine Locks.Agrees.acquire hs hfree fun u _ => ?_
    by_cases hu : u = t
    · subst hu
      simp [QueuePc.holds]
    · simp [hu]
  | @serve t c e a q hpc =>
    exact hs.keep (t := t) (p := .unlock c a) (by simp [hpc, QueuePc.holds]) rfl fun u => rfl
  | @sleep t c e hpc =>
    refine Locks.Agrees.release (t := t) (m := ()) hs (by simp [hpc, QueuePc.holds]) fun u _ => ?_
    by_cases hu : u = t
    · subst hu
      simp [QueuePc.holds]
    · simp [hu]
  | @wake t c e hpc =>
    exact hs.keep (t := t) (p := .lock c e) (by simp [hpc, QueuePc.holds]) rfl fun u => rfl
  | @unlock t c a hpc =>
    refine Locks.Agrees.release (t := t) (m := ()) hs (by simp [hpc, QueuePc.holds]) fun u _ => ?_
    by_cases hu : u = t
    · subst hu
      simp
    · simp [hu]
  | @notifyOne t w c a hpc hw =>
    have hne : t ≠ w := by
      rintro rfl
      rw [hpc] at hw
      cases hw
    have hwoken : (s.goto w (.lock c false)).Exclusive :=
      hs.keep (t := w) (p := .lock c false) (by simp [hw, QueuePc.holds]) rfl fun u => rfl
    refine hwoken.keep (t := t) (p := .leave a) ?_ rfl fun u => rfl
    simp [Function.update_of_ne hne, hpc, QueuePc.holds]
  | @notifyNone t a hpc =>
    exact hs.keep (t := t) (p := .leave a) (by simp [hpc, QueuePc.holds]) rfl fun u => rfl
  | @notifyAll t a w hpc =>
    refine hs.keep (t := t) (p := .leave a) (by simp [hpc, QueuePc.holds]) rfl fun u => ?_
    by_cases hu : u = t
    · subst hu
      simp
    · simp [Function.update_of_ne hu]
  | @ret t a hpc =>
    exact hs.keep (t := t) (p := .outside) (by simp [hpc, QueuePc.holds]) rfl fun u => rfl

/-- The calls so far are a run of the sequential queue. -/
def Ordered (s : QueueState T τ) : Prop :=
  Linearizes serve ([], false) s.trace s.queue.contents fun t => (s.pc t).phase

omit [DecidableEq τ] in
private theorem phase_update_of_ne [DecidableEq τ] (hu : u ≠ t) :
    (Function.update s.pc t p u).phase = (s.pc u).phase := by
  rw [Function.update_of_ne hu]

/-- A thread goes on within its call. -/
private theorem Ordered.keep (h : s.Ordered) (hp : p.phase = (s.pc t).phase)
    (htrace : s'.trace = s.trace) (hqueue : s'.queue = s.queue)
    (hpc : ∀ u, (s'.pc u).phase = (Function.update s.pc t p u).phase) : s'.Ordered := by
  unfold Ordered
  rw [htrace, hqueue]
  refine h.congr fun u => ?_
  rw [hpc u]
  by_cases hu : u = t
  · subst hu
    rw [Function.update_self, hp]
  · exact phase_update_of_ne hu

/-- A step keeps the queue and the trace in agreement: the queue is changed only in critical
sections, and each of them is on the trace. -/
theorem ordered_of_moves {act : QueueAct T τ} (hs : s.Ordered) (h : s.Moves act s') :
    s'.Ordered := by
  cases h with
  | @call t c hpc =>
    refine hs.invoke (t := t) (c := c) ?_ ?_ fun u hu => phase_update_of_ne hu
    · simp [hpc, QueuePc.phase]
    · simp [QueuePc.phase]
  | @lock t c e hpc =>
    exact hs.keep (t := t) (p := .inside c e) (by simp [hpc, QueuePc.phase]) rfl rfl fun u => rfl
  | @serve t c e a q hpc hbody =>
    refine hs.commit (t := t) (c := c) ?_ (TsQueue.serve_of_body hbody) ?_
      fun u hu => phase_update_of_ne hu
    · simp [hpc, QueuePc.phase]
    · simp [QueuePc.phase]
  | @sleep t c e hpc =>
    exact hs.keep (t := t) (p := .asleep c) (by simp [hpc, QueuePc.phase]) rfl rfl fun u => rfl
  | @wake t c e hpc =>
    exact hs.keep (t := t) (p := .lock c e) (by simp [hpc, QueuePc.phase]) rfl rfl fun u => rfl
  | @unlock t c a hpc =>
    have hphase : (QueuePc.after c a).phase = (s.pc t).phase := by
      rw [hpc, QueuePc.after_phase, QueuePc.phase]
    exact hs.keep (t := t) (p := .after c a) hphase rfl rfl fun u => rfl
  | @notifyOne t w c a hpc hw =>
    have hne : t ≠ w := by
      rintro rfl
      rw [hpc] at hw
      cases hw
    have hwoken : (s.goto w (.lock c false)).Ordered :=
      hs.keep (t := w) (p := .lock c false) (by simp [hw, QueuePc.phase]) rfl rfl fun u => rfl
    refine hwoken.keep (t := t) (p := .leave a) ?_ rfl rfl fun u => rfl
    simp [Function.update_of_ne hne, hpc, QueuePc.phase]
  | @notifyNone t a hpc =>
    exact hs.keep (t := t) (p := .leave a) (by simp [hpc, QueuePc.phase]) rfl rfl fun u => rfl
  | @notifyAll t a w hpc =>
    refine hs.keep (t := t) (p := .leave a) (by simp [hpc, QueuePc.phase]) rfl rfl fun u => ?_
    by_cases hu : u = t
    · subst hu
      simp
    · simp [Function.update_of_ne hu]
  | @ret t a hpc =>
    refine hs.respond (t := t) (a := a) ?_ ?_ fun u hu => phase_update_of_ne hu
    · simp [hpc, QueuePc.phase]
    · simp [QueuePc.phase]

section Reached

variable [Fintype τ]

/-- In every run the mutex has one owner at most. -/
theorem exclusive_of_reach (h : (machine (T := T)).Reach s) : s.Exclusive := by
  refine h.invariant (I := Exclusive) ?_ fun s act t hs hstep =>
    exclusive_of_moves hs (moves_of_step hstep)
  rintro s rfl t m
  simp [QueuePc.holds]

/-- Whatever the threads do and however the condition variable wakes them, every call takes effect
at one point between its call and its return, with the answer and the effect that it has on the
sequential queue. -/
theorem linearizes (h : (machine (T := T)).Reach s) :
    Linearizes serve ([], false) s.trace (s.queue.queue, s.queue.stopped)
      fun t => (s.pc t).phase := by
  refine h.invariant (I := Ordered) ?_ fun s act t hs hstep =>
    ordered_of_moves hs (moves_of_step hstep)
  rintro s rfl
  exact Linearizes.init

/-- The consumer sleeps first; the producer's value wakes it, and a second value stays behind. -/
def handOver : List (QueueAct Nat Bool) :=
  [.call true .waitPop, .lock true, .body true,
    .call false (.push 7), .lock false, .body false, .unlock false, .notify false (some true),
    .ret false, .call false (.push 8), .lock true, .body true, .unlock true, .ret true,
    .lock false, .body false]

theorem linearizes_handOver : ∃ s : QueueState Nat Bool, s.queue.queue = [8] ∧
    Linearizes serve ([], false) s.trace (s.queue.queue, s.queue.stopped)
      fun t => (s.pc t).phase := by
  obtain ⟨s, hs, hp⟩ := Machine.reachUnder_of_exec (M := machine) (G := Machine.Any)
    (l := handOver) (p := fun s => s.queue.queue == [8]) rfl (by decide)
  exact ⟨s, by simpa using hp, linearizes hs⟩

end Reached

end QueueState

/-! ## What is handed over -/

/-- The value that an answer hands over. -/
def QueueAnswer.value? : QueueAnswer T → Option T
  | .value v => v
  | _ => none

/-- What a call did to the values. -/
def moveOf : QueueCall T × QueueAnswer T → Option (Fifo.Move T)
  | (_, .value (some v)) => some (.pop v)
  | (.push v, _) => some (.push v)
  | (.clear, _) => some .clear
  | _ => none

/-- The sequential queue keeps its values first in, first out. -/
theorem runs_of_replays {l : List (QueueCall T × QueueAnswer T)} {q : List T × Bool}
    (h : Replays serve ([], false) l q) : Fifo.Runs (l.filterMap moveOf) q.1 := by
  induction h with
  | nil => exact .nil
  | @concat l q q' c a _ hserve ih =>
    obtain ⟨values, b⟩ := q
    rw [List.filterMap_append]
    have hstay (hmove : moveOf (c, a) = none) (hq : q'.1 = values) :
        Fifo.Runs (l.filterMap moveOf ++ [(c, a)].filterMap moveOf) q'.1 := by
      rw [hq, List.filterMap_cons_none hmove, List.filterMap_nil, List.append_nil]
      exact ih
    have hmoved (m : Fifo.Move T) (hmove : moveOf (c, a) = some m)
        (hruns : Fifo.Runs (l.filterMap moveOf ++ [m]) q'.1) :
        Fifo.Runs (l.filterMap moveOf ++ [(c, a)].filterMap moveOf) q'.1 := by
      rw [List.filterMap_cons_some hmove, List.filterMap_nil]
      exact hruns
    cases c with
    | size | empty | stop | isStopped =>
      cases hserve
      exact hstay rfl rfl
    | push v =>
      cases hserve
      exact hmoved _ rfl ih.push
    | clear =>
      cases hserve
      exact hmoved _ rfl ih.clear
    | waitPop =>
      cases values with
      | nil =>
        cases b <;> cases hserve
        exact hstay rfl rfl
      | cons v values =>
        cases hserve
        exact hmoved _ rfl ih.pop
    | waitPopFor | tryPop =>
      cases values with
      | nil =>
        cases hserve
        exact hstay rfl rfl
      | cons v values =>
        cases hserve
        exact hmoved _ rfl ih.pop

/-- What was popped are the values that the calls were answered with. -/
theorem popped_filterMap (l : List (QueueCall T × QueueAnswer T)) :
    Fifo.popped (l.filterMap moveOf) = l.filterMap fun r => r.2.value? := by
  unfold Fifo.popped
  rw [List.filterMap_filterMap]
  refine List.filterMap_congr fun r _ => ?_
  obtain ⟨c, a⟩ := r
  cases a with
  | value v => cases v <;> cases c <;> rfl
  | void | count _ | flag _ => cases c <;> rfl

namespace QueueState

section HandOver

variable [DecidableEq τ] {s : QueueState T τ}

/-- What the calls did to the values, in the order in which they took effect. -/
def effects (s : QueueState T τ) : List (Fifo.Move T) :=
  (commits (s.trace.map (·.1))).filterMap moveOf

/-- The values that a thread's calls have returned. -/
def received (s : QueueState T τ) (t : τ) : List T :=
  (responses (Protocol.eventsOf t s.trace)).filterMap QueueAnswer.value?

/-- A thread has been given values that its calls took out. -/
private theorem received_sublist (h : s.Ordered) (t : τ) :
    (s.received t).Sublist (Fifo.popped s.effects) := by
  have hanswers := (h.threads t).responses_append
  have hown : (s.received t).Sublist
      (((commits (Protocol.eventsOf t s.trace)).map (·.2)).filterMap QueueAnswer.value?) := by
    rw [← hanswers, List.filterMap_append]
    exact List.sublist_append_left _ _
  have hevents : (Protocol.eventsOf t s.trace).Sublist (s.trace.map (·.1)) :=
    List.filter_sublist.map _
  have hcommits := (hevents.filterMap Event.commit?).filterMap fun r => r.2.value?
  rw [List.filterMap_map] at hown
  rw [effects, popped_filterMap]
  exact hown.trans hcommits

/-- In any interleaving the values pushed, in the order in which the pushes took effect, are the
ones gone and then the ones still in the queue. What was taken out is in that order among the ones
gone, and is all of them unless the queue was cleared; each thread was given, in that order, values
that were taken out. -/
theorem hands_over_in_order [Fintype τ] (h : (machine (T := T)).Reach s) :
    ∃ gone, Fifo.pushed s.effects = gone ++ s.queue.queue ∧
      (Fifo.popped s.effects).Sublist gone ∧
      (.clear ∉ s.effects → Fifo.popped s.effects = gone) ∧
      ∀ t, (s.received t).Sublist (Fifo.popped s.effects) := by
  have hordered := linearizes h
  obtain ⟨gone, hpushed, htaken, hall⟩ := (runs_of_replays hordered.object).conserves
  exact ⟨gone, hpushed, htaken, hall, received_sublist hordered⟩

theorem hands_over_in_order_handOver : ∃ s : QueueState Nat Bool, s.received true = [7] ∧
    ∃ gone, Fifo.pushed s.effects = gone ++ s.queue.queue ∧
      (Fifo.popped s.effects).Sublist gone ∧
      (.clear ∉ s.effects → Fifo.popped s.effects = gone) ∧
      ∀ t, (s.received t).Sublist (Fifo.popped s.effects) := by
  obtain ⟨s, hs, hp⟩ := Machine.reachUnder_of_exec (M := machine) (G := Machine.Any)
    (l := handOver) (p := fun s => s.received true == [7]) rfl (by decide)
  exact ⟨s, by simpa using hp, hands_over_in_order hs⟩

end HandOver

end QueueState

end ProjectE.Threads
