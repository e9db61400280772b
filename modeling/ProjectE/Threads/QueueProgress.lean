import ProjectE.Threads.TsQueue

/-!
# No wakeup is lost

A thread sleeps in a wait only for what is not there. While a thread sleeps there are at least as
many threads on their way to the queue, or about to notify one, as there are values in it, and if
the queue is stopped somebody is about to notify all (`Attentive`). So once the calls that can go
on have gone on, which they do in boundedly many steps, every call has returned or waits at a queue
that is empty and not stopped (`quiesces`).

The server never gets that far: each of its queues is read by one thread, in a loop that looks
before it waits, and in such a program no call sleeps and no wait comes back with nothing
(`drain_never_waits`).
-/

namespace ProjectE.Threads

open Verif Verif.Linear

universe u v

variable {T : Type u} {τ : Type v}

namespace TsQueue

variable {q q' : TsQueue T} {expired : Bool} {c : QueueCall T} {a : QueueAnswer T}

/-- A critical section puts in at most the value that a notification follows, and a wait that ends
takes a value if there is one. -/
theorem size_of_body (h : q.body expired c = some (a, q')) :
    q'.size + c.waits.toNat ≤ q.size + (decide (c.notify? = some .one)).toNat ∨ q'.size = 0 := by
  have hserve := serve_of_body h
  obtain ⟨l, b⟩ := q
  obtain ⟨l', b'⟩ := q'
  unfold contents size at *
  cases c with
  | size | empty | stop | isStopped | push v =>
    cases hserve
    left
    simp [QueueCall.waits, QueueCall.notify?]
  | clear =>
    cases hserve
    right
    rfl
  | waitPop | waitPopFor | tryPop =>
    cases l with
    | nil =>
      right
      cases b <;> cases hserve <;> rfl
    | cons v l =>
      cases hserve
      left
      simp [QueueCall.waits, QueueCall.notify?]

/-- Only `stop` stops the queue. -/
theorem stopped_of_body (h : q.body expired c = some (a, q')) (hstopped : q'.stopped = true) :
    q.stopped = true ∨ c.notify? = some .all := by
  have hserve := serve_of_body h
  obtain ⟨l, b⟩ := q
  obtain ⟨l', b'⟩ := q'
  unfold contents at hserve
  subst hstopped
  cases c with
  | stop => exact .inr rfl
  | size | empty | isStopped | push v | clear =>
    cases hserve
    exact .inl rfl
  | waitPop | waitPopFor | tryPop =>
    left
    cases l with
    | nil => cases b <;> cases hserve; rfl
    | cons v l =>
      cases hserve
      rfl

end TsQueue

namespace QueueState

variable [DecidableEq τ] [Fintype τ] {s s' : QueueState T τ} {t : τ} {p : QueuePc T}

/-! ## Who wakes the sleepers -/

/-- Whoever sleeps will be woken if there is something for him: he sleeps in a call that waits;
there are as many threads awake that attend to the queue as it has values, and one that rouses
everybody once it is stopped. -/
structure Attentive (s : QueueState T τ) : Prop where
  waits : ∀ t c, s.pc t = .asleep c → c.waits = true
  enough : ∀ t, (s.pc t).sleeps = true → s.queue.size ≤ census QueuePc.attends s.pc
  roused : ∀ t, (s.pc t).sleeps = true → s.queue.stopped = true → 0 < census QueuePc.rouses s.pc

omit [DecidableEq τ] in
/-- Where nobody sleeps nobody is to be woken. -/
theorem attentive_of_awake (h : ∀ t, (s.pc t).sleeps = false) : s.Attentive := by
  constructor
  · intro t c hpc
    have := h t
    rw [hpc] at this
    cases this
  · intro t hsleeps
    rw [h t] at hsleeps
    cases hsleeps
  · intro t hsleeps
    rw [h t] at hsleeps
    cases hsleeps

/-- A thread goes on awake, and still does for the sleepers what it was about to do. -/
private theorem Attentive.keep (h : s.Attentive) (hqueue : s'.queue = s.queue)
    (hpc : s'.pc = Function.update s.pc t p) (hawake : p.sleeps = false)
    (hattends : (s.pc t).attends.toNat ≤ p.attends.toNat)
    (hrouses : (s.pc t).rouses.toNat ≤ p.rouses.toNat) : s'.Attentive := by
  have hold (u : τ) (hu : (s'.pc u).sleeps = true) : s'.pc u = s.pc u := by
    rw [hpc] at hu ⊢
    refine Function.update_of_ne ?_ _ _
    rintro rfl
    rw [Function.update_self, hawake] at hu
    cases hu
  have hcount : census QueuePc.attends _ + (s.pc t).attends.toNat = _ := census_update p
  have hrouse : census QueuePc.rouses _ + (s.pc t).rouses.toNat = _ := census_update p
  rw [← hpc] at hcount hrouse
  constructor
  · intro u c hu
    have hsame := hold u (by simp [hu, QueuePc.sleeps])
    exact h.waits u c (hsame ▸ hu)
  · intro u hu
    have hle := h.enough u (hold u hu ▸ hu)
    rw [hqueue]
    omega
  · intro u hu hstopped
    rw [hqueue] at hstopped
    have hpos := h.roused u (hold u hu ▸ hu) hstopped
    omega

/-- A thread that sleeps in a wait is to be woken once there is something. -/
private theorem Attentive.sleep (h : s.Attentive) {c : QueueCall T} {e : Bool}
    (hpc : s.pc t = .inside c e) (hbody : s.queue.body e c = none) :
    Attentive { s.goto t (.asleep c) with mutex := s.mutex.release () } := by
  obtain ⟨hwaits, hempty, hgoes⟩ := TsQueue.body_eq_none hbody
  constructor
  · intro u k hu
    by_cases hut : u = t
    · subst hut
      simp only [goto_pc, Function.update_self, QueuePc.asleep.injEq] at hu
      exact hu ▸ hwaits
    · simp only [goto_pc, Function.update_of_ne hut] at hu
      exact h.waits u k hu
  · intro u _
    simp [TsQueue.size, hempty]
  · intro u _ hstopped
    simp [hgoes] at hstopped

/-- What a critical section changes is made up for by what its thread does next. -/
private theorem Attentive.serve (h : s.Attentive) {c : QueueCall T} {e : Bool} {a : QueueAnswer T}
    {q : TsQueue T} (hpc : s.pc t = .inside c e) (hbody : s.queue.body e c = some (a, q)) :
    Attentive ({ s.goto t (.unlock c a) with queue := q }.record t (.commit c a)) := by
  have hold (u : τ) (hu : (Function.update s.pc t (.unlock c a) u).sleeps = true) :
      Function.update s.pc t (.unlock c a) u = s.pc u := by
    refine Function.update_of_ne ?_ _ _
    rintro rfl
    rw [Function.update_self] at hu
    cases hu
  have hcount : census QueuePc.attends _ + (s.pc t).attends.toNat = _ :=
    census_update (.unlock c a)
  have hrouse : census QueuePc.rouses _ + (s.pc t).rouses.toNat = _ :=
    census_update (.unlock c a)
  simp only [hpc, QueuePc.attends, QueuePc.rouses, Bool.toNat_false] at hcount hrouse
  constructor
  · intro u k hu
    have hsame := hold u (by simp_all [QueuePc.sleeps])
    exact h.waits u k (hsame ▸ hu)
  · intro u hu
    have hle := h.enough u (hold u hu ▸ hu)
    change q.size ≤ census QueuePc.attends (Function.update s.pc t (.unlock c a))
    rcases TsQueue.size_of_body hbody with hsize | hzero <;> omega
  · intro u hu hstopped
    change 0 < census QueuePc.rouses (Function.update s.pc t (.unlock c a))
    rcases TsQueue.stopped_of_body hbody hstopped with hbefore | hall
    · have hpos := h.roused u (hold u hu ▸ hu) hbefore
      omega
    · simp only [hall, decide_true, Bool.toNat_true] at hrouse
      omega

/-- A notification turns a sleeper into a thread on its way. -/
private theorem Attentive.notifyOne (h : s.Attentive) {c : QueueCall T} {a : QueueAnswer T}
    {w : τ} (hpc : s.pc t = .notify .one a) (hw : s.pc w = .asleep c) :
    ((s.goto w (.lock c false)).goto t (.leave a)).Attentive := by
  have hne : t ≠ w := by
    rintro rfl
    rw [hpc] at hw
    cases hw
  have hthere : (s.goto w (.lock c false)).pc t = .notify .one a := by
    rw [goto_pc, Function.update_of_ne hne, hpc]
  have hfirst : census QueuePc.attends _ + (s.pc w).attends.toNat = _ :=
    census_update (.lock c false)
  have hsecond : census QueuePc.attends _ + ((s.goto w (.lock c false)).pc t).attends.toNat = _ :=
    census_update (.leave a)
  have hwoken : census QueuePc.rouses _ + (s.pc w).rouses.toNat = _ :=
    census_update (.lock c false)
  have hleft : census QueuePc.rouses _ + ((s.goto w (.lock c false)).pc t).rouses.toNat = _ :=
    census_update (.leave a)
  rw [hthere] at hsecond hleft
  rw [hw] at hfirst hwoken
  simp only [QueuePc.attends, h.waits w c hw, decide_true, Bool.toNat_false, Bool.toNat_true,
    goto_pc] at hfirst hsecond
  simp only [QueuePc.rouses, reduceCtorEq, decide_false, Bool.toNat_false, goto_pc] at hwoken hleft
  have hold (u : τ) (hu : (((s.goto w (.lock c false)).goto t (.leave a)).pc u).sleeps = true) :
      ((s.goto w (.lock c false)).goto t (.leave a)).pc u = s.pc u := by
    by_cases hut : u = t
    · subst hut
      simp [QueuePc.sleeps] at hu
    · by_cases huw : u = w
      · subst huw
        simp [Function.update_of_ne hut, QueuePc.sleeps] at hu
      · simp [Function.update_of_ne hut, Function.update_of_ne huw]
  constructor
  · intro u d hu
    have hsame := hold u (by simp [hu, QueuePc.sleeps])
    exact h.waits u d (hsame ▸ hu)
  · intro u hu
    have hle := h.enough u (hold u hu ▸ hu)
    simp only [goto_pc, goto_queue]
    omega
  · intro u hu hstopped
    have hpos := h.roused u (hold u hu ▸ hu) hstopped
    simp only [goto_pc]
    omega

theorem attentive_of_moves {act : QueueAct T τ} (hs : s.Attentive) (h : s.Moves act s') :
    s'.Attentive := by
  cases h with
  | @call t c hpc =>
    exact hs.keep (t := t) (p := .lock c false) rfl rfl rfl (by simp [hpc, QueuePc.attends])
      (by simp [hpc, QueuePc.rouses])
  | @lock t c e hpc =>
    exact hs.keep (t := t) (p := .inside c e) rfl rfl rfl (by simp [hpc, QueuePc.attends])
      (by simp [hpc, QueuePc.rouses])
  | serve hpc hbody => exact hs.serve hpc hbody
  | sleep hpc hbody => exact hs.sleep hpc hbody
  | @wake t c e hpc =>
    exact hs.keep (t := t) (p := .lock c e) rfl rfl rfl (by simp [hpc, QueuePc.attends])
      (by simp [hpc, QueuePc.rouses])
  | @unlock t c a hpc =>
    exact hs.keep (t := t) (p := .after c a) rfl rfl (by simp) (by simp [hpc]) (by simp [hpc])
  | notifyOne hpc hw => exact hs.notifyOne hpc hw
  | @notifyNone t a hpc hawake =>
    refine attentive_of_awake fun u => ?_
    by_cases hu : u = t
    · subst hu
      simp [QueuePc.sleeps]
    · simp [Function.update_of_ne hu, hawake u]
  | @notifyAll t a w hpc =>
    refine attentive_of_awake fun u => ?_
    by_cases hu : u = t
    · subst hu
      simp [QueuePc.sleeps]
    · simp [Function.update_of_ne hu]
  | @ret t a hpc =>
    exact hs.keep (t := t) (p := .outside) rfl rfl rfl (by simp [hpc, QueuePc.attends])
      (by simp [hpc, QueuePc.rouses])

theorem attentive_of_reach (h : (machine (T := T)).Reach s) : s.Attentive := by
  refine h.invariant (I := Attentive) ?_ fun s act t hs hstep =>
    attentive_of_moves hs (moves_of_step hstep)
  rintro s rfl
  exact attentive_of_awake fun _ => rfl

/-! ## Calls end -/

end QueueState

/-- What a notification may add: a way to the queue for each of `n` threads. -/
def QueueCall.extra (n : Nat) (c : QueueCall T) : Nat := if c.notify?.isSome then 1 + 4 * n else 0

/-- A bound for the steps that a thread has before it, with those of the threads it wakes. -/
def QueuePc.weight (n : Nat) : QueuePc T → Nat
  | .outside | .asleep _ => 0
  | .leave _ => 1
  | .notify _ _ => 2 + 4 * n
  | .unlock c _ => 2 + c.extra n
  | .inside c _ => 3 + c.extra n
  | .lock c _ => 4 + c.extra n

theorem QueueCall.extra_of_waits {c : QueueCall T} {n : Nat} (h : c.waits = true) :
    c.extra n = 0 := by
  cases c <;> simp_all [waits, extra, notify?]

theorem QueuePc.weight_after {c : QueueCall T} {a : QueueAnswer T} {n : Nat} :
    (after c a).weight n < (unlock c a).weight n := by
  unfold after
  cases hn : c.notify? <;> simp only [weight, QueueCall.extra, hn, Option.isSome_some,
    Option.isSome_none, if_true, Bool.false_eq_true, if_false] <;> omega

theorem QueuePc.weight_woken {p : QueuePc T} {n : Nat}
    (h : ∀ c, p = .asleep c → c.waits = true) : p.woken.weight n ≤ p.weight n + 4 := by
  cases p with
  | asleep c =>
    change 4 + c.extra n ≤ 0 + 4
    rw [QueueCall.extra_of_waits (h c rfl)]
  | _ => exact Nat.le_add_right _ _

namespace QueueState

variable [Fintype τ] {s s' : QueueState T τ} {t : τ}

/-- What all threads together have still to do. -/
def load (s : QueueState T τ) : Nat := tally (QueuePc.weight (Fintype.card τ)) s.pc

/-- `notify_all` gives each sleeper a way to the queue. -/
private theorem load_wakeAll (hs : s.Attentive) :
    s.wakeAll.load ≤ s.load + Fintype.card τ * 4 :=
  tally_le_add fun u => QueuePc.weight_woken (hs.waits u)

variable [DecidableEq τ]

private theorem load_goto (s : QueueState T τ) (t : τ) (p : QueuePc T) :
    (s.goto t p).load + (s.pc t).weight (Fintype.card τ) =
      s.load + p.weight (Fintype.card τ) :=
  tally_update p

/-- A thread goes on to where less is before it. -/
private theorem load_lt_of_goto {p p' : QueuePc T} (hp : s.pc t = p)
    (hless : p'.weight (Fintype.card τ) < p.weight (Fintype.card τ)) :
    (s.goto t p').load < s.load := by
  have := load_goto s t p'
  rw [hp] at this
  omega

theorem load_lt_of_moves (hs : s.Attentive) {act : QueueAct T τ} (hown : act.own = true)
    (h : s.Moves act s') : s'.load < s.load := by
  cases h with
  | call hpc => cases hown
  | wake hpc => cases hown
  | lock hpc =>
    refine load_lt_of_goto hpc ?_
    simp only [QueuePc.weight]
    omega
  | serve hpc =>
    refine load_lt_of_goto hpc ?_
    simp only [QueuePc.weight]
    omega
  | sleep hpc =>
    refine load_lt_of_goto hpc ?_
    simp only [QueuePc.weight]
    omega
  | unlock hpc => exact load_lt_of_goto hpc QueuePc.weight_after
  | @notifyOne t w c a hpc hw =>
    have hne : t ≠ w := by
      rintro rfl
      rw [hpc] at hw
      cases hw
    have hcard : 0 < Fintype.card τ := Fintype.card_pos_iff.mpr ⟨t⟩
    have hwoken := load_goto s w (.lock c false)
    have hleft := load_goto (s.goto w (.lock c false)) t (.leave a)
    rw [goto_pc, Function.update_of_ne hne, hpc] at hleft
    rw [hw] at hwoken
    simp only [QueuePc.weight, QueueCall.extra_of_waits (hs.waits w c hw)] at hwoken hleft
    omega
  | notifyNone hpc =>
    refine load_lt_of_goto hpc ?_
    simp only [QueuePc.weight]
    omega
  | @notifyAll t a w hpc =>
    have hwake := load_wakeAll hs
    have hleft := load_goto s.wakeAll t (.leave a)
    have hthere : s.wakeAll.pc t = .notify .all a := by simp [hpc, QueuePc.woken]
    rw [hthere] at hleft
    simp only [QueuePc.weight] at hleft
    omega
  | ret hpc =>
    refine load_lt_of_goto hpc ?_
    simp only [QueuePc.weight]
    omega

/-- Nothing goes on by itself. -/
def Stuck (s : QueueState T τ) : Prop := ∀ act, act.own = true → s.step act = none

/-- The thread is in no call, or waits for what is not there. -/
def Settled (s : QueueState T τ) (t : τ) : Prop :=
  s.pc t = .outside ∨
    ∃ c, s.pc t = .asleep c ∧ s.queue.queue = [] ∧ s.queue.stopped = false

/-- A thread in a call that is not asleep can go on, or the owner of the mutex can. -/
theorem resting_of_stuck (hs : s.Exclusive) (h : s.Stuck) (t : τ) :
    s.pc t = .outside ∨ ∃ c, s.pc t = .asleep c := by
  have hfree : s.mutex () = none := by
    cases hm : s.mutex () with
    | none => rfl
    | some u =>
      have hholds : (s.pc u).holds = true := (hs u ()).mp hm
      have hbody := h (.body u) rfl
      have hunlock := h (.unlock u) rfl
      cases hpc : s.pc u with
      | inside c e =>
        simp only [step, hpc] at hbody
        split at hbody <;> cases hbody
      | unlock c a =>
        simp only [step, hpc] at hunlock
        cases hunlock
      | _ =>
        rw [hpc] at hholds
        cases hholds
  cases hpc : s.pc t with
  | outside => exact .inl rfl
  | asleep c => exact .inr ⟨c, rfl⟩
  | lock c e =>
    have := h (.lock t) rfl
    simp [step, hpc, hfree] at this
  | inside c e =>
    have hown := (hs t ()).mpr (by simp [hpc, QueuePc.holds])
    rw [hfree] at hown
    cases hown
  | unlock c a =>
    have hown := (hs t ()).mpr (by simp [hpc, QueuePc.holds])
    rw [hfree] at hown
    cases hown
  | notify whom a =>
    cases whom with
    | all =>
      have := h (.notify t none) rfl
      simp [step, hpc] at this
    | one =>
      by_cases hawake : ∀ u, (s.pc u).sleeps = false
      · have := h (.notify t none) rfl
        simp [step, hpc, notifyOne, hawake] at this
      · push Not at hawake
        obtain ⟨u, hu⟩ := hawake
        have := h (.notify t (some u)) rfl
        cases hw : s.pc u with
        | asleep c => simp [step, hpc, notifyOne, hw] at this
        | _ =>
          rw [hw] at hu
          exact absurd rfl hu
  | leave a =>
    have := h (.ret t) rfl
    simp [step, hpc] at this

/-- Where nothing goes on, nobody attends to the queue, so nothing is in it. -/
theorem settled_of_stuck (hex : s.Exclusive) (hatt : s.Attentive) (h : s.Stuck) (t : τ) :
    s.Settled t := by
  have hresting := resting_of_stuck hex h
  have hnone (kind : QueuePc T → Bool) (hout : kind .outside = false)
      (hasleep : ∀ c, kind (.asleep c) = false) : census kind s.pc = 0 := by
    refine census_eq_zero fun u => ?_
    rcases hresting u with hu | ⟨c, hu⟩
    · rw [hu, hout]
    · rw [hu, hasleep]
  rcases hresting t with ht | ⟨c, ht⟩
  · exact .inl ht
  · refine .inr ⟨c, ht, ?_, ?_⟩
    · have hle := hatt.enough t (by simp [ht, QueuePc.sleeps])
      rw [hnone _ rfl fun _ => rfl] at hle
      exact List.eq_nil_of_length_eq_zero (Nat.le_zero.mp hle)
    · cases hstopped : s.queue.stopped with
      | false => rfl
      | true =>
        have hpos := hatt.roused t (by simp [ht, QueuePc.sleeps]) hstopped
        rw [hnone _ rfl fun _ => rfl] at hpos
        omega

/-- No wakeup is lost. From any state reached, the threads that are awake can make only so many
steps unless a new call is made or a sleeper wakes by itself, and where none of them can make one,
every call has returned or waits at a queue that is empty and not stopped. -/
theorem quiesces (h : (machine (T := T)).Reach s) : ∃ bound, ∀ acts s',
    (∀ act ∈ acts, act.own = true) → machine.exec Machine.Any s acts = some s' →
      acts.length ≤ bound ∧ (s'.Stuck → ∀ t, s'.Settled t) := by
  refine ⟨s.load, fun acts s' hown hexec => ⟨?_, fun hstuck => ?_⟩⟩
  · have hle := Machine.length_le_of_exec (I := Attentive) (μ := load)
      (fun s act t hs hstep => attentive_of_moves hs (moves_of_step hstep))
      (fun s act t hs hact hstep => load_lt_of_moves hs hact (moves_of_step hstep))
      (attentive_of_reach h) hown hexec
    omega
  · have hreach := h.run (Machine.runUnder_of_exec hexec)
    exact settled_of_stuck (exclusive_of_reach hreach) (attentive_of_reach hreach) hstuck

theorem quiesces_handOver : ∃ s : QueueState Nat Bool, s.queue.queue = [8] ∧
    ∃ bound, ∀ acts s', (∀ act ∈ acts, act.own = true) →
      machine.exec Machine.Any s acts = some s' →
        acts.length ≤ bound ∧ (s'.Stuck → ∀ t, s'.Settled t) := by
  obtain ⟨s, hs, hp⟩ := Machine.reachUnder_of_exec (M := machine) (G := Machine.Any)
    (l := handOver) (p := fun s => s.queue.queue == [8]) rfl (by decide)
  exact ⟨s, by simpa using hp, quiesces hs⟩

end QueueState

/-! ## One reader that looks first -/

/-- The last thing the thread did is `empty`, and the answer was no. -/
def looked (events : List (Event (QueueCall T) (QueueAnswer T))) : Bool :=
  events.foldl (fun b e => match e with
    | .invoke _ => false
    | .commit .empty (.flag false) => true
    | .commit _ _ => false
    | .respond _ => b) false

theorem looked_concat_commit {l : List (Event (QueueCall T) (QueueAnswer T))} {c : QueueCall T}
    {a : QueueAnswer T} (h : looked (l ++ [.commit c a]) = true) :
    c = .empty ∧ a = .flag false := by
  unfold looked at h
  rw [List.foldl_concat] at h
  split at h
  · cases h
  next heq =>
    cases heq
    exact ⟨rfl, rfl⟩
  · cases h
  next heq => cases heq

namespace TsQueue

variable {q q' : TsQueue T} {expired : Bool} {c : QueueCall T} {a : QueueAnswer T}

/-- What is in the queue stays there if nobody takes it. -/
theorem ne_nil_of_body (h : q.body expired c = some (a, q')) (hc : c.takes = false)
    (hq : q.queue ≠ []) : q'.queue ≠ [] := by
  cases c with
  | waitPop | waitPopFor | tryPop | clear => cases hc
  | size | empty | stop | isStopped =>
    cases h
    exact hq
  | push v =>
    cases h
    exact List.append_ne_nil_of_left_ne_nil hq _

/-- A wait at a queue with something in it answers with a value. -/
theorem value_of_body (h : q.body expired c = some (a, q')) (hc : c.waits = true)
    (hq : q.queue ≠ []) : ∃ v, a = .value (some v) := by
  have hserve := serve_of_body h
  obtain ⟨l, b⟩ := q
  cases l with
  | nil => exact absurd rfl hq
  | cons v l =>
    cases c with
    | waitPop | waitPopFor =>
      cases hserve
      exact ⟨v, rfl⟩
    | _ => cases hc

end TsQueue

namespace QueueState

variable [DecidableEq τ] {s s' : QueueState T τ} {reader t : τ} {p : QueuePc T}

/-- Only one thread takes values, and it does so by a wait, right after it has seen that the queue
is not empty. -/
def Drains (reader : τ) (s : QueueState T τ) : QueueAct T τ → Prop
  | .call t c => c.takes = true →
      t = reader ∧ c.waits = true ∧ looked (Protocol.eventsOf reader s.trace) = true
  | _ => True

/-- Of one reader who looks before it waits: nobody sleeps, and nobody else takes values, so what
the reader has seen in the queue is there when it takes it. -/
structure Draining (reader : τ) (s : QueueState T τ) : Prop where
  awake : ∀ t, (s.pc t).sleeps = false
  others : ∀ t c, t ≠ reader → (s.pc t).phase = .called c → c.takes = false
  there : ∀ c, (s.pc reader).phase = .called c → c.takes = true →
    c.waits = true ∧ s.queue.queue ≠ []
  seen : looked (Protocol.eventsOf reader s.trace) = true → s.queue.queue ≠ []
  given : ∀ c a, (c, a) ∈ commits (s.trace.map (·.1)) → c.takes = true →
    ∃ v, a = .value (some v)

/-- A thread goes on awake within its call. -/
private theorem Draining.keep (h : s.Draining reader) (hqueue : s'.queue = s.queue)
    (htrace : s'.trace = s.trace) (hpc : s'.pc = Function.update s.pc t p)
    (hawake : p.sleeps = false) (hphase : p.phase = (s.pc t).phase) : s'.Draining reader := by
  have hsame (u : τ) : (s'.pc u).phase = (s.pc u).phase := by
    rw [hpc]
    by_cases hu : u = t
    · subst hu
      rw [Function.update_self, hphase]
    · rw [Function.update_of_ne hu]
  refine ⟨fun u => ?_, fun u c hu hc => h.others u c hu (hsame u ▸ hc),
    fun c hc => hqueue ▸ h.there c (hsame reader ▸ hc), ?_, ?_⟩
  · rw [hpc]
    by_cases hu : u = t
    · subst hu
      rw [Function.update_self, hawake]
    · rw [Function.update_of_ne hu, h.awake u]
  · rw [htrace, hqueue]
    exact h.seen
  · rw [htrace]
    exact h.given

private theorem awake_goto (h : ∀ u, (s.pc u).sleeps = false) (hp : p.sleeps = false) (u : τ) :
    (Function.update s.pc t p u).sleeps = false := by
  by_cases hu : u = t
  · subst hu
    rw [Function.update_self, hp]
  · rw [Function.update_of_ne hu, h u]

private theorem Draining.call (h : s.Draining reader) {c : QueueCall T}
    (hg : Drains reader s (.call t c)) :
    Draining reader ((s.goto t (.lock c false)).record t (.invoke c)) := by
  have hphase (u : τ) (k : QueueCall T)
      (hk : (Function.update s.pc t (.lock c false) u).phase = .called k) :
      u = t ∧ k = c ∨ u ≠ t ∧ (s.pc u).phase = .called k := by
    by_cases hu : u = t
    · subst hu
      rw [Function.update_self] at hk
      cases hk
      exact .inl ⟨rfl, rfl⟩
    · rw [Function.update_of_ne hu] at hk
      exact .inr ⟨hu, hk⟩
  refine ⟨awake_goto h.awake rfl, ?_, ?_, ?_, ?_⟩
  · intro u k hu hk
    rcases hphase u k hk with ⟨rfl, rfl⟩ | ⟨-, hk⟩
    · by_contra htakes
      exact hu (hg (by simpa using htakes)).1
    · exact h.others u k hu hk
  · intro k hk htakes
    rcases hphase reader k hk with ⟨-, rfl⟩ | ⟨-, hk⟩
    · obtain ⟨-, hwaits, hlooked⟩ := hg htakes
      exact ⟨hwaits, h.seen hlooked⟩
    · exact h.there k hk htakes
  · intro hlooked
    by_cases ht : t = reader
    · subst ht
      simp [looked] at hlooked
    · rw [record_trace, Protocol.eventsOf_append, Protocol.eventsOf_cons_ne ht] at hlooked
      exact h.seen (by simpa using hlooked)
  · simpa [Event.commit?] using h.given

private theorem Draining.serve (h : s.Draining reader) {c : QueueCall T} {e : Bool}
    {a : QueueAnswer T} {q : TsQueue T} (hpc : s.pc t = .inside c e)
    (hbody : s.queue.body e c = some (a, q)) :
    Draining reader ({ s.goto t (.unlock c a) with queue := q }.record t (.commit c a)) := by
  have hcalled : (s.pc t).phase = .called c := by rw [hpc, QueuePc.phase]
  have hother (u : τ) (k : QueueCall T)
      (hk : (Function.update s.pc t (.unlock c a) u).phase = .called k) :
      u ≠ t ∧ (s.pc u).phase = .called k := by
    by_cases hu : u = t
    · subst hu
      rw [Function.update_self] at hk
      cases hk
    · rw [Function.update_of_ne hu] at hk
      exact ⟨hu, hk⟩
  have hstays (ht : t ≠ reader) (hq : s.queue.queue ≠ []) : q.queue ≠ [] :=
    TsQueue.ne_nil_of_body hbody (h.others t c ht hcalled) hq
  refine ⟨awake_goto h.awake rfl, fun u k hu hk => h.others u k hu (hother u k hk).2, ?_, ?_, ?_⟩
  · intro k hk htakes
    obtain ⟨ht, hk⟩ := hother reader k hk
    obtain ⟨hwaits, hq⟩ := h.there k hk htakes
    exact ⟨hwaits, hstays (Ne.symm ht) hq⟩
  · intro hlooked
    by_cases ht : t = reader
    · subst ht
      rw [record_trace, Protocol.eventsOf_append, Protocol.eventsOf_cons_self,
        Protocol.eventsOf_nil] at hlooked
      obtain ⟨rfl, rfl⟩ := looked_concat_commit hlooked
      simp only [TsQueue.body, TsQueue.empty, Option.some.injEq, Prod.mk.injEq,
        QueueAnswer.flag.injEq] at hbody
      obtain ⟨hempty, rfl⟩ := hbody
      have hne : s.queue.queue ≠ [] := by simpa using hempty
      exact hne
    · rw [record_trace, Protocol.eventsOf_append, Protocol.eventsOf_cons_ne ht] at hlooked
      exact hstays ht (h.seen (by simpa using hlooked))
  · intro k b hmem htakes
    simp only [record_trace, goto_trace, List.map_append, List.map_cons, List.map_nil,
      commits_append, commits_singleton, Event.commit?, Option.toList_some, List.mem_append,
      List.mem_singleton, Prod.mk.injEq] at hmem
    rcases hmem with hmem | ⟨rfl, rfl⟩
    · exact h.given k b hmem htakes
    · by_cases ht : t = reader
      · subst ht
        obtain ⟨hwaits, hq⟩ := h.there k hcalled htakes
        exact TsQueue.value_of_body hbody hwaits hq
      · have := h.others t k ht hcalled
        rw [htakes] at this
        cases this

private theorem Draining.ret (h : s.Draining reader) {a : QueueAnswer T} (hpc : s.pc t = .leave a) :
    Draining reader ((s.goto t .outside).record t (.respond a)) := by
  have hother (u : τ) (k : QueueCall T)
      (hk : (Function.update s.pc t .outside u).phase = .called k) :
      (s.pc u).phase = .called k := by
    by_cases hu : u = t
    · subst hu
      rw [Function.update_self] at hk
      cases hk
    · rwa [Function.update_of_ne hu] at hk
  refine ⟨awake_goto h.awake rfl, fun u k hu hk => h.others u k hu (hother u k hk),
    fun k hk => h.there k (hother reader k hk), ?_, ?_⟩
  · intro hlooked
    by_cases ht : t = reader
    · subst ht
      rw [record_trace, Protocol.eventsOf_append, Protocol.eventsOf_cons_self,
        Protocol.eventsOf_nil, looked, List.foldl_concat] at hlooked
      exact h.seen hlooked
    · rw [record_trace, Protocol.eventsOf_append, Protocol.eventsOf_cons_ne ht] at hlooked
      exact h.seen (by simpa using hlooked)
  · simpa [Event.commit?] using h.given

theorem draining_of_moves {act : QueueAct T τ} (hs : s.Draining reader)
    (hg : Drains reader s act) (h : s.Moves act s') : s'.Draining reader := by
  have hnobody {u : τ} {c : QueueCall T} (hu : s.pc u = .asleep c) : False := by
    have := hs.awake u
    rw [hu] at this
    cases this
  cases h with
  | call hpc => exact hs.call hg
  | @lock t c e hpc =>
    exact hs.keep (t := t) (p := .inside c e) rfl rfl rfl rfl (by rw [hpc]; rfl)
  | serve hpc hbody => exact hs.serve hpc hbody
  | @sleep t c e hpc hbody =>
    -- the reader has seen a value, and the others do not wait
    obtain ⟨hwaits, hempty, -⟩ := TsQueue.body_eq_none hbody
    have htakes : c.takes = true := by cases c <;> first | rfl | cases hwaits
    have hcalled : (s.pc t).phase = .called c := by rw [hpc, QueuePc.phase]
    by_cases ht : t = reader
    · subst ht
      exact absurd hempty (hs.there c hcalled htakes).2
    · have := hs.others t c ht hcalled
      rw [htakes] at this
      cases this
  | wake hpc => exact (hnobody hpc).elim
  | @unlock t c a hpc =>
    refine hs.keep (t := t) (p := .after c a) rfl rfl rfl QueuePc.after_sleeps ?_
    rw [hpc, QueuePc.after_phase, QueuePc.phase]
  | notifyOne hpc hw => exact (hnobody hw).elim
  | @notifyNone t a hpc =>
    exact hs.keep (t := t) (p := .leave a) rfl rfl rfl rfl (by rw [hpc]; rfl)
  | @notifyAll t a w hpc =>
    have hsame : s.wakeAll.pc = s.pc := by
      funext u
      rw [wakeAll_pc]
      cases hu : s.pc u with
      | asleep c => exact (hnobody hu).elim
      | _ => simp [hu, QueuePc.woken]
    refine hs.keep (t := t) (p := .leave a) rfl rfl ?_ rfl (by rw [hpc]; rfl)
    rw [goto_pc, hsame]
  | ret hpc => exact hs.ret hpc

/-- Where one thread empties the queue in a loop that looks before it waits, and the others take
nothing, no thread ever sleeps in the queue and every wait comes back with a value, whatever the
others put in and however the steps are interleaved. -/
theorem drain_never_waits [Fintype τ]
    (h : (machine (T := T)).ReachUnder (Drains reader) s) :
    (∀ t, (s.pc t).sleeps = false) ∧
      ∀ c a, (c, a) ∈ commits (s.trace.map (·.1)) → c.takes = true → ∃ v, a = .value (some v) := by
  have hdraining : s.Draining reader := by
    refine h.invariant (I := Draining reader) ?_ fun s act t hs hg hstep =>
      draining_of_moves hs hg (moves_of_step hstep)
    rintro s rfl
    refine ⟨fun _ => rfl, ?_, ?_, ?_, ?_⟩
    · intro t c _ hc
      cases hc
    · intro c hc
      cases hc
    · intro hlooked
      cases hlooked
    · intro c a hmem
      cases hmem
  exact ⟨hdraining.awake, hdraining.given⟩

instance (reader : τ) (s : QueueState T τ) (act : QueueAct T τ) :
    Decidable (Drains reader s act) := by
  unfold Drains
  split <;> infer_instance

/-- The producer pushes; the reader looks, waits and is given the value. -/
def drained : List (QueueAct Nat Bool) :=
  [.call false (.push 7), .lock false, .body false, .call true .empty, .unlock false, .lock true,
    .body true, .unlock true, .notify false none, .ret true, .call true .waitPop, .lock true,
    .body true]

theorem drain_never_waits_drained : ∃ s : QueueState Nat Bool, s.trace.length = 7 ∧
    (∀ t, (s.pc t).sleeps = false) ∧
      ∀ c a, (c, a) ∈ commits (s.trace.map (·.1)) → c.takes = true →
        ∃ v, a = .value (some v) := by
  obtain ⟨s, hs, hp⟩ := Machine.reachUnder_of_exec (M := machine) (G := Drains true)
    (l := drained) (p := fun s => s.queue.queue == [] && s.trace.length == 7) rfl (by decide)
  exact ⟨s, by simpa using (Bool.and_eq_true_iff.mp hp).2, drain_never_waits hs⟩

end QueueState

end ProjectE.Threads
