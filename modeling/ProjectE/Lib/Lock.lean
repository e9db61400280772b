import Mathlib.Logic.Function.Basic

/-!
# Mutexes of a few threads

A table of mutexes records who owns each. What a program can say of it is that the owners agree with
the threads' positions: a thread owns a mutex exactly where its code is between the lock and the
unlock (`Locks.Agrees`). Locking needs the mutex free, so agreement makes holding exclusive. Two
threads are deadlocked if each wants a mutex the other owns (`Locks.Deadlock`).
-/

namespace Verif

/-- Mutexes and their owners. -/
abbrev Locks (μ τ : Type*) := μ → Option τ

namespace Locks

variable {μ τ : Type*} [DecidableEq μ]

/-- The thread gets the lock. That nobody has it is for the caller to look at. -/
def acquire (locks : Locks μ τ) (m : μ) (t : τ) : Locks μ τ := Function.update locks m (some t)

/-- Nobody has the lock. -/
def release (locks : Locks μ τ) (m : μ) : Locks μ τ := Function.update locks m none

/-- Without the mutexes one thread owns. -/
def dropAll [DecidableEq τ] (locks : Locks μ τ) (t : τ) : Locks μ τ := fun m =>
  if locks m = some t then none else locks m

/-- The owners are the threads whose positions hold the mutex. -/
def Agrees (locks : Locks μ τ) (holds : τ → μ → Prop) : Prop :=
  ∀ t m, locks m = some t ↔ holds t m

/-- Two threads, each wanting a mutex the other owns. -/
def Deadlock (locks : Locks μ τ) (wants : τ → Option μ) : Prop :=
  ∃ t t' m m', t ≠ t' ∧ wants t = some m ∧ locks m = some t' ∧
    wants t' = some m' ∧ locks m' = some t

variable {locks : Locks μ τ} {holds holds' : τ → μ → Prop} {t t' : τ} {m : μ}

omit [DecidableEq μ] in
theorem Agrees.congr (h : locks.Agrees holds) (hiff : ∀ t m, holds' t m ↔ holds t m) :
    locks.Agrees holds' := fun t m => (h t m).trans (hiff t m).symm

omit [DecidableEq μ] in
/-- No two threads hold one mutex. -/
theorem Agrees.exclusive (h : locks.Agrees holds) (h₁ : holds t m) (h₂ : holds t' m) : t = t' :=
  Option.some.inj (((h t m).mpr h₁).symm.trans ((h t' m).mpr h₂))

omit [DecidableEq μ] in
/-- A free mutex is held by nobody. -/
theorem Agrees.not_holds (h : locks.Agrees holds) (hfree : locks m = none) : ¬ holds t m := by
  intro hm
  rw [(h t m).mpr hm] at hfree
  cases hfree

/-- Locking: the thread's position now holds the mutex as well. -/
theorem Agrees.acquire (h : locks.Agrees holds) (hfree : locks m = none)
    (hiff : ∀ t' m', holds' t' m' ↔ holds t' m' ∨ t' = t ∧ m' = m) :
    (locks.acquire m t).Agrees holds' := by
  intro t' m'
  rw [hiff]
  by_cases hm : m' = m
  · subst hm
    simp only [Locks.acquire, Function.update_self, Option.some.injEq, h.not_holds hfree, and_true,
      false_or]
    exact eq_comm
  · simp only [Locks.acquire, Function.update_of_ne hm, h t' m', hm, and_false, or_false]

/-- Unlocking: the position of the thread that held the mutex holds it no more. -/
theorem Agrees.release (h : locks.Agrees holds) (hheld : holds t m)
    (hiff : ∀ t' m', holds' t' m' ↔ holds t' m' ∧ ¬ (t' = t ∧ m' = m)) :
    (locks.release m).Agrees holds' := by
  intro t' m'
  rw [hiff]
  by_cases hm : m' = m
  · subst hm
    simp only [Locks.release, Function.update_self, reduceCtorEq, and_true, false_iff, not_and,
      not_not]
    intro h'
    exact h.exclusive h' hheld
  · simp only [Locks.release, Function.update_of_ne hm, h t' m', hm, and_false, not_false_eq_true,
      and_true]

omit [DecidableEq μ] in
/-- A thread that is gone holds nothing. -/
theorem Agrees.dropAll [DecidableEq τ] (h : locks.Agrees holds)
    (hiff : ∀ t' m', holds' t' m' ↔ holds t' m' ∧ t' ≠ t) : (locks.dropAll t).Agrees holds' := by
  intro t' m'
  rw [hiff, ← h t' m']
  unfold Locks.dropAll
  split
  · next hown =>
    rw [hown]
    simp only [reduceCtorEq, Option.some.injEq, false_iff, not_and, ne_eq, not_not]
    intro heq
    exact heq.symm
  · next hown =>
    constructor
    · intro hm
      exact ⟨hm, fun heq => hown (heq ▸ hm)⟩
    · intro hm
      exact hm.1

end Locks

end Verif
