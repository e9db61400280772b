import ProjectE.Lib.Protocol

/-!
# Linearizable objects

Several threads call the operations of one object. What happens is one sequence of events, each with
its thread: a call, the point at which the operation takes effect with its answer (`commit`), and
the return of that answer. The sequence is linearizable (`Linearizes`) if each thread's part of it
goes round through these three (`Follows`), and the commits, in the order in which they come, are a
run of the sequential object (`Replays`): every operation takes effect between its call and its
return, as if it were alone.

A program keeps this by three rules, one for each kind of event. What follows for a thread is that
its returns are the answers of its commits, but for one that is still on its way
(`Linearizes.responses_append`).
-/

namespace Verif.Linear

open Protocol

universe u v w x

variable {σ : Type u} {κ : Type v} {α : Type w} {τ : Type x}

/-- A call, the moment at which it takes effect, and its return. -/
inductive Event (κ : Type v) (α : Type w) where
  | invoke (call : κ)
  | commit (call : κ) (answer : α)
  | respond (answer : α)

/-- Where a thread is with the object. -/
inductive Phase (κ : Type v) (α : Type w) where
  | idle
  | called (call : κ)
  | done (answer : α)

/-- The answer that is not yet returned. -/
def Phase.pending : Phase κ α → List α
  | .done a => [a]
  | _ => []

/-- The events of one thread: call, effect, return, and again. -/
inductive Follows : List (Event κ α) → Phase κ α → Prop
  | nil : Follows [] .idle
  | invoke {l : List (Event κ α)} {c : κ} (h : Follows l .idle) :
      Follows (l ++ [.invoke c]) (.called c)
  | commit {l : List (Event κ α)} {c : κ} {a : α} (h : Follows l (.called c)) :
      Follows (l ++ [.commit c a]) (.done a)
  | respond {l : List (Event κ α)} {a : α} (h : Follows l (.done a)) :
      Follows (l ++ [.respond a]) .idle

/-- A run of the sequential object: each operation with the answer the object gives it. -/
inductive Replays (spec : σ → κ → Option (α × σ)) (s₀ : σ) : List (κ × α) → σ → Prop
  | nil : Replays spec s₀ [] s₀
  | concat {l : List (κ × α)} {s s' : σ} {c : κ} {a : α} (h : Replays spec s₀ l s)
      (hstep : spec s c = some (a, s')) : Replays spec s₀ (l ++ [(c, a)]) s'

/-- The call that takes effect, and its answer. -/
def Event.commit? : Event κ α → Option (κ × α)
  | .commit c a => some (c, a)
  | _ => none

/-- The answer that is returned. -/
def Event.respond? : Event κ α → Option α
  | .respond a => some a
  | _ => none

/-- The operations in the order in which they took effect. -/
def commits (events : List (Event κ α)) : List (κ × α) := events.filterMap Event.commit?

/-- The answers returned. -/
def responses (events : List (Event κ α)) : List α := events.filterMap Event.respond?

@[simp] theorem commits_append (l l' : List (Event κ α)) :
    commits (l ++ l') = commits l ++ commits l' := List.filterMap_append

@[simp] theorem responses_append (l l' : List (Event κ α)) :
    responses (l ++ l') = responses l ++ responses l' := List.filterMap_append

@[simp] theorem commits_singleton (e : Event κ α) : commits [e] = e.commit?.toList := by
  cases e <;> rfl

@[simp] theorem responses_singleton (e : Event κ α) : responses [e] = e.respond?.toList := by
  cases e <;> rfl

/-- A thread is given what its operations answered, in order, and at most one answer is still to
come. -/
theorem Follows.responses_append {l : List (Event κ α)} {p : Phase κ α} (h : Follows l p) :
    responses l ++ p.pending = (commits l).map (·.2) := by
  induction h with
  | nil => rfl
  | invoke _ ih | commit _ ih | respond _ ih =>
    simpa [Phase.pending, Event.commit?, Event.respond?] using ih

section Linearizes

variable [DecidableEq τ]

/-- The events of the threads, in the phases given, are explained by the sequential object, which
started from `s₀` and is now `s`. -/
structure Linearizes (spec : σ → κ → Option (α × σ)) (s₀ : σ) (trace : List (Event κ α × τ))
    (s : σ) (phase : τ → Phase κ α) : Prop where
  threads : ∀ t, Follows (eventsOf t trace) (phase t)
  object : Replays spec s₀ (commits (trace.map (·.1))) s

variable {spec : σ → κ → Option (α × σ)} {s₀ s s' : σ} {trace : List (Event κ α × τ)}
variable {phase phase' : τ → Phase κ α} {t : τ} {c : κ} {a : α}

namespace Linearizes

theorem init : Linearizes spec s₀ [] s₀ fun _ : τ => .idle := ⟨fun _ => .nil, .nil⟩

/-- A step that is none of the threads' events. -/
theorem congr (h : Linearizes spec s₀ trace s phase) (hphase : ∀ u, phase' u = phase u) :
    Linearizes spec s₀ trace s phase' :=
  ⟨fun u => hphase u ▸ h.threads u, h.object⟩

/-- An event of one thread is no event of the others. -/
private theorem threads_concat (h : Linearizes spec s₀ trace s phase) {e : Event κ α}
    (ht : Follows (eventsOf t trace ++ [e]) (phase' t)) (hphase : ∀ u ≠ t, phase' u = phase u)
    (u : τ) : Follows (eventsOf u (trace ++ [(e, t)])) (phase' u) := by
  rw [eventsOf_append]
  by_cases hu : u = t
  · subst hu
    rw [eventsOf_cons_self, eventsOf_nil]
    exact ht
  · rw [eventsOf_cons_ne (Ne.symm hu), eventsOf_nil, List.append_nil, hphase u hu]
    exact h.threads u

theorem invoke (h : Linearizes spec s₀ trace s phase) (hidle : phase t = .idle)
    (ht : phase' t = .called c) (hphase : ∀ u ≠ t, phase' u = phase u) :
    Linearizes spec s₀ (trace ++ [(.invoke c, t)]) s phase' where
  threads := by
    refine h.threads_concat ?_ hphase
    rw [ht]
    exact .invoke (hidle ▸ h.threads t)
  object := by simpa [Event.commit?] using h.object

theorem commit (h : Linearizes spec s₀ trace s phase) (hcalled : phase t = .called c)
    (hspec : spec s c = some (a, s')) (ht : phase' t = .done a)
    (hphase : ∀ u ≠ t, phase' u = phase u) :
    Linearizes spec s₀ (trace ++ [(.commit c a, t)]) s' phase' where
  threads := by
    refine h.threads_concat ?_ hphase
    rw [ht]
    exact .commit (hcalled ▸ h.threads t)
  object := by simpa [Event.commit?] using h.object.concat hspec

theorem respond (h : Linearizes spec s₀ trace s phase) (hdone : phase t = .done a)
    (ht : phase' t = .idle) (hphase : ∀ u ≠ t, phase' u = phase u) :
    Linearizes spec s₀ (trace ++ [(.respond a, t)]) s phase' where
  threads := by
    refine h.threads_concat ?_ hphase
    rw [ht]
    exact .respond (hdone ▸ h.threads t)
  object := by simpa [Event.commit?] using h.object

end Linearizes

end Linearizes

end Verif.Linear
