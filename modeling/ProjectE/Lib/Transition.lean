import Mathlib.Logic.Relation

/-!
# Labelled transition machines

A machine is a set of initial states and a partial step function. A label carries everything the
machine does not decide itself: which component moves, and what the environment answered. A run is
the reflexive transitive closure of the step relation (`Relation.ReflTransGen`), relativised to a
condition on steps, so that "every run whose steps all meet `G`" is one notion (`RunUnder`) and
"every run" is its instance at `Any`.

The rules: an invariant kept by every step that meets the condition holds along such a run
(`RunUnder.invariant`), it may use another invariant already known of every run
(`ReachUnder.induction`), and what holds at the end of a run computed by `exec` holds of a state
reached (`reachUnder_of_exec`). Steps that make a measure smaller end after as many
(`length_le_of_exec`). Where every step is enabled a run is a fold, and refinement is one
square for each step (`foldl_refines`).
-/

namespace Verif

universe u v

/-- A machine: its initial states, and the step a label makes from a state, if it is enabled. -/
structure Machine (σ : Type u) (α : Type v) where
  init : σ → Prop
  step : σ → α → Option σ

namespace Machine

variable {σ : Type u} {α : Type v} (M : Machine σ α)

/-- The condition every step meets. -/
def Any (_ : σ) (_ : α) : Prop := True

instance (s : σ) (a : α) : Decidable (Any s a) := .isTrue trivial

/-- One step, taken where the condition holds of the state and the label. -/
def StepUnder (G : σ → α → Prop) (s t : σ) : Prop := ∃ a, G s a ∧ M.step s a = some t

/-- A run all of whose steps meet the condition. -/
def RunUnder (G : σ → α → Prop) : σ → σ → Prop := Relation.ReflTransGen (M.StepUnder G)

/-- A state reached from an initial one by a run whose steps all meet the condition. -/
def ReachUnder (G : σ → α → Prop) (s : σ) : Prop := ∃ s₀, M.init s₀ ∧ M.RunUnder G s₀ s

/-- A reachable state. -/
def Reach (s : σ) : Prop := M.ReachUnder Any s

/-- Kept by every step. -/
def Preserves (I : σ → Prop) : Prop := ∀ s a t, I s → M.step s a = some t → I t

/-- The state a list of labels leads to, if every one of them is enabled and admitted. -/
def exec (G : σ → α → Prop) [∀ s a, Decidable (G s a)] : σ → List α → Option σ
  | s, [] => some s
  | s, a :: as => if G s a then (M.step s a).bind fun t => exec G t as else none

variable {M} {G H : σ → α → Prop} {s t u : σ}

theorem RunUnder.step {a : α} (h : G s a) (hs : M.step s a = some t) : M.RunUnder G s t :=
  Relation.ReflTransGen.single ⟨a, h, hs⟩

theorem RunUnder.trans (h₁ : M.RunUnder G s t) (h₂ : M.RunUnder G t u) : M.RunUnder G s u :=
  Relation.ReflTransGen.trans h₁ h₂

/-- A weaker condition admits more runs. -/
theorem RunUnder.mono (hGH : ∀ s a, G s a → H s a) (h : M.RunUnder G s t) : M.RunUnder H s t :=
  Relation.ReflTransGen.mono (fun _ _ ⟨a, hg, hs⟩ => ⟨a, hGH _ a hg, hs⟩) _ _ h

theorem RunUnder.any (h : M.RunUnder G s t) : M.RunUnder Any s t := h.mono fun _ _ _ => trivial

/-- A run computed step by step is a run. -/
theorem runUnder_of_exec [∀ s a, Decidable (G s a)] : ∀ {as : List α} {s t : σ},
    M.exec G s as = some t → M.RunUnder G s t
  | [], s, t, h => by
    cases h
    exact Relation.ReflTransGen.refl
  | a :: as, s, t, h => by
    unfold exec at h
    split at h
    next hg =>
      obtain ⟨r, hr, hrest⟩ := Option.bind_eq_some_iff.mp h
      exact (RunUnder.step hg hr).trans (runUnder_of_exec hrest)
    · cases h

/-- A property computed of the state at the end of a run. -/
theorem exists_runUnder_of_exec [∀ s a, Decidable (G s a)] {l : List α} {p : σ → Bool}
    (h : (M.exec G s l).any p = true) : ∃ t, M.RunUnder G s t ∧ p t = true := by
  obtain ⟨t, ht, hp⟩ := (Option.any_eq_true _ _).mp h
  exact ⟨t, runUnder_of_exec ht, hp⟩

theorem reachUnder_of_exec [∀ s a, Decidable (G s a)] {l : List α} {p : σ → Bool} (hs : M.init s)
    (h : (M.exec G s l).any p = true) : ∃ t, M.ReachUnder G t ∧ p t = true := by
  obtain ⟨t, hrun, hp⟩ := exists_runUnder_of_exec h
  exact ⟨t, ⟨s, hs, hrun⟩, hp⟩

/-- A run computed where the labels alone meet the condition. -/
theorem runUnder_of_labels : ∀ {as : List α} {s t : σ}, (∀ a ∈ as, ∀ s, G s a) →
    M.exec Any s as = some t → M.RunUnder G s t
  | [], s, t, _, h => by
    cases h
    exact Relation.ReflTransGen.refl
  | a :: as, s, t, hl, h => by
    obtain ⟨ha, has⟩ := List.forall_mem_cons.mp hl
    have hany : Any s a := trivial
    rw [exec, if_pos hany] at h
    obtain ⟨r, hr, hrest⟩ := Option.bind_eq_some_iff.mp h
    exact (RunUnder.step (ha s) hr).trans (runUnder_of_labels has hrest)

/-- A run computed under one condition, its labels meeting another. -/
theorem runUnder_and_of_exec [∀ s a, Decidable (G s a)] {own : α → Prop} : ∀ {as : List α}
    {s t : σ}, (∀ a ∈ as, own a) → M.exec G s as = some t →
      M.RunUnder (fun s a => G s a ∧ own a) s t
  | [], s, t, _, h => by
    cases h
    exact Relation.ReflTransGen.refl
  | a :: as, s, t, hl, h => by
    obtain ⟨ha, has⟩ := List.forall_mem_cons.mp hl
    unfold exec at h
    split at h
    next hg =>
      obtain ⟨r, hr, hrest⟩ := Option.bind_eq_some_iff.mp h
      exact (RunUnder.step ⟨hg, ha⟩ hr).trans (runUnder_and_of_exec has hrest)
    · cases h

theorem reachUnder_of_labels {l : List α} {p : σ → Bool} (hs : M.init s)
    (hl : ∀ a ∈ l, ∀ s, G s a) (h : (M.exec Any s l).any p = true) :
    ∃ t, M.ReachUnder G t ∧ p t = true := by
  obtain ⟨t, ht, hp⟩ := (Option.any_eq_true _ _).mp h
  exact ⟨t, ⟨s, hs, runUnder_of_labels hl ht⟩, hp⟩

/-- The termination rule: along labels each of which makes a measure smaller, where an invariant
holds, a run is no longer than the measure. -/
theorem length_le_of_exec {I : σ → Prop} {μ : σ → Nat} {own : α → Prop}
    (hinv : ∀ s a t, I s → M.step s a = some t → I t)
    (hless : ∀ s a t, I s → own a → M.step s a = some t → μ t < μ s) :
    ∀ {as : List α} {s t : σ}, I s → (∀ a ∈ as, own a) → M.exec Any s as = some t →
      as.length + μ t ≤ μ s
  | [], s, t, _, _, h => by
    cases h
    exact Nat.le_of_eq (Nat.zero_add _)
  | a :: as, s, t, hs, hown, h => by
    obtain ⟨ha, has⟩ := List.forall_mem_cons.mp hown
    have hany : Any s a := trivial
    rw [exec, if_pos hany] at h
    obtain ⟨r, hr, hrest⟩ := Option.bind_eq_some_iff.mp h
    have hfirst := hless s a r hs ha hr
    have hlast := length_le_of_exec hinv hless (hinv s a r hs hr) has hrest
    rw [List.length_cons]
    omega

/-- What every admitted step keeps, a run keeps. -/
theorem RunUnder.invariant {I : σ → Prop}
    (hstep : ∀ s a t, I s → G s a → M.step s a = some t → I t)
    (h : M.RunUnder G s t) (hs : I s) : I t := by
  induction h with
  | refl => exact hs
  | tail _ hlast ih =>
    obtain ⟨a, hg, ha⟩ := hlast
    exact hstep _ a _ ih hg ha

theorem ReachUnder.mono (hGH : ∀ s a, G s a → H s a) (h : M.ReachUnder G s) :
    M.ReachUnder H s := by
  obtain ⟨s₀, hi, hr⟩ := h
  exact ⟨s₀, hi, hr.mono hGH⟩

theorem ReachUnder.any (h : M.ReachUnder G s) : M.Reach s := h.mono fun _ _ _ => trivial

theorem ReachUnder.run (h : M.ReachUnder G s) (hr : M.RunUnder G s t) : M.ReachUnder G t := by
  obtain ⟨s₀, hi, h₀⟩ := h
  exact ⟨s₀, hi, h₀.trans hr⟩

theorem ReachUnder.init (h : M.init s) : M.ReachUnder G s := ⟨s, h, Relation.ReflTransGen.refl⟩

theorem ReachUnder.step {a : α} (h : M.ReachUnder G s) (hg : G s a) (hs : M.step s a = some t) :
    M.ReachUnder G t :=
  h.run (.step hg hs)

/-- The invariant rule: an invariant holds initially and is kept by every admitted step. -/
theorem ReachUnder.invariant {I : σ → Prop} (hinit : ∀ s, M.init s → I s)
    (hstep : ∀ s a t, I s → G s a → M.step s a = some t → I t) (h : M.ReachUnder G s) : I s := by
  obtain ⟨s₀, hi, hr⟩ := h
  exact hr.invariant hstep (hinit s₀ hi)

/-- An invariant of every run, by `Preserves`. -/
theorem Reach.invariant {I : σ → Prop} (hinit : ∀ s, M.init s → I s) (hstep : M.Preserves I)
    (h : M.Reach s) : I s :=
  ReachUnder.invariant hinit (fun s a t hs _ ha => hstep s a t hs ha) h

/-- The invariant rule relative to `J`, an invariant already known of every run: the step case may
use `J` of both its states. -/
theorem ReachUnder.induction {I J : σ → Prop} (hJ : ∀ s, M.Reach s → J s)
    (hinit : ∀ s, M.init s → I s)
    (hstep : ∀ s a t, J s → J t → I s → G s a → M.step s a = some t → I t)
    (h : M.ReachUnder G s) : I s := by
  obtain ⟨s₀, hi, hr⟩ := h
  induction hr with
  | refl => exact hinit s₀ hi
  | tail hrun hlast ih =>
    obtain ⟨a, hg, ha⟩ := hlast
    have hreach : M.Reach _ := ⟨s₀, hi, RunUnder.any hrun⟩
    exact hstep _ a _ (hJ _ hreach) (hJ _ (hreach.run (RunUnder.step trivial ha))) ih hg ha

/-! ### Runs that are recorded -/

variable (M) in
/-- The machine that keeps the labels of its run. -/
def recorded : Machine (σ × List α) α where
  init s := M.init s.1 ∧ s.2 = []
  step s a := (M.step s.1 a).map fun t => (t, s.2 ++ [a])

theorem step_recorded {s t : σ × List α} {a : α} :
    M.recorded.step s a = some t ↔ M.step s.1 a = some t.1 ∧ t.2 = s.2 ++ [a] := by
  obtain ⟨t, as⟩ := t
  simp only [recorded, Option.map_eq_some_iff, Prod.mk.injEq]
  constructor
  · rintro ⟨t, ht, rfl, rfl⟩
    exact ⟨ht, rfl⟩
  · rintro ⟨ht, rfl⟩
    exact ⟨t, ht, rfl, rfl⟩

/-- What is recorded of a run computed step by step is its labels. -/
theorem exec_recorded {G : σ × List α → α → Prop} [∀ s a, Decidable (G s a)] :
    ∀ {as : List α} {s t : σ × List α}, M.recorded.exec G s as = some t → t.2 = s.2 ++ as
  | [], s, t, h => by
    cases h
    exact (List.append_nil _).symm
  | a :: as, s, t, h => by
    unfold exec at h
    split at h
    · obtain ⟨r, hr, hrest⟩ := Option.bind_eq_some_iff.mp h
      rw [exec_recorded hrest, (step_recorded.mp hr).2, List.append_assoc]
      rfl
    · cases h

end Machine

/-! ## Total steps -/

/-- The refinement rule for steps that are always enabled: under an invariant, the abstraction of a
run is the abstract run. -/
theorem foldl_refines {σ τ α : Type*} {I : σ → Prop} {f : σ → τ} {step : σ → α → σ}
    {step' : τ → α → τ} (hinv : ∀ s a, I s → I (step s a))
    (hstep : ∀ s a, I s → f (step s a) = step' (f s) a) (l : List α) {s : σ} (hs : I s) :
    I (l.foldl step s) ∧ f (l.foldl step s) = l.foldl step' (f s) := by
  induction l generalizing s with
  | nil => exact ⟨hs, rfl⟩
  | cons a l ih =>
    obtain ⟨hkept, habs⟩ := ih (hinv s a hs)
    refine ⟨hkept, ?_⟩
    rw [List.foldl_cons, List.foldl_cons, habs, hstep s a hs]

end Verif
