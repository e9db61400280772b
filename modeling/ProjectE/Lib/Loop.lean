import Mathlib.Logic.Relation
import Mathlib.Order.WellFounded

/-!
# Loops that may not end

A loop is its body: from the state at the head of a turn it makes the state of the next one, or the
value the loop returns. It runs here with a bound on its turns (`loop`), and a statement about what
it returns speaks of some bound (`Returns`), so that a loop that goes on for ever is one that
returns at no bound.

The rules: an invariant of the turns holds of what is returned (`Returns.rule`); a measure that
every turn lowers makes the loop return (`terminates_of_measure`); and where no turn raises a
measure, a loop that does not return comes to a turn from which the measure stays what it is and
every turn is followed by another (`stalls_of_not_terminates`).
-/

namespace Verif

variable {σ ρ : Type*}

/-- One turn of a loop. -/
inductive Turn (σ ρ : Type*) where
  | next (s : σ)
  | done (r : ρ)

/-- At most so many turns. -/
def loop (body : σ → Turn σ ρ) : Nat → σ → Option ρ
  | 0, _ => none
  | turns + 1, s =>
    match body s with
    | .next t => loop body turns t
    | .done r => some r

/-- The loop returns this. -/
def Returns (body : σ → Turn σ ρ) (s : σ) (r : ρ) : Prop := ∃ turns, loop body turns s = some r

/-- The loop comes to an end, whatever it returns. -/
def Terminates (body : σ → Turn σ ρ) (s : σ) : Prop := ∃ r, Returns body s r

/-- The states at the head of a turn, from this one on. -/
def Steps (body : σ → Turn σ ρ) : σ → σ → Prop :=
  Relation.ReflTransGen fun s t => body s = .next t

variable {body : σ → Turn σ ρ} {s t : σ} {r : ρ}

theorem loop_next (h : body s = .next t) (turns : Nat) :
    loop body (turns + 1) s = loop body turns t := by
  simp only [loop, h]

theorem loop_done (h : body s = .done r) (turns : Nat) : loop body (turns + 1) s = some r := by
  simp only [loop, h]

theorem Steps.next (h : body s = .next t) : Steps body s t := Relation.ReflTransGen.single h

theorem Steps.trans {u : σ} (h₁ : Steps body s t) (h₂ : Steps body t u) : Steps body s u :=
  Relation.ReflTransGen.trans h₁ h₂

/-- What is returned is returned at every larger bound too. -/
theorem loop_mono : ∀ {n m : Nat} {s : σ}, n ≤ m → loop body n s = some r → loop body m s = some r
  | n + 1, m + 1, s, hle, h => by
    cases hbody : body s with
    | next t =>
      rw [loop_next hbody] at h ⊢
      exact loop_mono (Nat.le_of_succ_le_succ hle) h
    | done r' =>
      rw [loop_done hbody] at h ⊢
      exact h

theorem Returns.unique {r' : ρ} (h : Returns body s r) (h' : Returns body s r') : r = r' := by
  obtain ⟨n, hn⟩ := h
  obtain ⟨m, hm⟩ := h'
  have hn := loop_mono (Nat.le_max_left n m) hn
  have hm := loop_mono (Nat.le_max_right n m) hm
  exact Option.some.inj (hn.symm.trans hm)

theorem Returns.of_done (h : body s = .done r) : Returns body s r := ⟨1, loop_done h 0⟩

theorem returns_next_iff (h : body s = .next t) : Returns body s r ↔ Returns body t r := by
  constructor
  · rintro ⟨turns, hturns⟩
    cases turns with
    | zero => cases hturns
    | succ turns => exact ⟨turns, loop_next h turns ▸ hturns⟩
  · rintro ⟨turns, hturns⟩
    exact ⟨turns + 1, (loop_next h turns).trans hturns⟩

/-- A loop returns what it returns from any turn on. -/
theorem returns_steps_iff (h : Steps body s t) : Returns body s r ↔ Returns body t r := by
  induction h with
  | refl => exact Iff.rfl
  | tail _ hlast ih => exact ih.trans (returns_next_iff hlast)

/-- Where the loop returns, its last turn says what. -/
theorem Returns.last (h : Returns body s r) : ∃ t, Steps body s t ∧ body t = .done r := by
  obtain ⟨turns, h⟩ := h
  induction turns generalizing s with
  | zero => cases h
  | succ turns ih =>
    cases hbody : body s with
    | next t =>
      rw [loop_next hbody] at h
      obtain ⟨u, hu, hlast⟩ := ih h
      exact ⟨u, (Steps.next hbody).trans hu, hlast⟩
    | done r' =>
      rw [loop_done hbody] at h
      cases h
      exact ⟨s, .refl, hbody⟩

/-- An invariant of the turns holds at the head of every turn. -/
theorem Steps.rule {I : σ → Prop} (hnext : ∀ s t, I s → body s = .next t → I t)
    (h : Steps body s t) (hs : I s) : I t := by
  induction h with
  | refl => exact hs
  | tail _ hlast ih => exact hnext _ _ ih hlast

/-- The invariant rule: what the turns keep decides about what is returned. -/
theorem Returns.rule {I : σ → Prop} {Q : ρ → Prop} (hnext : ∀ s t, I s → body s = .next t → I t)
    (hdone : ∀ s r, I s → body s = .done r → Q r) (h : Returns body s r) (hs : I s) : Q r := by
  obtain ⟨t, ht, hlast⟩ := h.last
  exact hdone t r (ht.rule hnext hs) hlast

/-- A loop whose every turn is followed by another does not return. -/
theorem not_terminates_of_steps (h : ∀ t, Steps body s t → ∃ u, body t = .next u) :
    ¬ Terminates body s := by
  rintro ⟨r, hr⟩
  obtain ⟨t, ht, hlast⟩ := hr.last
  obtain ⟨u, hu⟩ := h t ht
  cases hu.symm.trans hlast

/-- A loop that does not return makes another turn after every turn. -/
theorem exists_next_of_not_terminates (h : ¬ Terminates body s) (ht : Steps body s t) :
    ∃ u, body t = .next u := by
  cases hbody : body t with
  | next u => exact ⟨u, rfl⟩
  | done r => exact absurd ⟨r, (returns_steps_iff ht).mpr (.of_done hbody)⟩ h

/-- The variant rule: a measure that every turn lowers. -/
theorem terminates_of_measure {I : σ → Prop} (m : σ → Nat)
    (hnext : ∀ s t, I s → body s = .next t → I t ∧ m t < m s) (hs : I s) : Terminates body s := by
  induction hm : m s using Nat.strong_induction_on generalizing s with
  | _ k ih =>
    cases hbody : body s with
    | next t =>
      obtain ⟨ht, hlt⟩ := hnext s t hs hbody
      obtain ⟨r, hr⟩ := ih (m t) (hm ▸ hlt) ht rfl
      exact ⟨r, (returns_next_iff hbody).mpr hr⟩
    | done r => exact ⟨r, .of_done hbody⟩

/-- Where no turn raises the measure, a loop that does not return comes to a turn from which the
measure stays what it is, for ever. -/
theorem stalls_of_not_terminates {I : σ → Prop} (m : σ → Nat)
    (hnext : ∀ s t, I s → body s = .next t → I t ∧ m t ≤ m s) (hs : I s)
    (h : ¬ Terminates body s) :
    ∃ t, Steps body s t ∧ I t ∧ ∀ u, Steps body t u → m u = m t ∧ ∃ v, body u = .next v := by
  obtain ⟨t, ht, hmin⟩ := WellFounded.has_min (measure m).wf {t | Steps body s t} ⟨s, .refl⟩
  have hI : ∀ {s t}, I s → Steps body s t → I t ∧ m t ≤ m s := by
    intro s t hs hst
    induction hst with
    | refl => exact ⟨hs, Nat.le_refl _⟩
    | tail _ hlast ih =>
      obtain ⟨hkept, hle⟩ := hnext _ _ ih.1 hlast
      exact ⟨hkept, Nat.le_trans hle ih.2⟩
  refine ⟨t, ht, (hI hs ht).1, fun u hu => ⟨?_, ?_⟩⟩
  · have hle := (hI (hI hs ht).1 hu).2
    exact Nat.le_antisymm hle (Nat.not_lt.mp (hmin u (ht.trans hu)))
  · exact exists_next_of_not_terminates h (ht.trans hu)

end Verif
