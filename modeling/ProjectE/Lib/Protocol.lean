import Mathlib.Data.List.Basic

/-!
# Protocols of events

A protocol is a partial automaton: from a phase, an event leads to a phase or is not allowed. A
sequence of events follows it from a phase if every event of it is allowed where it comes (`run`).

What is allowed stays allowed in part: a sequence that was cut short still follows the protocol
(`run_left`), and so does one from which an event that changes no phase was dropped (`run_drop`).
Where the events of several things come in one sequence, each with the name of its thing,
`eventsOf` picks those of one.
-/

namespace Verif.Protocol

universe u v w

variable {σ : Type u} {κ : Type v} {ι : Type w}

/-- The phase a sequence of events leads to, if every one of them is allowed. -/
def run (next : σ → κ → Option σ) (p : σ) (events : List κ) : Option σ := events.foldlM next p

section Run

variable {next : σ → κ → Option σ} {p q : σ}

@[simp] theorem run_nil : run next p [] = some p := rfl

@[simp] theorem run_cons (k : κ) (l : List κ) :
    run next p (k :: l) = (next p k).bind fun r => run next r l := rfl

/-- A sequence in two parts leads where the second part leads from where the first one does. -/
theorem run_append (l l' : List κ) :
    run next p (l ++ l') = (run next p l).bind fun r => run next r l' :=
  List.foldlM_append

/-- One more event at the end. -/
@[simp] theorem run_concat (l : List κ) (k : κ) :
    run next p (l ++ [k]) = (run next p l).bind fun r => next r k := by
  rw [run_append]
  congr 1
  funext r
  rw [run_cons]
  exact Option.bind_fun_some _

/-- A sequence that was cut short follows the protocol. -/
theorem run_left {l l' : List κ} (h : run next p (l ++ l') = some q) :
    ∃ r, run next p l = some r := by
  rw [run_append] at h
  obtain ⟨r, hr, -⟩ := Option.bind_eq_some_iff.mp h
  exact ⟨r, hr⟩

/-- An event that changes no phase can be dropped. -/
theorem run_drop {k : κ} (hk : ∀ p q, next p k = some q → q = p) {l l' : List κ}
    (h : run next p (l ++ k :: l') = some q) : run next p (l ++ l') = some q := by
  rw [run_append] at h ⊢
  obtain ⟨r, hr, hrest⟩ := Option.bind_eq_some_iff.mp h
  rw [run_cons] at hrest
  obtain ⟨r', hr', hrest⟩ := Option.bind_eq_some_iff.mp hrest
  cases hk r r' hr'
  rw [hr]
  exact hrest

end Run

section EventsOf

variable [DecidableEq ι]

/-- The events of one thing, in order. -/
def eventsOf (i : ι) (l : List (κ × ι)) : List κ := (l.filter fun e => e.2 = i).map (·.1)

variable {i j : ι}

@[simp] theorem eventsOf_nil : eventsOf i ([] : List (κ × ι)) = [] := rfl

@[simp] theorem eventsOf_append (l l' : List (κ × ι)) :
    eventsOf i (l ++ l') = eventsOf i l ++ eventsOf i l' := by
  unfold eventsOf
  rw [List.filter_append, List.map_append]

@[simp] theorem eventsOf_cons_self (k : κ) (l : List (κ × ι)) :
    eventsOf i ((k, i) :: l) = k :: eventsOf i l := by
  unfold eventsOf
  rw [List.filter_cons_of_pos (by simp), List.map_cons]

theorem eventsOf_cons_ne (h : j ≠ i) (k : κ) (l : List (κ × ι)) :
    eventsOf i ((k, j) :: l) = eventsOf i l := by
  unfold eventsOf
  rw [List.filter_cons_of_neg (by simpa using h)]

/-- The events of a thing are those recorded under its name. -/
theorem mem_eventsOf {k : κ} {l : List (κ × ι)} : k ∈ eventsOf i l ↔ (k, i) ∈ l := by
  unfold eventsOf
  constructor
  · intro h
    obtain ⟨⟨k', j⟩, hmem, rfl⟩ := List.mem_map.mp h
    obtain ⟨hmem, hj⟩ := List.mem_filter.mp hmem
    rw [decide_eq_true_eq] at hj
    rwa [← hj]
  · intro h
    exact List.mem_map.mpr ⟨(k, i), List.mem_filter.mpr ⟨h, by simp⟩, rfl⟩

end EventsOf

end Verif.Protocol
