import Mathlib.Data.List.Basic

/-!
# First in, first out

What a queue of values is for: from the empty queue, values are put in at one end, taken out at the
other, and now and then all thrown away (`Runs`). Every value put in is still there or gone, in the
order in which they came (`Runs.conserves`): the values taken out are, in that order, among the ones
gone, and are all of these if nothing was thrown away.
-/

namespace Verif.Fifo

universe u

variable {T : Type u}

/-- What is done to a queue. -/
inductive Move (T : Type u) where
  | push (value : T)
  | pop (value : T)
  | clear

/-- The queue that a sequence of moves leaves of the empty one. -/
inductive Runs : List (Move T) → List T → Prop
  | nil : Runs [] []
  | push {l : List (Move T)} {q : List T} {v : T} (h : Runs l q) :
      Runs (l ++ [.push v]) (q ++ [v])
  | pop {l : List (Move T)} {q : List T} {v : T} (h : Runs l (v :: q)) : Runs (l ++ [.pop v]) q
  | clear {l : List (Move T)} {q : List T} (h : Runs l q) : Runs (l ++ [.clear]) []

/-- The value put in, if one is. -/
def Move.push? : Move T → Option T
  | .push v => some v
  | _ => none

/-- The value taken out, if one is. -/
def Move.pop? : Move T → Option T
  | .pop v => some v
  | _ => none

/-- The values put in, in order. -/
def pushed (l : List (Move T)) : List T := l.filterMap Move.push?

/-- The values taken out, in order. -/
def popped (l : List (Move T)) : List T := l.filterMap Move.pop?

@[simp] theorem pushed_concat (l : List (Move T)) (m : Move T) :
    pushed (l ++ [m]) = pushed l ++ m.push?.toList := by
  cases m <;> simp [pushed, Move.push?]

@[simp] theorem popped_concat (l : List (Move T)) (m : Move T) :
    popped (l ++ [m]) = popped l ++ m.pop?.toList := by
  cases m <;> simp [popped, Move.pop?]

/-- What was put in is gone or still there, in order; what was taken out is gone, in order, and all
that is gone unless something was thrown away. -/
theorem Runs.conserves {l : List (Move T)} {q : List T} (h : Runs l q) :
    ∃ gone, pushed l = gone ++ q ∧ (popped l).Sublist gone ∧ (.clear ∉ l → popped l = gone) := by
  induction h with
  | nil => exact ⟨[], rfl, .slnil, fun _ => rfl⟩
  | @push l q v h ih =>
    obtain ⟨gone, hpushed, hsub, heq⟩ := ih
    refine ⟨gone, ?_, ?_, ?_⟩
    · simp [hpushed, Move.push?]
    · simpa [Move.pop?] using hsub
    · simpa [Move.pop?] using heq
  | @pop l q v h ih =>
    obtain ⟨gone, hpushed, hsub, heq⟩ := ih
    refine ⟨gone ++ [v], ?_, ?_, ?_⟩
    · simp [hpushed, Move.push?]
    · simpa [Move.pop?] using hsub.append (List.Sublist.refl [v])
    · intro hclear
      simp only [List.mem_append, not_or] at hclear
      simp [heq hclear.1, Move.pop?]
  | @clear l q h ih =>
    -- what was still there is gone now, and nobody has it
    obtain ⟨gone, hpushed, hsub, -⟩ := ih
    refine ⟨gone ++ q, ?_, ?_, ?_⟩
    · simp [hpushed, Move.push?]
    · simpa [Move.pop?] using hsub.trans (List.sublist_append_left gone q)
    · intro hclear
      simp at hclear

end Verif.Fifo
