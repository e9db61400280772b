import Mathlib.Data.List.Nodup
import ProjectE.Lib.Protocol

/-!
# Custody of handles

A handle is obtained, used, and released; it may be obtained again later. The record of all that
happened, each event with its handle, follows the protocol if nothing is done with a handle while
nobody has it (`phase`).

A handle is released by an attempt, which uses it and then releases it or fails, and an owner may
make several attempts in a row. They release the handle and do nothing after that exactly if the
last of them, and no other, succeeds (`run_attempts_iff`); an owner who makes attempts on a handle
and keeps it still has it exactly if all of them fail (`run_attempts_held_iff`).

Over a whole record: `Settled` says that the handles held are those that have an owner, `Broken`
that the protocol was left, that a handle is held which nobody owns, or that one is owned which
nobody holds. One step, which obtains some handles, makes attempts on others and drops a third kind
(`Transfer`), keeps a settled record settled exactly if it drops nothing and its attempts are right,
and a step that takes no handle from its owner without a word mends no broken one.
-/

namespace Verif.Custody

open Protocol

universe u

variable {ι : Type u} [DecidableEq ι]

/-- What is done with a resource. -/
inductive Event where
  | obtained
  | used
  | released
deriving DecidableEq, Repr

/-- Whether a resource is in somebody's hands. -/
inductive Phase where
  | free
  | held
deriving DecidableEq, Repr

/-- What may be done: a free resource is obtained, and one that is held is used or released.
Everything else is a mistake. -/
def next : Phase → Event → Option Phase
  | .free, .obtained => some .held
  | .held, .used => some .held
  | .held, .released => some .free
  | _, _ => none

/-- One attempt to release a handle. -/
def attempt (ok : Bool) : List Event := .used :: if ok then [.released] else []

/-- The last attempt, and no other, succeeds. -/
def onlyLast : List Bool → Bool
  | [] => false
  | ok :: oks => if oks = [] then ok else !ok && onlyLast oks

/-- The attempts do what is meant: those on a handle that is kept all fail, and of those on another
only the last succeeds. -/
def right (keep : Bool) (oks : List Bool) : Bool := if keep then oks.all (!·) else onlyLast oks

/-- Nothing can be attempted on a handle that nobody has. -/
theorem run_attempts_free : ∀ oks : List Bool,
    run next .free (oks.flatMap attempt) = some .free ↔ oks = []
  | [] => by simp
  | ok :: oks => by simp [attempt, next]

/-- Attempts in a row release the handle, and use it no more after that, exactly if the last of them
is the one that succeeds. -/
theorem run_attempts_iff (oks : List Bool) :
    run next .held (oks.flatMap attempt) = some .free ↔ onlyLast oks = true := by
  induction oks with
  | nil => simp [onlyLast]
  | cons ok oks ih =>
    cases ok with
    | true =>
      have hrun : run next .held ((true :: oks).flatMap attempt) =
          run next .free (oks.flatMap attempt) := by
        simp [attempt, next]
      rw [hrun, run_attempts_free]
      simp [onlyLast]
    | false =>
      have hrun : run next .held ((false :: oks).flatMap attempt) =
          run next .held (oks.flatMap attempt) := by
        simp [attempt, next]
      rw [hrun, ih]
      cases oks <;> simp [onlyLast]

/-- After attempts in a row the handle is still held exactly if all of them failed. -/
theorem run_attempts_held_iff (oks : List Bool) :
    run next .held (oks.flatMap attempt) = some .held ↔ oks.all (!·) = true := by
  induction oks with
  | nil => simp
  | cons ok oks ih =>
    cases ok with
    | true =>
      have hrun : run next .held ((true :: oks).flatMap attempt) =
          run next .free (oks.flatMap attempt) := by
        simp [attempt, next]
      rw [hrun]
      cases oks <;> simp [attempt, next]
    | false =>
      have hrun : run next .held ((false :: oks).flatMap attempt) =
          run next .held (oks.flatMap attempt) := by
        simp [attempt, next]
      rw [hrun, ih]
      simp

/-- Attempts are right exactly if the handle is held after them where it is kept, and free where it
is not. -/
theorem run_attempts_right_iff (keep : Bool) (oks : List Bool) :
    run next .held (oks.flatMap attempt) = some (if keep then .held else .free) ↔
      right keep oks = true := by
  cases keep with
  | true => exact run_attempts_held_iff oks
  | false => exact run_attempts_iff oks

/-! ## Records -/

/-- The phase of a handle after what is on record, if everything was allowed. -/
def phase (log : List (Event × ι)) (i : ι) : Option Phase := run next .free (eventsOf i log)

/-- What a step puts on record: it obtains handles, and then makes attempts, `oks` saying which of
them succeed. -/
def made (obtained closes : List ι) (oks : List Bool) : List (Event × ι) :=
  obtained.map (fun i => (.obtained, i)) ++
    (oks.zip closes).flatMap fun a => (attempt a.1).map fun e => (e, a.2)

variable {i : ι} {log : List (Event × ι)} {obtained closes lost kept : List ι} {oks : List Bool}

theorem eventsOf_obtained (obtained : List ι) :
    eventsOf i (obtained.map fun j => (Event.obtained, j)) =
      List.replicate (obtained.count i) .obtained := by
  induction obtained with
  | nil => rfl
  | cons j obtained ih =>
    rw [List.map_cons]
    by_cases h : j = i
    · subst h
      rw [eventsOf_cons_self, ih, List.count_cons_self, List.replicate_succ]
    · rw [eventsOf_cons_ne h, ih, List.count_cons_of_ne h]

theorem eventsOf_attempts (attempts : List (Bool × ι)) :
    eventsOf i (attempts.flatMap fun a => (attempt a.1).map fun e => (e, a.2)) =
      (eventsOf i attempts).flatMap attempt := by
  induction attempts with
  | nil => rfl
  | cons a attempts ih =>
    obtain ⟨ok, j⟩ := a
    rw [List.flatMap_cons, eventsOf_append, ih]
    by_cases h : j = i
    · subst h
      rw [eventsOf_cons_self, List.flatMap_cons]
      cases ok <;> simp [attempt]
    · rw [eventsOf_cons_ne h]
      cases ok <;> simp [attempt, eventsOf_cons_ne h]

theorem eventsOf_made : eventsOf i (made obtained closes oks) =
    List.replicate (obtained.count i) .obtained ++
      (eventsOf i (oks.zip closes)).flatMap attempt := by
  rw [made, eventsOf_append, eventsOf_obtained, eventsOf_attempts]

theorem eventsOf_zip_of_not_mem (h : i ∉ closes) : eventsOf i (oks.zip closes) = [] := by
  apply List.eq_nil_iff_forall_not_mem.mpr
  intro ok hok
  exact h (List.of_mem_zip (mem_eventsOf.mp hok)).2

theorem phase_append (log log' : List (Event × ι)) (i : ι) :
    phase (log ++ log') i = (phase log i).bind fun p => run next p (eventsOf i log') := by
  rw [phase, eventsOf_append, run_append]
  rfl

/-- What a step does to a handle, in order. -/
theorem phase_made {p : Phase} (h : phase log i = some p) :
    phase (log ++ made obtained closes oks) i =
      (run next p (List.replicate (obtained.count i) .obtained)).bind fun q =>
        run next q ((eventsOf i (oks.zip closes)).flatMap attempt) := by
  rw [phase_append, h, eventsOf_made, Option.bind_some, run_append]

/-- A handle that a step neither obtains nor attempts to release. -/
theorem phase_made_of_not_mem (hobtained : i ∉ obtained) (hcloses : i ∉ closes) :
    phase (log ++ made obtained closes oks) i = phase log i := by
  rw [phase_append, eventsOf_made, eventsOf_zip_of_not_mem hcloses,
    List.count_eq_zero_of_not_mem hobtained]
  cases phase log i <;> rfl

/-- What was not allowed stays so. -/
theorem phase_append_of_none {log' : List (Event × ι)} (h : phase log i = none) :
    phase (log ++ log') i = none := by
  rw [phase_append, h]
  rfl

/-- The handles held are those that have an owner. -/
def Settled (log : List (Event × ι)) (owned : ι → Prop) : Prop :=
  ∀ i, (owned i → phase log i = some .held) ∧ (¬ owned i → phase log i = some .free)

/-- The protocol was left, a handle is held that nobody owns, or one is owned that nobody holds. -/
def Broken (log : List (Event × ι)) (owned : ι → Prop) : Prop :=
  ∃ i, phase log i = none ∨ phase log i = some .held ∧ ¬ owned i ∨
    phase log i = some .free ∧ owned i

/-- How owners change in one step. A handle on which attempts are made has no owner after that,
unless it is among those that are `kept`. -/
structure Transfer (owned owned' : ι → Prop) (obtained lost closes kept : List ι) : Prop where
  nodup : obtained.Nodup
  fresh : ∀ i ∈ obtained, ¬ owned i
  dropped : ∀ i ∈ lost, (owned i ∨ i ∈ obtained) ∧ ¬ owned' i ∧ i ∉ closes
  closed : ∀ i ∈ closes, (owned i ∨ i ∈ obtained) ∧ (owned' i ↔ i ∈ kept)
  held : ∀ i, owned i → i ∉ closes → i ∉ lost → owned' i
  gained : ∀ i ∈ obtained, i ∉ closes → i ∉ lost → owned' i
  within : ∀ i, owned' i → owned i ∨ i ∈ obtained

/-- The attempts on a handle are right, for every handle on which any are made. -/
def ClosesRight (closes kept : List ι) (oks : List Bool) : Prop :=
  ∀ i ∈ closes, right (decide (i ∈ kept)) (eventsOf i (oks.zip closes)) = true

instance (closes kept : List ι) (oks : List Bool) : Decidable (ClosesRight closes kept oks) :=
  inferInstanceAs (Decidable (∀ i ∈ closes, _))

variable {owned owned' : ι → Prop}

/-- A handle that a step obtains and does not close is held. -/
theorem Transfer.phase_obtained (h : Transfer owned owned' obtained lost closes kept)
    (hs : Settled log owned) (hobtained : i ∈ obtained) (hi : i ∉ closes) :
    phase (log ++ made obtained closes oks) i = some .held := by
  rw [phase_made ((hs i).2 (h.fresh i hobtained)), eventsOf_zip_of_not_mem hi,
    List.count_eq_one_of_mem h.nodup hobtained]
  rfl

/-- The phase of a handle on which attempts are made: it had an owner, or was just obtained. -/
theorem Transfer.phase_closed (h : Transfer owned owned' obtained lost closes kept)
    (hs : Settled log owned) (hi : i ∈ closes) :
    phase (log ++ made obtained closes oks) i =
      run next .held ((eventsOf i (oks.zip closes)).flatMap attempt) := by
  rcases (h.closed i hi).1 with howned | hobtained
  · have hnot : i ∉ obtained := fun hobtained => h.fresh i hobtained howned
    rw [phase_made ((hs i).1 howned), List.count_eq_zero_of_not_mem hnot]
    rfl
  · rw [phase_made ((hs i).2 (h.fresh i hobtained)), List.count_eq_one_of_mem h.nodup hobtained]
    rfl

theorem Settled.transfer (hs : Settled log owned)
    (h : Transfer owned owned' obtained lost closes kept) (hlost : lost = [])
    (hcloses : ClosesRight closes kept oks) :
    Settled (log ++ made obtained closes oks) owned' := by
  subst hlost
  intro i
  by_cases hi : i ∈ closes
  · have hphase : phase (log ++ made obtained closes oks) i =
        some (if decide (i ∈ kept) then .held else .free) := by
      rw [h.phase_closed hs hi, run_attempts_right_iff]
      exact hcloses i hi
    have hkept := (h.closed i hi).2
    constructor
    · intro howned
      rw [hphase, if_pos (decide_eq_true (hkept.mp howned))]
    · intro hnot
      rw [hphase, if_neg (by simpa using mt hkept.mpr hnot)]
  · by_cases hobtained : i ∈ obtained
    · exact ⟨fun _ => h.phase_obtained hs hobtained hi,
        fun hnot => absurd (h.gained i hobtained hi List.not_mem_nil) hnot⟩
    · rw [phase_made_of_not_mem hobtained hi]
      refine ⟨fun howned => (hs i).1 ?_, fun hnot => (hs i).2 ?_⟩
      · exact (h.within i howned).resolve_right hobtained
      · intro howned
        exact hnot (h.held i howned hi List.not_mem_nil)

/-- A step that drops a handle, or whose attempts are wrong, breaks the record. -/
theorem Settled.broken (hs : Settled log owned)
    (h : Transfer owned owned' obtained lost closes kept)
    (hwrong : ¬ (lost = [] ∧ ClosesRight closes kept oks)) :
    Broken (log ++ made obtained closes oks) owned' := by
  by_cases hlost : lost = []
  · have hcloses : ¬ ClosesRight closes kept oks := fun hright => hwrong ⟨hlost, hright⟩
    simp only [ClosesRight, not_forall] at hcloses
    obtain ⟨i, hi, hattempts⟩ := hcloses
    have hphase : phase (log ++ made obtained closes oks) i ≠
        some (if decide (i ∈ kept) then .held else .free) := by
      rw [h.phase_closed hs hi]
      exact mt (run_attempts_right_iff _ _).mp hattempts
    have hkept := (h.closed i hi).2
    refine ⟨i, ?_⟩
    cases hcase : phase (log ++ made obtained closes oks) i with
    | none => exact .inl rfl
    | some p =>
      rw [hcase] at hphase
      cases p with
      | free =>
        refine .inr (.inr ⟨rfl, hkept.mpr ?_⟩)
        by_contra hnot
        exact hphase (by simp [hnot])
      | held =>
        refine .inr (.inl ⟨rfl, fun howned => ?_⟩)
        exact hphase (by simp [hkept.mp howned])
  · obtain ⟨i, hi⟩ := List.exists_mem_of_ne_nil _ hlost
    obtain ⟨hhad, hnot, hcloses⟩ := h.dropped i hi
    refine ⟨i, .inr (.inl ⟨?_, hnot⟩)⟩
    by_cases hobtained : i ∈ obtained
    · exact h.phase_obtained hs hobtained hcloses
    · rw [phase_made_of_not_mem hobtained hcloses]
      exact (hs i).1 (hhad.resolve_right hobtained)

/-- On a handle that is closed at least one attempt is made. -/
theorem eventsOf_zip_ne_nil (hlength : oks.length = closes.length) (hi : i ∈ closes) :
    eventsOf i (oks.zip closes) ≠ [] := by
  obtain ⟨k, hk, rfl⟩ := List.mem_iff_getElem.mp hi
  have hmem : (oks[k], closes[k]) ∈ oks.zip closes := by
    rw [List.mem_iff_getElem]
    refine ⟨k, by simp only [List.length_zip]; omega, ?_⟩
    rw [List.getElem_zip]
  exact List.ne_nil_of_mem (mem_eventsOf.mpr hmem)

/-- Nothing mends a broken record, as long as a handle that is held is not obtained anew and no
owner loses a handle without a word. -/
theorem Broken.transfer (hb : Broken log owned)
    (h : Transfer owned owned' obtained lost closes kept)
    (hlength : oks.length = closes.length) (hlost : ∀ i ∈ lost, ¬ owned i)
    (hunused : ∀ i ∈ obtained, phase log i ≠ some .held) :
    Broken (log ++ made obtained closes oks) owned' := by
  obtain ⟨i, hnone | ⟨hheld, hnot⟩ | ⟨hfree, howned⟩⟩ := hb
  · exact ⟨i, .inl (phase_append_of_none hnone)⟩
  · have hobtained : i ∉ obtained := fun hobtained => hunused i hobtained hheld
    have hcloses : i ∉ closes := by
      intro hi
      rcases (h.closed i hi).1 with howned | hmem
      · exact hnot howned
      · exact hobtained hmem
    refine ⟨i, .inr (.inl ⟨?_, ?_⟩)⟩
    · rw [phase_made_of_not_mem hobtained hcloses, hheld]
    · intro howned
      rcases h.within i howned with hold | hmem
      · exact hnot hold
      · exact hobtained hmem
  · have hobtained : i ∉ obtained := fun hobtained => h.fresh i hobtained howned
    by_cases hcloses : i ∈ closes
    · refine ⟨i, .inl ?_⟩
      rw [phase_made hfree, List.count_eq_zero_of_not_mem hobtained]
      obtain ⟨ok, oks', hattempts⟩ :=
        List.exists_cons_of_ne_nil (eventsOf_zip_ne_nil hlength hcloses)
      rw [hattempts]
      simp [attempt, next]
    · refine ⟨i, .inr (.inr ⟨?_, ?_⟩)⟩
      · rw [phase_made_of_not_mem hobtained hcloses, hfree]
      · exact h.held i howned hcloses fun hi => hlost i hi howned

end Verif.Custody
