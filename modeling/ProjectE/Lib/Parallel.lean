import ProjectE.Lib.Trace

/-!
# Threads that do not disturb each other

A thread is a list of events, and an event a step of a state that all threads share, which may fail.
If every event commutes with those of the other threads (`Commutes`), it does not matter how the
threads are mixed: they do to the state what they do one after the other, and fail where that fails
(`Interleaving.foldlM_eq`).
-/

namespace Verif

variable {σ E : Type*} {act : σ → E → Option σ} {a b : E}

/-- Two events do the same in either order. -/
def Commutes (act : σ → E → Option σ) (a b : E) : Prop :=
  ∀ s, ((act s a).bind fun t => act t b) = (act s b).bind fun t => act t a

theorem Commutes.symm (h : Commutes act a b) : Commutes act b a := fun s => (h s).symm

/-- An event that commutes with all events of a thread can as well come after it. -/
theorem foldlM_comm {l : List E} (h : ∀ b ∈ l, Commutes act a b) (s : σ) :
    ((act s a).bind fun t => l.foldlM act t) = (l.foldlM act s).bind fun t => act t a := by
  induction l generalizing s with
  | nil => exact Option.bind_fun_some (act s a)
  | cons b l ih =>
    obtain ⟨hb, hl⟩ := List.forall_mem_cons.mp h
    calc (act s a).bind (fun t => (b :: l).foldlM act t)
      _ = ((act s a).bind fun t => act t b).bind fun t => l.foldlM act t :=
        (Option.bind_assoc ..).symm
      _ = ((act s b).bind fun t => act t a).bind fun t => l.foldlM act t := by rw [hb s]
      _ = (act s b).bind fun t => (act t a).bind fun u => l.foldlM act u := Option.bind_assoc ..
      _ = (act s b).bind fun t => (l.foldlM act t).bind fun u => act u a := by simp only [ih hl]
      _ = ((b :: l).foldlM act s).bind fun t => act t a := (Option.bind_assoc ..).symm

/-- **Threads that do not disturb each other** do together what they do one after the other. -/
theorem Interleaving.foldlM_eq {threads : List (List E)} {trace : List E}
    (h : Interleaving threads trace)
    (hcomm : threads.Pairwise fun l l' => ∀ a ∈ l, ∀ b ∈ l', Commutes act a b) (s : σ) :
    trace.foldlM act s = threads.flatten.foldlM act s := by
  induction h generalizing s with
  | done h => rw [List.flatten_eq_nil_iff.mpr h]
  | @next threads i a rest trace hi _ ih =>
    obtain ⟨hthreads, hset⟩ := @eq_append_of_getElem? _ threads i (a :: rest) rest hi
    rw [hthreads] at hcomm
    obtain ⟨hbefore, hafter, hcross⟩ := List.pairwise_append.mp hcomm
    -- the threads in front of the one that makes the event
    have hfront : ∀ b ∈ (threads.take i).flatten, Commutes act a b := by
      intro b hb
      obtain ⟨l, hl, hb⟩ := List.mem_flatten.mp hb
      exact (hcross l hl _ List.mem_cons_self b hb a List.mem_cons_self).symm
    have hrest : (threads.set i rest).Pairwise fun l l' =>
        ∀ a ∈ l, ∀ b ∈ l', Commutes act a b := by
      rw [hset]
      obtain ⟨hown, hafter⟩ := List.pairwise_cons.mp hafter
      refine List.pairwise_append.mpr ⟨hbefore, List.pairwise_cons.mpr
        ⟨fun l hl b hb => hown l hl b (List.mem_cons_of_mem a hb), hafter⟩, fun l hl l' hl' => ?_⟩
      rcases List.mem_cons.mp hl' with rfl | hl'
      · exact fun c hc b hb => hcross l hl _ List.mem_cons_self c hc b (List.mem_cons_of_mem a hb)
      · exact hcross l hl l' (List.mem_cons_of_mem _ hl')
    calc (a :: trace).foldlM act s
      _ = (act s a).bind fun t => trace.foldlM act t := rfl
      _ = (act s a).bind fun t => (threads.set i rest).flatten.foldlM act t := by
        simp only [ih hrest]
      _ = ((act s a).bind fun t => (threads.take i).flatten.foldlM act t).bind fun t =>
          (rest ++ (threads.drop (i + 1)).flatten).foldlM act t := by
        simp only [hset, List.flatten_append, List.flatten_cons, List.foldlM_append,
          Option.bind_eq_bind, Option.bind_assoc]
      _ = ((threads.take i).flatten.foldlM act s).bind fun t =>
          (a :: (rest ++ (threads.drop (i + 1)).flatten)).foldlM act t := by
        rw [foldlM_comm hfront, Option.bind_assoc]
        rfl
      _ = threads.flatten.foldlM act s := by
        conv_rhs => rw [hthreads]
        simp only [List.flatten_append, List.flatten_cons, List.cons_append, List.foldlM_append,
          Option.bind_eq_bind]

end Verif
