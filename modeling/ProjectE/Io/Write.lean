import ProjectE.Lib.Loop
import ProjectE.Io.BufWriter

/-!
# Writers

`io::Write` is two virtual functions, `write` and `flush`, and what it makes of them: `write_all`
goes on writing the rest of a buffer until nothing is left, `write_str` does so with the bytes of a
string, and the two vectored functions take one buffer after the other. A writer is its state and
these two functions; each call of `write` fails or takes a front of what it is given.

`write_all` adds the count to what it has written and tests only that: a count of zero changes
nothing and is tried again. It returns for every writer but those that stall
(`writeAll_returns_iff`), and where it returns a success the writer took the buffer, in order
(`WriteAllLaw`).
-/

namespace ProjectE.Net

open Verif

/-- An `io::Write`: what its virtual functions answer, and the state they leave. -/
structure Writer (σ : Type) where
  write : σ → List UInt8 → Except ErrorCode Nat × σ
  flush : σ → Except ErrorCode Unit × σ
  /-- A write takes no more than it is given. -/
  count_le : ∀ s buf n, (write s buf).1 = .ok n → n ≤ buf.length

/-- `write_all` at the head of a turn: the writer, `total_written`, and the bytes it has taken. -/
structure Writing (σ : Type) where
  inner : σ
  totalWritten : Nat
  taken : List UInt8

/-- What a call that writes comes to: its answer, the writer, and the bytes it took, also where the
answer is an error. -/
structure Sent (σ α : Type) where
  answer : Except ErrorCode α
  inner : σ
  taken : List UInt8

namespace Writer

variable {σ : Type} (W : Writer σ)

/-- One turn of the loop of `write_all`. -/
def writeAllTurn (buf : List UInt8) (t : Writing σ) : Turn (Writing σ) (Sent σ Unit) :=
  if t.totalWritten < buf.length then
    match W.write t.inner (buf.drop t.totalWritten) with
    | (.error e, inner) => .done ⟨.error e, inner, t.taken⟩
    | (.ok n, inner) =>
      .next ⟨inner, t.totalWritten + n, t.taken ++ (buf.drop t.totalWritten).take n⟩
  else .done ⟨.ok (), t.inner, t.taken⟩

/-- `write_all` before its first turn. -/
def start (s : σ) : Writing σ := ⟨s, 0, []⟩

/-- `write_all`: what is left is offered again until it is all taken. A writer that takes nothing is
offered it for ever. -/
def writeAll (turns : Nat) (s : σ) (buf : List UInt8) : Option (Sent σ Unit) :=
  loop (W.writeAllTurn buf) turns (start s)

/-- `write_str`: a `char` is a byte. -/
def writeStr (turns : Nat) (s : σ) (str : List UInt8) : Option (Sent σ Unit) :=
  W.writeAll turns s str

/-- `write_vectored`: each buffer is offered once. -/
def writeVectored (s : σ) : List (List UInt8) → Sent σ Nat
  | [] => ⟨.ok 0, s, []⟩
  | buf :: bufs =>
    match W.write s buf with
    | (.error e, s) => ⟨.error e, s, []⟩
    | (.ok n, s) =>
      let rest := writeVectored s bufs
      ⟨rest.answer.map (n + ·), rest.inner, buf.take n ++ rest.taken⟩

/-- `write_all_vectored`: one `write_all` after the other; the first error ends it. -/
def writeAllVectored (turns : Nat) (s : σ) : List (List UInt8) → Option (Sent σ Unit)
  | [] => some ⟨.ok (), s, []⟩
  | buf :: bufs =>
    match W.writeAll turns s buf with
    | none => none
    | some ⟨.error e, s, taken⟩ => some ⟨.error e, s, taken⟩
    | some ⟨.ok (), s, taken⟩ =>
      (writeAllVectored turns s bufs).map fun rest => { rest with taken := taken ++ rest.taken }

/-- `write_all` returns an error, or a success once the writer took the whole buffer in order. -/
def WriteAllLaw (s : σ) (buf : List UInt8) : Prop :=
  ∃ turns out, W.writeAll turns s buf = some out ∧
    ((out.answer = .ok () ∧ out.taken = buf) ∨ ∃ e, out.answer = .error e)

/-- Offered these bytes, and after each count what the count leaves of them, the writer comes to
this state, and to these bytes. -/
inductive Offered (s : σ) (buf : List UInt8) : σ → List UInt8 → Prop
  | whole : Offered s buf s buf
  | again {s' : σ} {rest : List UInt8} {n : Nat} (h : Offered s buf s' rest)
      (hn : (W.write s' rest).1 = .ok n) : Offered s buf (W.write s' rest).2 (rest.drop n)

/-- The writer answers 0 to these bytes however often they are offered. -/
def Zeros (s : σ) (buf : List UInt8) : Prop :=
  ∀ i, (W.write ((fun s => (W.write s buf).2)^[i] s) buf).1 = .ok 0

/-- At some point bytes are left, and the writer answers 0 to them for ever. -/
def Stalls (s : σ) (buf : List UInt8) : Prop :=
  ∃ s' rest, W.Offered s buf s' rest ∧ rest ≠ [] ∧ W.Zeros s' rest

/-- At some point a part of the buffer is taken, and the writer fails. -/
def FailsPartway (s : σ) (buf : List UInt8) : Prop :=
  ∃ s' rest e, W.Offered s buf s' rest ∧ rest ≠ [] ∧ rest.length < buf.length ∧
    (W.write s' rest).1 = .error e

variable {W} {s : σ} {buf : List UInt8} {t u : Writing σ} {out : Sent σ Unit}

/-! ## One turn -/

/-- What is taken is the front of the buffer, as long as the count says. -/
structure Fronts (buf : List UInt8) (t : Writing σ) : Prop where
  taken_eq : t.taken = buf.take t.totalWritten
  written_le : t.totalWritten ≤ buf.length

theorem fronts_start (s : σ) (buf : List UInt8) : Fronts buf (start s) := ⟨rfl, Nat.zero_le _⟩

/-- A turn is followed by another where bytes are left and the writer answers a count. -/
theorem writeAllTurn_eq_next : W.writeAllTurn buf t = .next u ↔
    t.totalWritten < buf.length ∧ ∃ n, (W.write t.inner (buf.drop t.totalWritten)).1 = .ok n ∧
      u = ⟨(W.write t.inner (buf.drop t.totalWritten)).2, t.totalWritten + n,
        t.taken ++ (buf.drop t.totalWritten).take n⟩ := by
  unfold writeAllTurn
  split
  next hlt =>
    rcases W.write t.inner (buf.drop t.totalWritten) with ⟨answer, inner⟩
    cases answer with
    | error e => simp
    | ok n =>
      simp only [Turn.next.injEq, hlt, true_and, Except.ok.injEq, exists_eq_left']
      exact eq_comm
  next hge => simp [hge]

/-- The last turn: nothing is left, or the writer fails. -/
theorem writeAllTurn_eq_done (h : W.writeAllTurn buf t = .done out) : out.taken = t.taken ∧
    ((out.answer = .ok () ∧ buf.length ≤ t.totalWritten) ∨
      ∃ e, out.answer = .error e ∧ t.totalWritten < buf.length ∧
        (W.write t.inner (buf.drop t.totalWritten)).1 = .error e) := by
  unfold writeAllTurn at h
  split at h
  next hlt =>
    rcases hwrite : W.write t.inner (buf.drop t.totalWritten) with ⟨answer, inner⟩
    rw [hwrite] at h
    cases answer with
    | error e =>
      cases h
      exact ⟨rfl, .inr ⟨e, rfl, hlt, rfl⟩⟩
    | ok n => cases h
  next hge =>
    cases h
    exact ⟨rfl, .inl ⟨rfl, Nat.not_lt.mp hge⟩⟩

theorem Fronts.next (h : Fronts buf t) (hnext : W.writeAllTurn buf t = .next u) :
    Fronts buf u := by
  obtain ⟨-, n, hn, rfl⟩ := writeAllTurn_eq_next.mp hnext
  have hle := W.count_le _ _ n hn
  rw [List.length_drop] at hle
  have hwritten := h.written_le
  refine ⟨?_, ?_⟩
  · rw [h.taken_eq, List.take_add]
  · simp only
    omega

theorem Fronts.steps (h : Fronts buf t) (hsteps : Steps (W.writeAllTurn buf) t u) :
    Fronts buf u :=
  hsteps.rule (fun _ _ hI hnext => hI.next hnext) h

/-- The bytes left never grow in number. -/
theorem left_le (hnext : W.writeAllTurn buf t = .next u) :
    buf.length - u.totalWritten ≤ buf.length - t.totalWritten := by
  obtain ⟨-, n, -, rfl⟩ := writeAllTurn_eq_next.mp hnext
  exact Nat.sub_le_sub_left (Nat.le_add_right _ n) _

/-! ## What is returned -/

/-- Where `write_all` returns: the whole buffer was taken, or a front of it before a failure. -/
theorem writeAll_returns (h : Returns (W.writeAllTurn buf) (start s) out) :
    (out.answer = .ok () ∧ out.taken = buf) ∨ ∃ t e, Steps (W.writeAllTurn buf) (start s) t ∧
      out.answer = .error e ∧ out.taken = buf.take t.totalWritten ∧
      t.totalWritten < buf.length ∧
      (W.write t.inner (buf.drop t.totalWritten)).1 = .error e := by
  obtain ⟨t, ht, hlast⟩ := h.last
  obtain ⟨htaken, hwritten⟩ := (fronts_start s buf).steps ht
  obtain ⟨hout, hok | ⟨e, he, hlt, hwrite⟩⟩ := writeAllTurn_eq_done hlast
  · obtain ⟨hanswer, hge⟩ := hok
    exact .inl ⟨hanswer, by rw [hout, htaken, List.take_of_length_le hge]⟩
  · exact .inr ⟨t, e, ht, he, hout.trans htaken, hlt, hwrite⟩

/-- What is offered at the head of a turn. -/
theorem offered_of_steps (h : Steps (W.writeAllTurn buf) (start s) t) :
    W.Offered s buf t.inner (buf.drop t.totalWritten) := by
  induction h with
  | refl => exact .whole
  | tail _ hlast ih =>
    obtain ⟨-, n, hn, rfl⟩ := writeAllTurn_eq_next.mp hlast
    simpa only [List.drop_drop] using ih.again hn

/-- As long as bytes are left, what is offered is offered at the head of a turn. -/
theorem Offered.steps {s' : σ} {rest : List UInt8} (h : W.Offered s buf s' rest)
    (hrest : rest ≠ []) : ∃ t, Steps (W.writeAllTurn buf) (start s) t ∧ t.inner = s' ∧
      buf.drop t.totalWritten = rest ∧ t.totalWritten < buf.length := by
  induction h with
  | whole => exact ⟨start s, .refl, rfl, rfl, List.length_pos_of_ne_nil hrest⟩
  | @again s' rest n _ hn ih =>
    have hleft : rest ≠ [] := by
      rintro rfl
      exact hrest List.drop_nil
    obtain ⟨t, ht, rfl, rfl, hlt⟩ := ih hleft
    refine ⟨_, ht.trans (.next (writeAllTurn_eq_next.mpr ⟨hlt, n, hn, rfl⟩)), rfl, ?_, ?_⟩
    · exact List.drop_drop.symm
    · rw [List.drop_drop, ne_eq, List.drop_eq_nil_iff] at hrest
      exact Nat.lt_of_not_le hrest

/-- A writer that does not fail partway takes the whole buffer, or nothing before a failure. -/
theorem writeAll_whole_or_nothing (hfails : ¬ W.FailsPartway s buf)
    (h : Returns (W.writeAllTurn buf) (start s) out) :
    (out.answer = .ok () ∧ out.taken = buf) ∨ ∃ e, out.answer = .error e ∧ out.taken = [] := by
  rcases writeAll_returns h with hok | ⟨t, e, ht, he, htaken, hlt, hwrite⟩
  · exact .inl hok
  · refine .inr ⟨e, he, ?_⟩
    have hzero : t.totalWritten = 0 := by
      by_contra hne
      have hleft : (buf.drop t.totalWritten).length < buf.length := by
        rw [List.length_drop]
        omega
      have hrest : buf.drop t.totalWritten ≠ [] := by
        rw [ne_eq, List.drop_eq_nil_iff]
        omega
      exact hfails ⟨_, _, e, offered_of_steps ht, hrest, hleft, hwrite⟩
    rw [htaken, hzero, List.take_zero]

/-! ## Stalling -/

/-- While the writer answers 0 the turns repeat. -/
theorem Zeros.steps (hzeros : W.Zeros t.inner (buf.drop t.totalWritten))
    (hsteps : Steps (W.writeAllTurn buf) t u) :
    u.totalWritten = t.totalWritten ∧ ∃ i,
      u.inner = (fun s => (W.write s (buf.drop t.totalWritten)).2)^[i] t.inner := by
  induction hsteps with
  | refl => exact ⟨rfl, 0, rfl⟩
  | tail _ hlast ih =>
    obtain ⟨hwritten, i, hinner⟩ := ih
    obtain ⟨-, n, hn, rfl⟩ := writeAllTurn_eq_next.mp hlast
    rw [hwritten, hinner, hzeros i] at hn
    cases hn
    refine ⟨hwritten, i + 1, ?_⟩
    rw [Function.iterate_succ_apply', hwritten, hinner]

theorem Stalls.not_terminates (h : W.Stalls s buf) :
    ¬ Terminates (W.writeAllTurn buf) (start s) := by
  obtain ⟨s', rest, hoffered, hrest, hzeros⟩ := h
  obtain ⟨t, ht, rfl, rfl, hlt⟩ := hoffered.steps hrest
  rintro ⟨out, hout⟩
  refine not_terminates_of_steps (fun u hu => ?_) ⟨out, (returns_steps_iff ht).mp hout⟩
  obtain ⟨hwritten, i, hinner⟩ := hzeros.steps hu
  refine ⟨_, writeAllTurn_eq_next.mpr ⟨hwritten ▸ hlt, 0, ?_, rfl⟩⟩
  rw [hwritten, hinner]
  exact hzeros i

/-- From this turn on the count stays, and every turn is followed by another. -/
def Rests (W : Writer σ) (buf : List UInt8) (t : Writing σ) : Prop :=
  ∀ u, Steps (W.writeAllTurn buf) t u →
    buf.length - u.totalWritten = buf.length - t.totalWritten ∧
      ∃ v, W.writeAllTurn buf u = .next v

/-- A turn at rest: the writer answered 0. -/
theorem Rests.turn (hrest : W.Rests buf t) (hfronts : Fronts buf t)
    (hu : Steps (W.writeAllTurn buf) t u) (hwritten : u.totalWritten = t.totalWritten) :
    (W.write u.inner (buf.drop t.totalWritten)).1 = .ok 0 ∧
      ∃ v, Steps (W.writeAllTurn buf) t v ∧ v.totalWritten = t.totalWritten ∧
        v.inner = (W.write u.inner (buf.drop t.totalWritten)).2 := by
  obtain ⟨v, hv⟩ := (hrest u hu).2
  obtain ⟨hleft, -⟩ := hrest v (hu.trans (.next hv))
  have hle := ((hfronts.steps hu).next hv).written_le
  obtain ⟨-, n, hn, heq⟩ := writeAllTurn_eq_next.mp hv
  have hcount : v.totalWritten = t.totalWritten + n := by rw [heq, hwritten]
  have hzero : n = 0 := by omega
  rw [hwritten] at hn
  refine ⟨hzero ▸ hn, v, hu.trans (.next hv), by rw [hcount, hzero, Nat.add_zero], ?_⟩
  rw [heq, hwritten]

theorem Rests.zeros (hrest : W.Rests buf t) (hfronts : Fronts buf t) :
    W.Zeros t.inner (buf.drop t.totalWritten) := by
  intro i
  have hturn : ∃ u, Steps (W.writeAllTurn buf) t u ∧ u.totalWritten = t.totalWritten ∧
      u.inner = (fun s => (W.write s (buf.drop t.totalWritten)).2)^[i] t.inner := by
    induction i with
    | zero => exact ⟨t, .refl, rfl, rfl⟩
    | succ i ih =>
      obtain ⟨u, hu, hwritten, hinner⟩ := ih
      obtain ⟨-, v, hv, hvwritten, hvinner⟩ := hrest.turn hfronts hu hwritten
      refine ⟨v, hv, hvwritten, ?_⟩
      rw [hvinner, hinner, Function.iterate_succ_apply']
  obtain ⟨u, hu, hwritten, hinner⟩ := hturn
  rw [← hinner]
  exact (hrest.turn hfronts hu hwritten).1

/-- A writer that never lets `write_all` return stalls: the count comes to rest below the length,
and the writer answers 0 from then on. -/
theorem stalls_of_not_returns (h : ¬ Terminates (W.writeAllTurn buf) (start s)) :
    W.Stalls s buf := by
  obtain ⟨t, ht, hfronts, hrest⟩ := stalls_of_not_terminates
    (fun t : Writing σ => buf.length - t.totalWritten)
    (fun _ _ hI hnext => ⟨Fronts.next hI hnext, left_le hnext⟩) (fronts_start s buf) h
  obtain ⟨u, hu⟩ := exists_next_of_not_terminates h ht
  have hlt := (writeAllTurn_eq_next.mp hu).1
  refine ⟨_, _, offered_of_steps ht, ?_, Rests.zeros hrest hfronts⟩
  rw [ne_eq, List.drop_eq_nil_iff]
  exact Nat.not_le_of_lt hlt

/-- `write_all` returns, and as it should, for every writer that does not stall. -/
theorem writeAllLaw_iff (W : Writer σ) (s : σ) (buf : List UInt8) :
    W.WriteAllLaw s buf ↔ ¬ W.Stalls s buf := by
  constructor
  · rintro ⟨turns, out, hout, -⟩ hstalls
    exact hstalls.not_terminates ⟨out, turns, hout⟩
  · intro hstalls
    obtain ⟨out, turns, hout⟩ := not_not.mp (mt stalls_of_not_returns hstalls)
    refine ⟨turns, out, hout, ?_⟩
    rcases writeAll_returns ⟨turns, hout⟩ with hok | ⟨_, e, _, he, _⟩
    · exact .inl hok
    · exact .inr ⟨e, he⟩

/-! ## Several buffers -/

/-- A success of `write_all_vectored` means that every buffer was taken, one after the other. -/
theorem writeAllVectored_ok : ∀ {bufs : List (List UInt8)} {turns : Nat} {s : σ}
    {out : Sent σ Unit}, W.writeAllVectored turns s bufs = some out → out.answer = .ok () →
      out.taken = bufs.flatten
  | [], _, _, _, h, _ => by
    cases h
    rfl
  | buf :: bufs, turns, s, out, h, hok => by
    unfold writeAllVectored at h
    rcases hwrite : W.writeAll turns s buf with _ | ⟨answer, s', taken⟩
    · rw [hwrite] at h
      cases h
    · rw [hwrite] at h
      cases answer with
      | error e =>
        cases h
        cases hok
      | ok u =>
        obtain ⟨rest, hrest, rfl⟩ := Option.map_eq_some_iff.mp h
        have hbuf : taken = buf := by
          rcases writeAll_returns ⟨turns, hwrite⟩ with ⟨-, htaken⟩ | ⟨_, _, _, he, _⟩
          · exact htaken
          · cases he
        simp only [hbuf, writeAllVectored_ok hrest hok, List.flatten_cons]

end Writer

end ProjectE.Net
