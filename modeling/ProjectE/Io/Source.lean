import ProjectE.Io.Read

/-!
# Sources of bytes

A source is a reader that never fails: it has a finite string of bytes left, gives a front of it,
and gives at least one byte while it has one and there is room. How much it gives each time is its
own affair.

Over a source the three combinators that `io::Read` makes of `read` are measured against what they
are for. `read_to_end` reads into the bytes the buffer already has, so it counts what it reads and
keeps none of it, and an empty buffer ends it at once (`readToEnd_counts`); `read_to_string` starts
from an empty vector and appends nothing. `read_vectored` goes by the caller's `bytesRead`
(`combinators_account_iff`).
-/

namespace ProjectE.Net

open Verif

/-- A reader of a finite byte stream, in chunks of any size: what it gives is the front of what it
has left, and it gives something as long as there is something and room for it. -/
structure Source (σ : Type) where
  rest : σ → List UInt8
  give : σ → Nat → List UInt8 × σ
  length_le : ∀ s space, (give s space).1.length ≤ space
  rest_eq : ∀ s space, rest s = (give s space).1 ++ rest (give s space).2
  give_ne_nil : ∀ s space, 0 < space → rest s ≠ [] → (give s space).1 ≠ []

/-- What is to become of buffers: the bytes placed, the source and the buffers afterwards, and how
many of the buffers were come to. -/
structure Placement (σ : Type) where
  placed : Nat
  source : σ
  bufs : List (List UInt8)
  visited : Nat

namespace Source

variable {σ : Type} (S : Source σ)

/-- A source as a reader: it never fails, and gives nothing only at its end, or where there is no
space. -/
def reader : Reader σ where
  read s space := (.ok (S.give s space).1, (S.give s space).2)
  length_le s space _ h := by
    cases h
    exact S.length_le s space

/-- Buffers filled in order, up to the first that the source does not fill. -/
def place (s : σ) : List (List UInt8) → Placement σ
  | [] => ⟨0, s, [], 0⟩
  | buf :: bufs =>
    let (bs, s) := S.give s buf.length
    if bs.length < buf.length then ⟨bs.length, s, overwrite buf 0 bs :: bufs, 1⟩
    else
      let rest := place s bufs
      ⟨bs.length + rest.placed, rest.source, overwrite buf 0 bs :: rest.bufs, rest.visited + 1⟩

/-- `read_to_end` appends the whole stream and answers how much that was. -/
def ToEndLaw (s : σ) (buf : List UInt8) : Prop :=
  ∃ turns out, S.reader.readToEnd turns s buf = some out ∧ out.buf = buf ++ S.rest s ∧
    out.answer = .ok (S.rest s).length

/-- `read_to_string` appends the whole stream and answers how much that was. -/
def ToStringLaw (s : σ) (str : List UInt8) : Prop :=
  ∃ turns out, S.reader.readToString turns s str = some out ∧ out.buf = str ++ S.rest s ∧
    out.answer = .ok (S.rest s).length

/-- `read_vectored` fills the buffers in order, stops at the first that is not filled, and answers
how many bytes it placed. -/
def VectoredLaw (bytesRead : UInt64) (s : σ) (bufs : List (List UInt8)) : Prop :=
  S.reader.readVectored bytesRead s bufs =
    ⟨.ok (S.place s bufs).placed, (S.place s bufs).source, (S.place s bufs).bufs,
      (S.place s bufs).visited⟩

/-- How many buffers there are up to the first that is longer than this. -/
def untilLonger (bytesRead : Nat) : List (List UInt8) → Nat
  | [] => 0
  | buf :: bufs => if bytesRead < buf.length then 1 else untilLonger bytesRead bufs + 1

/-- The first buffer longer than `bytesRead` is the first that the source does not fill, and
`bytesRead` once for each buffer up to there is the number of bytes placed. -/
structure Agrees (bytesRead : UInt64) (s : σ) (bufs : List (List UInt8)) : Prop where
  visited_eq : untilLonger bytesRead.toNat bufs = (S.place s bufs).visited
  placed_eq : (S.place s bufs).visited * bytesRead.toNat % 2 ^ 64 = (S.place s bufs).placed

variable {S} {s : σ} {buf : List UInt8}

/-! ## To the end -/

/-- A turn is followed by another where the source gives a byte. -/
theorem readToEndTurn_eq_next {t u : Reading σ} (h : S.reader.readToEndTurn t = .next u) :
    (S.give t.reader t.buf.length).1 ≠ [] ∧
      u = ⟨(S.give t.reader t.buf.length).2,
        addSize t.totalBytesRead (S.give t.reader t.buf.length).1.length,
        overwrite t.buf 0 (S.give t.reader t.buf.length).1,
        t.got ++ (S.give t.reader t.buf.length).1⟩ := by
  simp only [Reader.readToEndTurn, reader] at h
  split at h
  next => cases h
  next hpos =>
    cases h
    exact ⟨fun hnil => hpos (List.length_eq_zero_iff.mpr hnil), rfl⟩

/-- The last turn: the source gives nothing. -/
theorem readToEndTurn_eq_done {t : Reading σ} {out : Received σ Nat}
    (h : S.reader.readToEndTurn t = .done out) :
    (S.give t.reader t.buf.length).1 = [] ∧ out.answer = .ok t.totalBytesRead ∧
      out.buf = t.buf ∧ out.got = t.got := by
  simp only [Reader.readToEndTurn, reader] at h
  split at h
  next hzero =>
    cases h
    exact ⟨List.length_eq_zero_iff.mp hzero, rfl, rfl, rfl⟩
  next => cases h

/-- The stream is what was given and what is left; the buffer keeps its size, and the count is that
of the bytes given. -/
structure Draining (S : Source σ) (s : σ) (size : Nat) (t : Reading σ) : Prop where
  length_eq : t.buf.length = size
  stream : S.rest s = t.got ++ S.rest t.reader
  count : t.totalBytesRead = t.got.length % sizeBound

theorem draining_start (s : σ) (buf : List UInt8) :
    S.Draining s buf.length (Reader.start s buf) :=
  ⟨rfl, rfl, rfl⟩

theorem Draining.next {size : Nat} {t u : Reading σ} (h : S.Draining s size t)
    (hnext : S.reader.readToEndTurn t = .next u) :
    S.Draining s size u ∧ (S.rest u.reader).length < (S.rest t.reader).length := by
  obtain ⟨hne, rfl⟩ := readToEndTurn_eq_next hnext
  have hroom := S.length_le t.reader t.buf.length
  have hrest := S.rest_eq t.reader t.buf.length
  have hpos := List.length_pos_of_ne_nil hne
  refine ⟨⟨?_, ?_, ?_⟩, ?_⟩
  · rw [length_overwrite (by omega), h.length_eq]
  · rw [h.stream, List.append_assoc, ← hrest]
  · rw [h.count, List.length_append, addSize, Nat.mod_add_mod]
  · simp only
    rw [hrest, List.length_append]
    omega

/-- A source that gives nothing where there is room has given everything. -/
theorem Draining.got_eq {size : Nat} {t : Reading σ} (h : S.Draining s size t) (hpos : 0 < size)
    (hnone : (S.give t.reader t.buf.length).1 = []) : t.got = S.rest s := by
  have hroom : 0 < t.buf.length := by
    rw [h.length_eq]
    exact hpos
  have hempty : S.rest t.reader = [] := by
    by_contra hleft
    exact S.give_ne_nil t.reader t.buf.length hroom hleft hnone
  rw [h.stream, hempty, List.append_nil]

/-- A span without room is given nothing: no turn is followed by another. -/
theorem readToEndTurn_ne_next (s : σ) (u : Reading σ) :
    S.reader.readToEndTurn (Reader.start s []) ≠ .next u := by
  intro hnext
  have hroom := S.length_le s 0
  rw [Nat.le_zero, List.length_eq_zero_iff] at hroom
  exact (readToEndTurn_eq_next hnext).1 hroom

/-- `read_to_end` ends on every source. It answers the number of bytes that it read, modulo the
width of a `std::size_t`: all of them where the buffer has room for one, none of them otherwise.
The buffer keeps its size. -/
theorem readToEnd_counts (S : Source σ) (s : σ) (buf : List UInt8) :
    ∃ turns out, S.reader.readToEnd turns s buf = some out ∧ out.buf.length = buf.length ∧
      out.got = (if buf = [] then [] else S.rest s) ∧
      out.answer = .ok (out.got.length % 2 ^ 64) := by
  have hterm : Terminates S.reader.readToEndTurn (Reader.start s buf) :=
    terminates_of_measure (fun t => (S.rest t.reader).length)
      (fun _ _ hdrain hnext => Draining.next hdrain hnext) (draining_start s buf)
  obtain ⟨out, turns, hout⟩ := hterm
  have hreturns : Returns S.reader.readToEndTurn (Reader.start s buf) out := ⟨turns, hout⟩
  obtain ⟨t, ht, hlast⟩ := hreturns.last
  have hdrain : S.Draining s buf.length t :=
    ht.rule (fun _ _ hd hnext => (hd.next hnext).1) (draining_start s buf)
  obtain ⟨hnone, hanswer, hbuf, hgot⟩ := readToEndTurn_eq_done hlast
  refine ⟨turns, out, hout, ?_, ?_, ?_⟩
  · rw [hbuf, hdrain.length_eq]
  · rw [hgot]
    split
    next hnil =>
      rw [hnil] at ht
      rcases Relation.ReflTransGen.cases_head ht with hstart | ⟨u, hu, -⟩
      · rw [← hstart]
        rfl
      · exact absurd hu (readToEndTurn_ne_next s u)
    next hne => exact hdrain.got_eq (List.length_pos_of_ne_nil hne) hnone
  · rw [hanswer, hdrain.count, hgot]
    rfl

/-- A source without a byte left ends the call in its first turn. -/
theorem readToEnd_of_rest_eq_nil (hrest : S.rest s = []) (buf : List UInt8) :
    S.reader.readToEnd 1 s buf = some ⟨.ok 0, (S.give s buf.length).2, buf, []⟩ := by
  have hgive : (S.give s buf.length).1 = [] := by
    have heq := S.rest_eq s buf.length
    rw [hrest] at heq
    exact (List.append_eq_nil_iff.mp heq.symm).1
  simp only [Reader.readToEnd, loop, Reader.readToEndTurn, Reader.start, reader, hgive,
    List.length_nil, if_true]

/-- A buffer that keeps its size holds what it held and the stream only if the stream is empty. -/
theorem toEndLaw_iff (S : Source σ) (s : σ) (buf : List UInt8) :
    S.ToEndLaw s buf ↔ S.rest s = [] := by
  constructor
  · rintro ⟨turns, out, hout, hbuf, -⟩
    obtain ⟨turns', out', hout', hlength, -⟩ := readToEnd_counts S s buf
    have hsame : out = out' := Returns.unique ⟨turns, hout⟩ ⟨turns', hout'⟩
    rw [← hsame, hbuf, List.length_append] at hlength
    exact List.length_eq_zero_iff.mp (by omega)
  · intro hrest
    refine ⟨1, _, readToEnd_of_rest_eq_nil hrest buf, ?_, ?_⟩
    · rw [hrest, List.append_nil]
    · rw [hrest, List.length_nil]

/-- What goes behind the string is the empty vector. -/
theorem toStringLaw_iff (S : Source σ) (s : σ) (str : List UInt8) :
    S.ToStringLaw s str ↔ S.rest s = [] := by
  constructor
  · rintro ⟨turns, out, hout, hbuf, -⟩
    obtain ⟨read, hread, rfl⟩ := Option.map_eq_some_iff.mp hout
    obtain ⟨turns', out', hout', hlength, -, hanswer⟩ := readToEnd_counts S s []
    have hsame : read = out' := Returns.unique ⟨turns, hread⟩ ⟨turns', hout'⟩
    have hempty : read.buf = [] := List.length_eq_zero_iff.mp (hsame ▸ hlength)
    rw [← hsame] at hanswer
    simp only [hanswer, hempty, List.append_nil] at hbuf
    exact List.append_right_eq_self.mp hbuf.symm
  · intro hrest
    have hread := readToEnd_of_rest_eq_nil hrest []
    refine ⟨1, _, Option.map_eq_some_iff.mpr ⟨_, hread, rfl⟩, ?_, ?_⟩
    · rw [hrest]
    · rw [hrest, List.length_nil]

/-! ## Several buffers -/

theorem untilLonger_eq_zero_iff {bytesRead : Nat} {bufs : List (List UInt8)} :
    untilLonger bytesRead bufs = 0 ↔ bufs = [] := by
  cases bufs with
  | nil => exact ⟨fun _ => rfl, fun _ => rfl⟩
  | cons buf bufs =>
    simp only [untilLonger, reduceCtorEq, iff_false]
    split <;> omega

theorem visited_eq_zero_iff {bufs : List (List UInt8)} :
    (S.place s bufs).visited = 0 ↔ bufs = [] := by
  cases bufs with
  | nil => exact ⟨fun _ => rfl, fun _ => rfl⟩
  | cons buf bufs =>
    simp only [place, reduceCtorEq, iff_false]
    split
    next => exact Nat.one_ne_zero
    next => exact Nat.succ_ne_zero _

/-- What `read_vectored` answers over a source, and how often it reads, is a matter of the sizes of
the buffers alone. -/
theorem readVectoredFrom_counts (bytesRead : Nat) (s : σ) {total : Nat} (htotal : total < sizeBound)
    (bufs : List (List UInt8)) :
    (S.reader.readVectoredFrom bytesRead s total bufs).reads = untilLonger bytesRead bufs ∧
      (S.reader.readVectoredFrom bytesRead s total bufs).answer =
        .ok ((total + untilLonger bytesRead bufs * bytesRead) % sizeBound) := by
  induction bufs generalizing s total with
  | nil =>
    refine ⟨rfl, ?_⟩
    simp only [Reader.readVectoredFrom, untilLonger, Nat.zero_mul, Nat.add_zero,
      Nat.mod_eq_of_lt htotal]
  | cons buf bufs ih =>
    have hwrapped : addSize total bytesRead < sizeBound := Nat.mod_lt _ (by decide)
    simp only [Reader.readVectoredFrom, untilLonger, reader]
    split
    next =>
      refine ⟨rfl, ?_⟩
      rw [Nat.one_mul, addSize]
    next =>
      obtain ⟨hreads, hanswer⟩ := ih (S.give s buf.length).2 hwrapped
      refine ⟨congrArg (· + 1) hreads, hanswer.trans ?_⟩
      rw [addSize, Nat.mod_add_mod, Nat.add_assoc, Nat.succ_mul, Nat.add_comm bytesRead]

/-- Where `read_vectored` stops at the buffer it should, it leaves the buffers as it should. -/
theorem readVectoredFrom_bufs (bytesRead : Nat) (s : σ) (total : Nat) (bufs : List (List UInt8))
    (hvisited : untilLonger bytesRead bufs = (S.place s bufs).visited) :
    (S.reader.readVectoredFrom bytesRead s total bufs).reader = (S.place s bufs).source ∧
      (S.reader.readVectoredFrom bytesRead s total bufs).bufs = (S.place s bufs).bufs := by
  induction bufs generalizing s total with
  | nil => exact ⟨rfl, rfl⟩
  | cons buf bufs ih =>
    simp only [untilLonger, place] at hvisited
    simp only [Reader.readVectoredFrom, place, reader]
    by_cases hlonger : bytesRead < buf.length
    · rw [if_pos hlonger] at hvisited ⊢
      by_cases hshort : (S.give s buf.length).1.length < buf.length
      · rw [if_pos hshort]
        exact ⟨rfl, rfl⟩
      · -- The source fills the buffer: it was the last.
        rw [if_neg hshort] at hvisited ⊢
        have hnil : bufs = [] := visited_eq_zero_iff.mp (Nat.succ.inj hvisited).symm
        rw [hnil]
        exact ⟨rfl, rfl⟩
    · rw [if_neg hlonger] at hvisited ⊢
      by_cases hshort : (S.give s buf.length).1.length < buf.length
      · rw [if_pos hshort] at hvisited ⊢
        have hnil : bufs = [] := untilLonger_eq_zero_iff.mp (Nat.succ.inj hvisited)
        rw [hnil]
        exact ⟨rfl, rfl⟩
      · rw [if_neg hshort] at hvisited ⊢
        obtain ⟨hreader, hbufs⟩ :=
          ih (S.give s buf.length).2 (addSize total bytesRead) (Nat.succ.inj hvisited)
        exact ⟨hreader, congrArg (overwrite buf 0 _ :: ·) hbufs⟩

theorem vectoredLaw_iff (S : Source σ) (bytesRead : UInt64) (s : σ) (bufs : List (List UInt8)) :
    S.VectoredLaw bytesRead s bufs ↔ S.Agrees bytesRead s bufs := by
  obtain ⟨hreads, hanswer⟩ :=
    readVectoredFrom_counts (S := S) bytesRead.toNat s (by decide : 0 < sizeBound) bufs
  rw [Nat.zero_add] at hanswer
  unfold VectoredLaw Reader.readVectored
  constructor
  · intro hlaw
    rw [hlaw] at hreads hanswer
    simp only [← hreads, Except.ok.injEq] at hanswer
    exact ⟨hreads.symm, hanswer.symm⟩
  · rintro ⟨hvisited, hplaced⟩
    obtain ⟨hreader, hbufs⟩ := readVectoredFrom_bufs bytesRead.toNat s 0 bufs hvisited
    rw [hvisited] at hreads hanswer
    rcases hout : S.reader.readVectoredFrom bytesRead.toNat s 0 bufs with
      ⟨answer, source, bufs', reads⟩
    rw [hout] at hreader hbufs hreads hanswer
    simp only at hreader hbufs hreads hanswer
    rw [hreader, hbufs, hreads, hanswer, sizeBound, hplaced]

end Source

/-- **What the combinators account for**: `read_to_end` and `read_to_string` do what they are for on
exactly the sources that have nothing left, and `read_vectored` does where the caller's `bytesRead`
agrees with what the source gives. -/
theorem combinators_account_iff {σ : Type} (S : Source σ) (s : σ) (buf str : List UInt8)
    (bytesRead : UInt64) (bufs : List (List UInt8)) :
    (S.ToEndLaw s buf ↔ S.rest s = []) ∧ (S.ToStringLaw s str ↔ S.rest s = []) ∧
      (S.VectoredLaw bytesRead s bufs ↔ S.Agrees bytesRead s bufs) :=
  ⟨S.toEndLaw_iff s buf, S.toStringLaw_iff s str, S.vectoredLaw_iff bytesRead s bufs⟩

/-- A string of bytes, of which every call gives as much as fits. -/
def Source.ofList : Source (List UInt8) where
  rest bs := bs
  give bs space := (bs.take space, bs.drop space)
  length_le bs space := List.length_take_le space bs
  rest_eq bs space := (List.take_append_drop space bs).symm
  give_ne_nil bs space hspace hbs := by
    rw [ne_eq, List.take_eq_nil_iff, not_or]
    exact ⟨Nat.ne_of_gt hspace, hbs⟩

/-- One byte, to be appended to nothing. -/
theorem not_combinators_account : ¬ ∀ (s buf str : List UInt8) (bytesRead : UInt64)
    (bufs : List (List UInt8)), Source.ofList.ToEndLaw s buf ∧ Source.ofList.ToStringLaw s str ∧
      Source.ofList.VectoredLaw bytesRead s bufs := by
  intro h
  obtain ⟨hend, -⟩ := h [7] [] [] 0 []
  cases (Source.ofList.toEndLaw_iff [7] []).mp hend

end ProjectE.Net
