import ProjectE.Lib.Word
import ProjectE.Io.Write

/-!
# Readers

`io::Read` is one virtual function, `read`, and what it makes of it. `read_exact` reads into the
rest of its buffer until that is full, and takes a read of nothing for an error. `read_to_end` and
`read_vectored` are here as they stand: the first reads again and again into the bytes its buffer
already has, the second adds up an argument that none of its reads sets, and stops by it. What they
are worth is said over sources of bytes (`ProjectE.Io.Source`). A reader writes what it gives and
leaves the rest of the span as it is, as the repository's only one does.

`read_exact` and `write_all` are siblings: both are loops over a count that an object outside the
program decides about, and only the first treats zero. With the laws of both,
`exact_transfers_iff` says which readers and writers are served.
-/

namespace ProjectE.Net

open Verif

/-- `std::errc::io_error`: what `read_exact` answers at the end of the input. -/
def ErrorCode.io_error : ErrorCode := 5

/-- An `io::Read`: what its virtual function places at the front of a span of this size, and the
state it leaves. -/
structure Reader (σ : Type) where
  read : σ → Nat → Except ErrorCode (List UInt8) × σ
  /-- A read places no more than there is room for. -/
  length_le : ∀ s space bs, (read s space).1 = .ok bs → bs.length ≤ space

/-- What a call that reads comes to: its answer, the reader, the buffer, and the bytes the reader
gave, in order. -/
structure Received (σ α : Type) where
  answer : Except ErrorCode α
  reader : σ
  buf : List UInt8
  got : List UInt8

/-- A loop of reads at the head of a turn: the reader, the count so far, the buffer, and the bytes
the reader gave in all the turns before. -/
structure Reading (σ : Type) where
  reader : σ
  totalBytesRead : Nat
  buf : List UInt8
  got : List UInt8

namespace Reader

variable {σ : Type} (R : Reader σ)

/-- One turn of the loop of `read_exact`. -/
def readExactTurn (t : Reading σ) : Turn (Reading σ) (Received σ Nat) :=
  if t.totalBytesRead < t.buf.length then
    match R.read t.reader (t.buf.length - t.totalBytesRead) with
    | (.error e, reader) => .done ⟨.error e, reader, t.buf, t.got⟩
    | (.ok bs, reader) =>
      if bs.length = 0 then .done ⟨.error .io_error, reader, t.buf, t.got⟩
      else
        .next ⟨reader, t.totalBytesRead + bs.length, overwrite t.buf t.totalBytesRead bs,
          t.got ++ bs⟩
  else .done ⟨.ok t.totalBytesRead, t.reader, t.buf, t.got⟩

/-- A loop of reads before its first turn. -/
def start (s : σ) (buf : List UInt8) : Reading σ := ⟨s, 0, buf, []⟩

/-- `read_exact`: reads until the buffer is full. A reader that gives nothing before that is an
error. -/
def readExact (turns : Nat) (s : σ) (buf : List UInt8) : Option (Received σ Nat) :=
  loop R.readExactTurn turns (start s buf)

/-- One turn of the loop of `read_to_end`: the span is all of the buffer, on every turn. -/
def readToEndTurn (t : Reading σ) : Turn (Reading σ) (Received σ Nat) :=
  match R.read t.reader t.buf.length with
  | (.error e, reader) => .done ⟨.error e, reader, t.buf, t.got⟩
  | (.ok bs, reader) =>
    if bs.length = 0 then .done ⟨.ok t.totalBytesRead, reader, t.buf, t.got⟩
    else
      .next ⟨reader, addSize t.totalBytesRead bs.length, overwrite t.buf 0 bs, t.got ++ bs⟩

/-- `read_to_end`. Its answer is also what `bytesRead` holds afterwards. -/
def readToEnd (turns : Nat) (s : σ) (buf : List UInt8) : Option (Received σ Nat) :=
  loop R.readToEndTurn turns (start s buf)

/-- `read_to_string`: what `read_to_end` makes of an empty vector goes behind the string. -/
def readToString (turns : Nat) (s : σ) (str : List UInt8) : Option (Received σ Nat) :=
  (R.readToEnd turns s []).map fun out =>
    match out.answer with
    | .error e => { out with answer := .error e, buf := str }
    | .ok bytesRead => { out with answer := .ok bytesRead, buf := str ++ out.buf }

/-- What `read_vectored` comes to: its answer, the reader, the buffers, and how often it read. -/
structure Vectored (σ : Type) where
  answer : Except ErrorCode Nat
  reader : σ
  bufs : List (List UInt8)
  reads : Nat

/-- The loop of `read_vectored`: `bytesRead` is the caller's, and no read sets it. -/
def readVectoredFrom (bytesRead : Nat) (s : σ) (totalBytesRead : Nat) :
    List (List UInt8) → Vectored σ
  | [] => ⟨.ok totalBytesRead, s, [], 0⟩
  | buf :: bufs =>
    match R.read s buf.length with
    | (.error e, s) => ⟨.error e, s, buf :: bufs, 1⟩
    | (.ok bs, s) =>
      let totalBytesRead := addSize totalBytesRead bytesRead
      if bytesRead < buf.length then ⟨.ok totalBytesRead, s, overwrite buf 0 bs :: bufs, 1⟩
      else
        let rest := readVectoredFrom bytesRead s totalBytesRead bufs
        ⟨rest.answer, rest.reader, overwrite buf 0 bs :: rest.bufs, rest.reads + 1⟩

/-- `read_vectored`: `bytesRead` is the caller's variable, which no read of the loop sets. -/
def readVectored (bytesRead : UInt64) (s : σ) (bufs : List (List UInt8)) : Vectored σ :=
  R.readVectoredFrom bytesRead.toNat s 0 bufs

/-- `read_exact` returns an error, or a success once the buffer holds what the reader gave, in
order, from its first byte to its last. -/
def ReadExactLaw (s : σ) (buf : List UInt8) : Prop :=
  ∃ turns out, R.readExact turns s buf = some out ∧
    ((out.answer = .ok buf.length ∧ out.buf = out.got ∧ out.got.length = buf.length) ∨
      ∃ e, out.answer = .error e)

variable {R} {s : σ} {buf : List UInt8} {t u : Reading σ} {out : Received σ Nat}

/-! ## Exact reads -/

/-- The front of the buffer is what the reader gave, as long as the count says. It is what one turn
of `read_exact` keeps. -/
structure Filled (size : Nat) (t : Reading σ) : Prop where
  length_eq : t.buf.length = size
  read_le : t.totalBytesRead ≤ size
  front : t.buf.take t.totalBytesRead = t.got
  got_eq : t.got.length = t.totalBytesRead

theorem filled_start (s : σ) (buf : List UInt8) : Filled buf.length (start s buf) :=
  ⟨rfl, Nat.zero_le _, rfl, rfl⟩

/-- A turn is followed by another where room is left and the reader gives a byte. -/
theorem readExactTurn_eq_next (h : R.readExactTurn t = .next u) :
    ∃ bs, bs.length ≠ 0 ∧ bs.length ≤ t.buf.length - t.totalBytesRead ∧
      u.totalBytesRead = t.totalBytesRead + bs.length ∧
      u.buf = overwrite t.buf t.totalBytesRead bs ∧ u.got = t.got ++ bs := by
  unfold readExactTurn at h
  split at h
  next hlt =>
    rcases hread : R.read t.reader (t.buf.length - t.totalBytesRead) with ⟨answer, reader⟩
    rw [hread] at h
    cases answer with
    | error e => cases h
    | ok bs =>
      simp only at h
      split at h
      next => cases h
      next hpos =>
        cases h
        exact ⟨bs, hpos, R.length_le _ _ bs (by rw [hread]), rfl, rfl, rfl⟩
  next => cases h

theorem Filled.next {size : Nat} (h : Filled size t) (hnext : R.readExactTurn t = .next u) :
    Filled size u ∧ size - u.totalBytesRead < size - t.totalBytesRead := by
  obtain ⟨bs, hpos, hroom, hread, hbuf, hgot⟩ := readExactTurn_eq_next hnext
  have hlength := h.length_eq
  have hle := h.read_le
  have hfits : t.totalBytesRead + bs.length ≤ t.buf.length := by omega
  refine ⟨⟨?_, by omega, ?_, ?_⟩, by omega⟩
  · rw [hbuf, length_overwrite hfits, hlength]
  · rw [hbuf, hread, hgot, take_overwrite_end (by omega), h.front]
  · rw [hgot, hread, List.length_append, h.got_eq]

/-- The last turn: the buffer is full, or the call is an error. -/
theorem readExactTurn_eq_done (h : R.readExactTurn t = .done out) :
    (out.answer = .ok t.totalBytesRead ∧ t.buf.length ≤ t.totalBytesRead ∧ out.buf = t.buf ∧
      out.got = t.got) ∨ ∃ e, out.answer = .error e := by
  unfold readExactTurn at h
  split at h
  next =>
    rcases hread : R.read t.reader (t.buf.length - t.totalBytesRead) with ⟨answer, reader⟩
    rw [hread] at h
    cases answer with
    | error e =>
      cases h
      exact .inr ⟨e, rfl⟩
    | ok bs =>
      simp only at h
      split at h
      next =>
        cases h
        exact .inr ⟨_, rfl⟩
      next => cases h
  next hge =>
    cases h
    exact .inl ⟨rfl, Nat.not_lt.mp hge, rfl, rfl⟩

/-- `read_exact` returns for every reader: a turn gives a byte, or it is the last. -/
theorem readExactLaw (R : Reader σ) (s : σ) (buf : List UInt8) : R.ReadExactLaw s buf := by
  have hterm : Terminates R.readExactTurn (start s buf) :=
    terminates_of_measure (fun t => buf.length - t.totalBytesRead)
      (fun _ _ hfilled hnext => Filled.next hfilled hnext) (filled_start s buf)
  obtain ⟨out, turns, hout⟩ := hterm
  have hreturns : Returns R.readExactTurn (start s buf) out := ⟨turns, hout⟩
  obtain ⟨t, ht, hlast⟩ := hreturns.last
  have hfilled : Filled buf.length t :=
    ht.rule (fun _ _ hf hnext => (hf.next hnext).1) (filled_start s buf)
  refine ⟨turns, out, hout, ?_⟩
  rcases readExactTurn_eq_done hlast with ⟨hanswer, hge, hbuf, hgot⟩ | herror
  · have hfull : t.totalBytesRead = buf.length :=
      Nat.le_antisymm hfilled.read_le (hfilled.length_eq ▸ hge)
    refine .inl ⟨hfull ▸ hanswer, ?_, ?_⟩
    · rw [hbuf, hgot, ← hfilled.front, List.take_of_length_le hge]
    · rw [hgot, hfilled.got_eq, hfull]
  · exact .inr herror

end Reader

/-- **Exact transfers**: `read_exact` returns for every reader, with the whole buffer filled in
order or an error; `write_all` does so with the whole buffer taken, for exactly the writers that do
not come to answer zero for ever. -/
theorem exact_transfers_iff {σ τ : Type} (R : Reader σ) (r : σ) (into : List UInt8) (W : Writer τ)
    (w : τ) (buf : List UInt8) :
    (R.ReadExactLaw r into ∧ W.WriteAllLaw w buf) ↔ ¬ W.Stalls w buf := by
  rw [Writer.writeAllLaw_iff]
  exact and_iff_right (R.readExactLaw r into)

/-- A writer that takes nothing, offered one byte. -/
theorem not_exact_transfers : ¬ ∀ (R : Reader Unit) (r : Unit) (into : List UInt8)
    (W : Writer Unit) (w : Unit) (buf : List UInt8),
    R.ReadExactLaw r into ∧ W.WriteAllLaw w buf := by
  intro h
  let reader : Reader Unit :=
    ⟨fun s _ => (.ok [], s), fun _ _ _ h => by cases h; exact Nat.zero_le _⟩
  let writer : Writer Unit :=
    ⟨fun s _ => (.ok 0, s), fun s => (.ok (), s), fun _ _ _ h => by cases h; exact Nat.zero_le _⟩
  obtain ⟨-, hwrite⟩ := h reader () [] writer () [7]
  have hstalls : ¬ writer.Stalls () [7] := (writer.writeAllLaw_iff () [7]).mp hwrite
  exact hstalls ⟨(), [7], .whole, by decide, fun _ => rfl⟩

end ProjectE.Net
