import ProjectE.Lib.Transition
import ProjectE.Io.Write

/-!
# The write buffer and its inner writer

A `BufWriter` of either constructor over any writer, under any sequence of its public calls. Beside
the two the state records the bytes the inner writer took; a state of the machine has the bytes the
calls reported as accepted as well. The code has neither. `write_cold` has no caller and is left
out. A vector without room for what is inserted grows to a capacity of the library's choice, which
is a parameter (`grow`).

What is to hold is that the bytes received and the bytes buffered are, in this order, the accepted
ones (`Delivers`). Flushing and appending keep it. Three things do not: a buffer that is made full
of zeros; bytes handed straight to the inner writer while a flush left others behind; and a direct
write of which the writer took another part than is reported. `InOrder` says that a call does
neither of the last two, and `delivers_iff` that nothing else is needed.
-/

namespace ProjectE.Net

open Verif

/-! ## Direct writes -/

namespace Writer

variable {σ : Type} (W : Writer σ)

/-- The direct writes of `BufWriter::write_vectored`: each buffer is offered once, and the counts
are not looked at. -/
def writeEach (s : σ) : List (List UInt8) → Sent σ Unit
  | [] => ⟨.ok (), s, []⟩
  | buf :: bufs =>
    match W.write s buf with
    | (.error e, s) => ⟨.error e, s, []⟩
    | (.ok n, s) =>
      let rest := writeEach s bufs
      { rest with taken := buf.take n ++ rest.taken }

/-- Offered one buffer after the other, the writer takes the first bytes of all of them, this many,
and none after them. -/
def TakesFront (total : Nat) (s : σ) : List (List UInt8) → Prop
  | [] => True
  | buf :: bufs =>
    (W.write s buf).1 = .ok (min total buf.length) ∧
      TakesFront (total - buf.length) (W.write s buf).2 bufs

/-- Offered one buffer after the other, the writer fails before it takes a byte. -/
def FailsFirst (s : σ) : List (List UInt8) → Prop
  | [] => False
  | buf :: bufs =>
    (∃ e, (W.write s buf).1 = .error e) ∨
      ((W.write s buf).1 = .ok 0 ∧ FailsFirst (W.write s buf).2 bufs)

variable {W}

theorem TakesFront.writeEach : ∀ {bufs : List (List UInt8)} {total : Nat} {s : σ},
    W.TakesFront total s bufs → (W.writeEach s bufs).answer = .ok () ∧
      (W.writeEach s bufs).taken = bufs.flatten.take total
  | [], _, _, _ => ⟨rfl, List.take_nil.symm⟩
  | buf :: bufs, total, s, h => by
    obtain ⟨hwrite, hrest⟩ := h
    obtain ⟨hanswer, htaken⟩ := hrest.writeEach
    rcases hout : W.write s buf with ⟨answer, s'⟩
    rw [hout] at hwrite hanswer htaken
    cases hwrite
    simp only [Writer.writeEach, hout]
    refine ⟨hanswer, ?_⟩
    rw [htaken, List.flatten_cons, List.take_append, ← List.take_take, List.take_length]

theorem FailsFirst.writeEach : ∀ {bufs : List (List UInt8)} {s : σ}, W.FailsFirst s bufs →
    (∃ e, (W.writeEach s bufs).answer = .error e) ∧ (W.writeEach s bufs).taken = []
  | buf :: bufs, s, h => by
    rcases hout : W.write s buf with ⟨answer, s'⟩
    simp only [FailsFirst, hout] at h
    simp only [Writer.writeEach, hout]
    rcases h with ⟨e, rfl⟩ | ⟨rfl, hrest⟩
    · exact ⟨⟨e, rfl⟩, rfl⟩
    · obtain ⟨hanswer, htaken⟩ := hrest.writeEach
      refine ⟨hanswer, ?_⟩
      show buf.take 0 ++ (W.writeEach s' bufs).taken = []
      rw [htaken, List.take_zero, List.append_nil]

end Writer

/-! ## The calls -/

namespace BufWriter

/-- `BufWriter(inner, size)`: the vector has that many bytes from the start. -/
def sized (size : Nat) : BufWriter := ⟨List.replicate size 0, size⟩

/-- `_buffer.insert(_buffer.end(), ...)`: the vector grows as its library pleases where the bytes do
not fit, and its capacity with it. -/
def insert (grow : Nat → Nat → Nat) (w : BufWriter) (buf : List UInt8) : BufWriter :=
  let size := w.buffer.length + buf.length
  ⟨w.buffer ++ buf, if size ≤ w.capacity then w.capacity else grow w.capacity size⟩

/-- The room left. -/
def available (w : BufWriter) : Nat := subSize w.capacity w.buffer.length

end BufWriter

/-- A `BufWriter`, its inner writer, and the bytes that took. The last is a record: what has arrived
beyond the buffer, in order. -/
structure BufWriting (σ : Type) where
  writer : BufWriter
  inner : σ
  received : List UInt8

/-- Where the first loop of `write_vectored` ends. -/
inductive Approach (σ : Type) where
  | failed (e : ErrorCode) (b : BufWriting σ)
  | direct (total : Nat) (b : BufWriting σ)
  | buffered (total : Nat) (b : BufWriting σ)

/-- The state it ends in. -/
def Approach.last {σ : Type} : Approach σ → BufWriting σ
  | failed _ b => b
  | direct _ b => b
  | buffered _ b => b

namespace BufWriting

variable {σ : Type} (W : Writer σ) (grow : Nat → Nat → Nat) (b : BufWriting σ)

/-- The bytes go behind those that wait. -/
def insert (buf : List UInt8) : BufWriting σ := { b with writer := b.writer.insert grow buf }

/-- `flush_buf`: one write of the inner writer, whatever it takes of the buffer; what it leaves
stays at the front. -/
def flushBuf : Except ErrorCode Unit × BufWriting σ :=
  if b.writer.isEmpty then (.ok (), b)
  else
    let os := W.write b.inner b.writer.buffer
    let out := b.writer.flushBuf os.1
    (out.2.2, ⟨out.1, os.2, b.received ++ out.2.1⟩)

/-- `write`: the inner writer is not touched. Bytes that do not fit are dropped, and the count says
zero. -/
def write (buf : List UInt8) : Except ErrorCode Nat × BufWriting σ :=
  ((b.writer.write buf).2, { b with writer := (b.writer.write buf).1 })

/-- The first statement of `write_all_cold`. -/
def makeRoom (size : Nat) : Except ErrorCode Unit × BufWriting σ :=
  if size > b.writer.available then b.flushBuf W else (.ok (), b)

/-- `write_all_cold`: room is made by a flush if there is too little. A buffer as large as the
capacity goes straight to the inner writer, past what a flush has left behind; any other is
inserted. -/
def writeAllCold (turns : Nat) (buf : List UInt8) :
    Option (Except ErrorCode Unit × BufWriting σ) :=
  match b.makeRoom W buf.length with
  | (.error e, b) => some (.error e, b)
  | (.ok (), b) =>
    if buf.length ≥ b.writer.capacity then
      (W.writeAll turns b.inner buf).map fun out =>
        (out.answer, ⟨b.writer, out.inner, b.received ++ out.taken⟩)
    else some (.ok (), b.insert grow buf)

/-- `write_all`: what fits with room to spare is inserted, and all else takes the long way. -/
def writeAll (turns : Nat) (buf : List UInt8) : Option (Except ErrorCode Unit × BufWriting σ) :=
  if buf.length < b.writer.available then some (.ok (), b.insert grow buf)
  else b.writeAllCold W grow turns buf

/-- The first loop of `write_vectored`. -/
def approach (b : BufWriting σ) (total : Nat) : List (List UInt8) → Approach σ
  | [] => .buffered total b
  | buf :: bufs =>
    let total := total + buf.length
    let flushed :=
      if total > b.writer.available && !b.writer.isEmpty then b.flushBuf W else (.ok (), b)
    match flushed with
    | (.error e, b) => .failed e b
    | (.ok (), b) =>
      if total ≥ b.writer.capacity then .direct total b else approach b total bufs

/-- `write_vectored`: if the buffers come to the capacity together they go to the inner writer
directly, each once and from the first; otherwise they are all inserted. -/
def writeVectored (bufs : List (List UInt8)) : Except ErrorCode Nat × BufWriting σ :=
  match b.approach W 0 bufs with
  | .failed e b => (.error e, b)
  | .direct total b =>
    let out := W.writeEach b.inner bufs
    (out.answer.map fun _ => total, ⟨b.writer, out.inner, b.received ++ out.taken⟩)
  | .buffered total b => (.ok total, bufs.foldl (insert grow) b)

/-- `flush`: the buffer is flushed once, and then the inner writer, even if bytes are left. -/
def flush : Except ErrorCode Unit × BufWriting σ :=
  match b.flushBuf W with
  | (.error e, b) => (.error e, b)
  | (.ok (), b) =>
    ((W.flush b.inner).1, { b with inner := (W.flush b.inner).2 })

end BufWriting

/-- A public call; a `write_all` comes with a bound on the turns of the inner one. -/
inductive WriteCall where
  | write (buf : List UInt8)
  | writeAll (turns : Nat) (buf : List UInt8)
  | writeVectored (bufs : List (List UInt8))
  | flush

/-- A `BufWriter` with the bytes its calls reported as accepted. -/
structure Ledger (σ : Type) where
  b : BufWriting σ
  accepted : List UInt8

/-- The two constructors. -/
inductive Built where
  | byDefault
  | bySize (size : Nat)

namespace Built

/-- The writer that the constructor makes. -/
def writer : Built → BufWriter
  | byDefault => .new
  | bySize size => .sized size

/-- The buffer starts empty. -/
def Empty : Built → Prop
  | byDefault => True
  | bySize size => size = 0

end Built

namespace Ledger

variable {σ : Type}

/-- What the answer to a call reports of the bytes it was given. -/
def reported (bytes : List UInt8) : Except ErrorCode Nat → List UInt8
  | .ok n => bytes.take n
  | .error _ => []

/-- What the answer to a call that takes all or fails reports. -/
def reportedAll (bytes : List UInt8) : Except ErrorCode Unit → List UInt8
  | .ok () => bytes
  | .error _ => []

/-- A call, and the bytes it reports as accepted added to those accepted before. `none`: a
`write_all` that does not come to its end in so many turns. -/
def step (W : Writer σ) (grow : Nat → Nat → Nat) (m : Ledger σ) : WriteCall → Option (Ledger σ)
  | .write buf => some ⟨(m.b.write buf).2, m.accepted ++ reported buf (m.b.write buf).1⟩
  | .writeAll turns buf =>
    (m.b.writeAll W grow turns buf).map fun out =>
      ⟨out.2, m.accepted ++ reportedAll buf out.1⟩
  | .writeVectored bufs =>
    let out := m.b.writeVectored W grow bufs
    some ⟨out.2, m.accepted ++ reported bufs.flatten out.1⟩
  | .flush => some ⟨(m.b.flush W).2, m.accepted⟩

/-- A writer of this constructor, before its first call. -/
def start (built : Built) (s : σ) : Ledger σ := ⟨⟨built.writer, s, []⟩, []⟩

/-- The runs of a writer, from either constructor. -/
def machine (W : Writer σ) (grow : Nat → Nat → Nat) : Machine (Ledger σ) WriteCall where
  init m := ∃ built s, m = start built s
  step := step W grow

/-- What was received and what is buffered are what was accepted. -/
def Delivers (m : Ledger σ) : Prop := m.b.received ++ m.b.writer.buffer = m.accepted

/-- Where a call hands bytes straight to the inner writer, nothing is left in the buffer, and the
writer takes the bytes that the answer reports. -/
def InOrder (W : Writer σ) (m : Ledger σ) : WriteCall → Prop
  | .write _ => True
  | .writeAll _ buf =>
    buf.length < m.b.writer.available ∨
      ∀ b, m.b.makeRoom W buf.length = (.ok (), b) → buf.length ≥ b.writer.capacity →
        b.writer.buffer = [] ∧ ¬ W.FailsPartway b.inner buf
  | .writeVectored bufs =>
    ∀ total b, m.b.approach W 0 bufs = .direct total b →
      b.writer.buffer = [] ∧ (W.TakesFront total b.inner bufs ∨ W.FailsFirst b.inner bufs)
  | .flush => True

end Ledger

/-! ## What a call does to the stream -/

namespace BufWriting

variable {σ : Type} {W : Writer σ} {grow : Nat → Nat → Nat} {b b' : BufWriting σ}

/-- What was received and what is buffered. -/
def stream (b : BufWriting σ) : List UInt8 := b.received ++ b.writer.buffer

@[simp] theorem stream_insert (b : BufWriting σ) (buf : List UInt8) :
    (b.insert grow buf).stream = b.stream ++ buf :=
  (List.append_assoc _ _ _).symm

theorem stream_flushBuf (b : BufWriting σ) : (b.flushBuf W).2.stream = b.stream := by
  unfold flushBuf
  split
  next => rfl
  next =>
    have hsplit := b.writer.flush_conserves (W.write b.inner b.writer.buffer).1
    simp only [stream, List.append_assoc]
    exact congrArg (b.received ++ ·) hsplit

theorem stream_write (b : BufWriting σ) (buf : List UInt8) :
    (b.write buf).2.stream = b.stream ++ Ledger.reported buf (b.write buf).1 := by
  unfold write BufWriter.write
  by_cases hfits : buf.length < subSize b.writer.capacity b.writer.buffer.length
  · rw [if_pos hfits]
    simp only [stream, Ledger.reported, List.take_length, List.append_assoc]
  · rw [if_neg hfits]
    simp only [stream, Ledger.reported, List.take_zero, List.append_nil]

theorem stream_makeRoom (b : BufWriting σ) (size : Nat) :
    (b.makeRoom W size).2.stream = b.stream := by
  unfold makeRoom
  split
  next => exact stream_flushBuf b
  next => rfl

theorem stream_flush (b : BufWriting σ) : (b.flush W).2.stream = b.stream := by
  have hflush := stream_flushBuf (W := W) b
  unfold flush
  split
  next heq => rw [← hflush, heq]
  next heq =>
    rw [← hflush, heq]
    rfl

/-- Handing bytes over behind an empty buffer appends what the writer took of them. -/
theorem stream_direct (hempty : b.writer.buffer = []) (inner : σ) (taken : List UInt8) :
    stream ⟨b.writer, inner, b.received ++ taken⟩ = b.stream ++ taken := by
  simp only [stream, hempty, List.append_nil]

/-- `write_all_cold`, if what it hands over follows an empty buffer and is taken whole or not at
all. -/
theorem stream_writeAllCold {turns : Nat} {buf : List UInt8}
    {out : Except ErrorCode Unit × BufWriting σ}
    (hdirect : ∀ b', b.makeRoom W buf.length = (.ok (), b') → buf.length ≥ b'.writer.capacity →
      b'.writer.buffer = [] ∧ ¬ W.FailsPartway b'.inner buf)
    (h : b.writeAllCold W grow turns buf = some out) :
    out.2.stream = b.stream ++ Ledger.reportedAll buf out.1 := by
  have hroom := b.stream_makeRoom (W := W) buf.length
  unfold writeAllCold at h
  split at h
  next e b' hflush =>
    cases h
    rw [hflush] at hroom
    exact hroom.trans (List.append_nil _).symm
  next b' hflush =>
    rw [hflush] at hroom
    split at h
    next hlarge =>
      obtain ⟨hempty, hfails⟩ := hdirect b' hflush hlarge
      obtain ⟨sent, hsent, rfl⟩ := Option.map_eq_some_iff.mp h
      rw [stream_direct hempty, hroom]
      rcases Writer.writeAll_whole_or_nothing hfails ⟨turns, hsent⟩ with
        ⟨hanswer, htaken⟩ | ⟨e, hanswer, htaken⟩
      · rw [hanswer, htaken, Ledger.reportedAll]
      · rw [hanswer, htaken, Ledger.reportedAll]
    next =>
      cases h
      rw [stream_insert, hroom]
      rfl

theorem stream_foldl_insert (b : BufWriting σ) (bufs : List (List UInt8)) :
    (bufs.foldl (insert grow) b).stream = b.stream ++ bufs.flatten := by
  induction bufs generalizing b with
  | nil => exact (List.append_nil _).symm
  | cons buf bufs ih =>
    rw [List.foldl_cons, ih, stream_insert, List.flatten_cons, List.append_assoc]

/-- The first loop of `write_vectored` flushes, and no more. -/
theorem stream_approach (b : BufWriting σ) (total : Nat) (bufs : List (List UInt8)) :
    (b.approach W total bufs).last.stream = b.stream := by
  induction bufs generalizing b total with
  | nil => rfl
  | cons buf bufs ih =>
    unfold approach
    simp only
    split
    next e b' hflushed =>
      split at hflushed
      next => rw [← stream_flushBuf (W := W) b, hflushed]; rfl
      next => cases hflushed
    next b' hflushed =>
      have hstream : b'.stream = b.stream := by
        split at hflushed
        next => rw [← stream_flushBuf (W := W) b, hflushed]
        next => cases hflushed; rfl
      split
      next => exact hstream
      next => rw [ih, hstream]

/-- Where all is to be buffered, the total is that of all the buffers. -/
theorem approach_eq_buffered {bufs : List (List UInt8)} {total total' : Nat}
    (h : b.approach W total bufs = .buffered total' b') : total' = total + bufs.flatten.length := by
  induction bufs generalizing b total with
  | nil =>
    cases h
    rfl
  | cons buf bufs ih =>
    unfold approach at h
    simp only at h
    split at h
    next => cases h
    next =>
      split at h
      next => cases h
      next => rw [ih h, List.flatten_cons, List.length_append, Nat.add_assoc]

end BufWriting

/-! ## What a run delivers -/

namespace Ledger

variable {σ : Type} {W : Writer σ} {grow : Nat → Nat → Nat} {m m' : Ledger σ}

/-- `write_all` in order: the stream grows by what the answer reports. -/
theorem stream_writeAll {turns : Nat} {buf : List UInt8}
    {out : Except ErrorCode Unit × BufWriting σ}
    (horder : m.InOrder W (.writeAll turns buf)) (h : m.b.writeAll W grow turns buf = some out) :
    out.2.stream = m.b.stream ++ reportedAll buf out.1 := by
  unfold BufWriting.writeAll at h
  split at h
  next =>
    cases h
    exact m.b.stream_insert buf
  next hfull => exact BufWriting.stream_writeAllCold (horder.resolve_left hfull) h

/-- `write_vectored` in order: the stream grows by what the answer reports. -/
theorem stream_writeVectored {bufs : List (List UInt8)}
    (horder : m.InOrder W (.writeVectored bufs)) :
    (m.b.writeVectored W grow bufs).2.stream =
      m.b.stream ++ reported bufs.flatten (m.b.writeVectored W grow bufs).1 := by
  have hstream := m.b.stream_approach (W := W) 0 bufs
  unfold BufWriting.writeVectored
  split
  next e b happroach =>
    rw [happroach] at hstream
    exact hstream.trans (List.append_nil _).symm
  next total b happroach =>
    obtain ⟨hempty, htakes⟩ := horder total b happroach
    rw [happroach] at hstream
    simp only
    rw [BufWriting.stream_direct hempty, ← hstream]
    rcases htakes with hfront | hfails
    · obtain ⟨hanswer, htaken⟩ := hfront.writeEach
      rw [hanswer, htaken]
      rfl
    · obtain ⟨⟨e, hanswer⟩, htaken⟩ := hfails.writeEach
      rw [hanswer, htaken]
      rfl
  next total b happroach =>
    have htotal := BufWriting.approach_eq_buffered happroach
    rw [happroach] at hstream
    rw [BufWriting.stream_foldl_insert, ← hstream, htotal, Nat.zero_add, reported, List.take_length]
    rfl

theorem Delivers.step {call : WriteCall} (h : m.Delivers) (horder : m.InOrder W call)
    (hstep : m.step W grow call = some m') : m'.Delivers := by
  cases call with
  | write buf =>
    cases hstep
    exact (m.b.stream_write buf).trans (congrArg (· ++ _) h)
  | writeAll turns buf =>
    obtain ⟨out, hout, rfl⟩ := Option.map_eq_some_iff.mp hstep
    exact (stream_writeAll horder hout).trans (congrArg (· ++ _) h)
  | writeVectored bufs =>
    cases hstep
    exact (stream_writeVectored horder).trans (congrArg (· ++ _) h)
  | flush =>
    cases hstep
    exact (m.b.stream_flush).trans h

theorem delivers_start_iff (built : Built) (s : σ) :
    (start built s).Delivers ↔ built.Empty := by
  cases built with
  | byDefault => exact ⟨fun _ => trivial, fun _ => rfl⟩
  | bySize size =>
    show List.replicate size 0 = [] ↔ size = 0
    exact List.replicate_eq_nil_iff 0

/-- **What is accepted is delivered**: in every run whose calls hand bytes over in order, what was
received and what is buffered are what was accepted, if and only if the buffer was empty when it
was made. -/
theorem delivers_iff (W : Writer σ) (grow : Nat → Nat → Nat) (built : Built) (s : σ) :
    (∀ m, (machine W grow).RunUnder (InOrder W) (start built s) m → m.Delivers) ↔
      built.Empty := by
  constructor
  · intro h
    exact (delivers_start_iff built s).mp (h _ .refl)
  · intro hempty m hrun
    exact hrun.invariant (fun _ _ _ hm horder hstep => hm.step horder hstep)
      ((delivers_start_iff built s).mpr hempty)

/-- A buffer made with one byte in it, before any call; and an empty one after a `write_vectored` of
two bytes, of which the inner writer took one. -/
theorem not_delivers :
    (¬ ∀ (W : Writer Unit) grow built m,
      (machine W grow).RunUnder Machine.Any (start built ()) m → m.Delivers) ∧
    ¬ ∀ (W : Writer Unit) grow m,
      (machine W grow).RunUnder Machine.Any (start (.bySize 0) ()) m → m.Delivers := by
  let writer : Writer Unit :=
    ⟨fun s buf => (.ok (min 1 buf.length), s), fun s => (.ok (), s),
      fun _ buf _ h => by cases h; exact Nat.min_le_right 1 buf.length⟩
  let grow : Nat → Nat → Nat := fun _ size => size
  refine ⟨fun h => ?_, fun h => ?_⟩
  · exact absurd (h writer grow (.bySize 1) _ .refl) (by unfold Delivers; decide)
  · have hrun : (machine writer grow).RunUnder Machine.Any (start (.bySize 0) ())
        ⟨⟨⟨[], 0⟩, (), [1]⟩, [1, 2]⟩ :=
      .step (a := .writeVectored [[1, 2]]) trivial rfl
    exact absurd (h writer grow _ hrun) (by unfold Delivers; decide)

end Ledger

end ProjectE.Net
