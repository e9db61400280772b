import ProjectE.Io.Buffer

/-!
# The write buffer

`io::BufWriter` keeps the bytes not yet handed to its inner writer in a vector whose capacity is
fixed when it is built. `write` appends a message that leaves room to spare and otherwise reports
zero bytes, with no error; `flush` offers the whole vector to the inner writer once and drops what
that took. `reserve` after `shrink_to_fit` brings the capacity back to what it was.
-/

namespace ProjectE.Net

open Verif

/-- `io::BufWriter`: the bytes that wait to be written, and the capacity of the vector that holds
them. -/
structure BufWriter where
  buffer : List UInt8
  capacity : Nat
deriving DecidableEq, Repr

/-- What one write of the inner writer gives: an error, or how many bytes it took. -/
abbrev WriteOutcome := Except ErrorCode Nat

namespace BufWriter

/-- `BufWriter(inner)`: an empty vector, with the default capacity reserved for it. -/
def new : BufWriter := ⟨[], DEFAULT_BUF_SIZE⟩

/-- `empty()` of the vector. -/
def isEmpty (w : BufWriter) : Bool := w.buffer.isEmpty

/-- `write`: the count it reports is the whole message or zero. -/
def write (w : BufWriter) (buf : List UInt8) : BufWriter × Except ErrorCode Nat :=
  if buf.length < subSize w.capacity w.buffer.length then
    ({ w with buffer := w.buffer ++ buf }, .ok buf.length)
  else (w, .ok 0)

/-- `flush_buf`: the bytes the inner writer took, what is left, and the answer. -/
def flushBuf (w : BufWriter) (os : WriteOutcome) :
    BufWriter × List UInt8 × Except ErrorCode Unit :=
  if w.buffer.isEmpty then (w, [], .ok ())
  else
    match os with
    | .ok n => ({ w with buffer := w.buffer.drop n }, w.buffer.take n, .ok ())
    | .error e => (w, [], .error e)

/-- `flush`: flushing a socket is always a success. -/
def flush (w : BufWriter) (os : WriteOutcome) : BufWriter × List UInt8 × Except ErrorCode Unit :=
  w.flushBuf os

/-- The message is appended. -/
def accepts (w : BufWriter) (buf : List UInt8) : Bool :=
  buf.length < subSize w.capacity w.buffer.length

theorem write_accepts {w : BufWriter} {buf : List UInt8} (h : w.accepts buf = true) :
    (w.write buf).1.buffer = w.buffer ++ buf := by
  have hlt : buf.length < subSize w.capacity w.buffer.length := of_decide_eq_true h
  simp only [write, if_pos hlt]

/-- A message without room to spare is dropped, and no error says so. -/
theorem write_not_accepts {w : BufWriter} {buf : List UInt8} (h : w.accepts buf = false) :
    w.write buf = (w, .ok 0) := by
  have hlt : ¬ buf.length < subSize w.capacity w.buffer.length := of_decide_eq_false h
  simp only [write, if_neg hlt]

/-- An empty message is appended or dropped: the buffer is the same. -/
theorem write_nil (w : BufWriter) : (w.write []).1.buffer = w.buffer := by
  unfold write
  split
  · exact List.append_nil _
  · rfl

/-- Flushing splits the buffer into what was taken and what is left. -/
theorem flush_conserves (w : BufWriter) (os : WriteOutcome) :
    (w.flush os).2.1 ++ (w.flush os).1.buffer = w.buffer := by
  unfold flush flushBuf
  split
  · rfl
  · cases os with
    | error e => rfl
    | ok n => exact List.take_append_drop n w.buffer

end BufWriter

end ProjectE.Net
