import Mathlib.Data.List.Basic
import ProjectE.Lib.Word

/-!
# The read buffer

`io::Buffer` is a byte array with two cursors: `_pos`, the first unread byte, and `_filled`, the end
of what was read. The cursors go back to the start only when everything was consumed; nothing is
moved down. `fill_buf` reads once into the tail and answers the part it filled, and an empty part
stands for three different things: the reader had no byte to give, the read was not made because
the array has no tail left, or (where the capacity is zero) both.

`buffer`, `fill_buf`, `consume`, `consume_with` and `discard_buffer` keep
`_pos ≤ _filled ≤ _capacity` (`Buffer.Ordered`); `unconsume` does not. `io::BufReader` owns a
`Buffer` of the default capacity and never unconsumes; its model carries the order as fields.
-/

namespace ProjectE.Net

open Verif

/-- The value of a `std::error_code`. -/
abbrev ErrorCode := Int

/-- `DEFAULT_BUF_SIZE`: the capacity of the reader and of the writer of a connection. -/
def DEFAULT_BUF_SIZE : Nat := 8192

/-- A `std::span` into the bytes of a buffer. -/
structure Span where
  offset : Nat
  size : Nat
deriving DecidableEq, Repr

/-- `std::span<std::uint8_t>()`: the answer of `fill_buf` where nothing was read. -/
def Span.none : Span := ⟨0, 0⟩

/-- `empty()`. -/
def Span.empty (s : Span) : Bool := s.size == 0

/-- `io::Buffer`: its cursors, and the array. `_capacity` is kept next to the array, which is never
resized. -/
structure Buffer where
  pos : Nat
  filled : Nat
  capacity : Nat
  bytes : List UInt8
deriving DecidableEq, Repr

/-- What one read of the inner reader gives: an error, or the bytes the OS has ready. None is the
end of the stream. -/
abbrev ReadOutcome := Except ErrorCode (List UInt8)

/-- A read into a span of `space` bytes takes at most that many. -/
def ReadOutcome.recv (os : ReadOutcome) (space : Nat) : ReadOutcome :=
  os.map fun bs => bs.take space

/-- The array with `bs` written over it from index `i`. -/
def overwrite (bytes : List UInt8) (i : Nat) (bs : List UInt8) : List UInt8 :=
  bytes.take i ++ bs ++ bytes.drop (i + bs.length)

namespace Buffer

/-- `Buffer(capacity)`: all zeros, and both cursors at the start. -/
def new (capacity : Nat) : Buffer := ⟨0, 0, capacity, List.replicate capacity 0⟩

/-- `buffer()`: the unread bytes, as a view. -/
def buffer (b : Buffer) : Span := ⟨b.pos, subSize b.filled b.pos⟩

/-- The bytes a view shows, at the moment they are read. -/
def view (b : Buffer) (s : Span) : List UInt8 := (b.bytes.drop s.offset).take s.size

/-- `discard_buffer`: the cursors go to the start; the bytes stay where they are. -/
def discardBuffer (b : Buffer) : Buffer := { b with pos := 0, filled := 0 }

/-- `consume(amt)`: at most what is unread, unless the sum wraps around. -/
def consume (b : Buffer) (amt : Nat) : Buffer :=
  { b with pos := if addSize b.pos amt < b.filled then addSize b.pos amt else b.filled }

/-- `consume_with(amt, visitor)`: its answer, and what the visitor is given, if it is called. -/
def consumeWith (b : Buffer) (amt : Nat) : Buffer × Bool × Option Span :=
  if subSize b.filled b.pos < amt then (b, false, none)
  else (b.consume amt, true, some ⟨b.pos, amt⟩)

/-- `unconsume(amt)`: the difference wraps around before it is compared with zero, so the comparison
holds off nothing. -/
def unconsume (b : Buffer) (amt : Nat) : Buffer :=
  { b with pos := if subSize b.pos amt > 0 then subSize b.pos amt else 0 }

/-- The first statement of `fill_buf`: a drained buffer starts over. -/
def restart (b : Buffer) : Buffer := if b.pos = b.filled then b.discardBuffer else b

/-- `fill_buf`, with the outcome of the reader's one `read`, should it be made. -/
def fillBuf (b : Buffer) (os : ReadOutcome) : Buffer × Except ErrorCode Span :=
  let b := b.restart
  if b.filled = b.capacity then (b, .ok Span.none)
  else
    match os.recv (b.bytes.length - b.filled) with
    | .ok bs =>
      let bytesRead := bs.length
      let b := { b with bytes := overwrite b.bytes b.filled bs, filled := b.filled + bytesRead }
      if bytesRead = 0 then (b, .ok Span.none)
      else (b, .ok ⟨b.filled - bytesRead, bytesRead⟩)
    | .error e => (b, .error e)

/-- `fill_buf` comes to its `read`: after the restart the array has a tail left. -/
def readsInner (b : Buffer) : Bool := b.restart.filled ≠ b.restart.capacity

end Buffer

/-- Writing inside the array leaves its length. -/
theorem length_overwrite {bytes bs : List UInt8} {i : Nat} (h : i + bs.length ≤ bytes.length) :
    (overwrite bytes i bs).length = bytes.length := by
  simp only [overwrite, List.length_append, List.length_take, List.length_drop]
  omega

/-- The bytes up to the end of the written ones. -/
theorem take_overwrite_end {bytes bs : List UInt8} {i : Nat} (hi : i ≤ bytes.length) :
    (overwrite bytes i bs).take (i + bs.length) = bytes.take i ++ bs := by
  have hlen : i + bs.length = (bytes.take i ++ bs).length := by
    rw [List.length_append, List.length_take]
    omega
  rw [overwrite, hlen, List.take_left]

/-- As many bytes are taken as the span has room for. -/
theorem ReadOutcome.recv_ok {bs : List UInt8} {space : Nat} :
    ReadOutcome.recv (.ok bs) space = .ok (bs.take space) := rfl

/-- An error takes no byte. -/
theorem ReadOutcome.recv_error {e : ErrorCode} {space : Nat} :
    ReadOutcome.recv (.error e) space = .error e := rfl

/-- Writing nothing changes nothing. -/
theorem overwrite_nil (bytes : List UInt8) (i : Nat) : overwrite bytes i [] = bytes := by
  rw [overwrite, List.append_nil, List.length_nil, Nat.add_zero, List.take_append_drop]

/-! ## Cursors in order -/

namespace Buffer

/-- The cursors are in order and inside the array. A capacity is a `size_t`, so sums and differences
of cursors in order do not wrap around. -/
structure Ordered (b : Buffer) : Prop where
  pos_le : b.pos ≤ b.filled
  filled_le : b.filled ≤ b.capacity
  size_eq : b.bytes.length = b.capacity
  capacity_lt : b.capacity < sizeBound

/-- The unread bytes: those that `buffer()` shows. -/
def unread (b : Buffer) : List UInt8 := b.view b.buffer

/-- The tail a read is offered. -/
def space (b : Buffer) : Nat := b.restart.bytes.length - b.restart.filled

/-- The bytes one `fill_buf` brings into the array. -/
def delivered (b : Buffer) (os : ReadOutcome) : List UInt8 :=
  if b.restart.filled = b.restart.capacity then []
  else
    match os.recv b.space with
    | .ok bs => bs
    | .error _ => []

variable {b : Buffer}

/-- A new buffer is empty and in order. -/
theorem ordered_new {capacity : Nat} (h : capacity < sizeBound) : (new capacity).Ordered where
  pos_le := Nat.le_refl _
  filled_le := Nat.zero_le _
  size_eq := List.length_replicate
  capacity_lt := h

/-- The cursors of a buffer in order are below the bound of `std::size_t`. -/
theorem Ordered.filled_lt (h : b.Ordered) : b.filled < sizeBound :=
  Nat.lt_of_le_of_lt h.filled_le h.capacity_lt

/-- The difference of cursors in order does not wrap around. -/
theorem Ordered.buffer_eq (h : b.Ordered) : b.buffer = ⟨b.pos, b.filled - b.pos⟩ := by
  rw [buffer, subSize_of_le h.pos_le h.filled_lt]

/-- The unread bytes are those between the cursors. -/
theorem Ordered.unread_eq (h : b.Ordered) : b.unread = (b.bytes.take b.filled).drop b.pos := by
  rw [unread, h.buffer_eq, view, List.drop_take]

/-- There are as many unread bytes as places between the cursors. -/
theorem Ordered.length_unread (h : b.Ordered) : b.unread.length = b.filled - b.pos := by
  have hfilled := h.filled_le
  have hsize := h.size_eq
  rw [h.unread_eq, List.length_drop, List.length_take]
  omega

/-- Discarding keeps the order. -/
theorem Ordered.discardBuffer (h : b.Ordered) : b.discardBuffer.Ordered where
  pos_le := Nat.le_refl _
  filled_le := Nat.zero_le _
  size_eq := h.size_eq
  capacity_lt := h.capacity_lt

/-- A buffer that was discarded has nothing to read. -/
theorem Ordered.unread_discardBuffer (h : b.Ordered) : b.discardBuffer.unread = [] := by
  rw [h.discardBuffer.unread_eq]
  rfl

/-- Consuming keeps the order, for any amount: the sum is below the end or the end is taken. -/
theorem Ordered.consume (h : b.Ordered) (amt : Nat) : (b.consume amt).Ordered where
  pos_le := by
    simp only [Buffer.consume]
    split
    · next hlt => exact Nat.le_of_lt hlt
    · exact Nat.le_refl _
  filled_le := h.filled_le
  size_eq := h.size_eq
  capacity_lt := h.capacity_lt

/-- Consuming takes the first unread bytes away. -/
theorem Ordered.unread_consume (h : b.Ordered) {amt : Nat} (hamt : amt ≤ b.unread.length) :
    (b.consume amt).unread = b.unread.drop amt := by
  have hp := h.pos_le
  have hf := h.filled_lt
  rw [h.length_unread] at hamt
  have hsum : addSize b.pos amt = b.pos + amt := addSize_of_lt (by omega)
  have hpos : (b.consume amt).pos = b.pos + amt := by
    simp only [Buffer.consume, hsum]
    split <;> omega
  rw [(h.consume amt).unread_eq, h.unread_eq, List.drop_drop, hpos]
  rfl

/-- So does consuming with a visitor. -/
theorem Ordered.consumeWith (h : b.Ordered) (amt : Nat) : (b.consumeWith amt).1.Ordered := by
  unfold Buffer.consumeWith
  split
  · exact h
  · exact h.consume amt

/-- Fewer bytes than asked for are unread: nothing is done. -/
theorem Ordered.consumeWith_of_lt (h : b.Ordered) {amt : Nat} (hamt : b.unread.length < amt) :
    b.consumeWith amt = (b, false, none) := by
  rw [h.length_unread] at hamt
  rw [Buffer.consumeWith, subSize_of_le h.pos_le h.filled_lt, if_pos hamt]

/-- The visitor is given the first unread bytes, which are then consumed. -/
theorem Ordered.consumeWith_of_le (h : b.Ordered) {amt : Nat} (hamt : amt ≤ b.unread.length) :
    b.consumeWith amt = (b.consume amt, true, some ⟨b.pos, amt⟩) ∧
      b.view ⟨b.pos, amt⟩ = b.unread.take amt := by
  constructor
  · rw [h.length_unread] at hamt
    rw [Buffer.consumeWith, subSize_of_le h.pos_le h.filled_lt, if_neg (Nat.not_lt.mpr hamt)]
  · rw [h.length_unread] at hamt
    rw [view, h.unread_eq, List.drop_take, List.take_take, Nat.min_eq_left hamt]

/-- Starting over keeps the order. -/
theorem Ordered.restart (h : b.Ordered) : b.restart.Ordered := by
  unfold Buffer.restart
  split
  · exact h.discardBuffer
  · exact h

/-- Only a drained buffer starts over. -/
theorem Ordered.unread_restart (h : b.Ordered) : b.restart.unread = b.unread := by
  unfold Buffer.restart
  split
  next heq =>
    have hlength := h.length_unread
    rw [heq, Nat.sub_self, List.length_eq_zero_iff] at hlength
    rw [hlength, h.unread_discardBuffer]
  next => rfl

/-- A read brings in no more than there is room for. -/
theorem length_delivered_le (b : Buffer) (os : ReadOutcome) :
    (b.delivered os).length ≤ b.space := by
  unfold delivered
  split
  · exact Nat.zero_le _
  · cases os with
    | error e => exact Nat.zero_le _
    | ok bs =>
      rw [ReadOutcome.recv_ok, List.length_take]
      exact Nat.min_le_left _ _

/-- What `fill_buf` does to the array, after the restart: the bytes of one read are written behind
those that are there. -/
theorem fillBuf_fst (b : Buffer) (os : ReadOutcome) : (b.fillBuf os).1 = { b.restart with
    bytes := overwrite b.restart.bytes b.restart.filled (b.delivered os)
    filled := b.restart.filled + (b.delivered os).length } := by
  unfold fillBuf delivered
  by_cases hfull : b.restart.filled = b.restart.capacity
  · simp only [if_pos hfull, overwrite_nil, List.length_nil, Nat.add_zero]
  · simp only [if_neg hfull]
    cases os with
    | error e => simp only [ReadOutcome.recv_error, overwrite_nil, List.length_nil, Nat.add_zero]
    | ok bs =>
      simp only [ReadOutcome.recv_ok, space]
      split
      · rfl
      · rfl

/-- `fill_buf` keeps the order: what it brings in fits behind what is there. -/
theorem Ordered.fillBuf (h : b.Ordered) (os : ReadOutcome) : (b.fillBuf os).1.Ordered := by
  have hrestart := h.restart
  have hle := hrestart.filled_le
  have hsize := hrestart.size_eq
  have hspace := b.length_delivered_le os
  unfold space at hspace
  rw [fillBuf_fst]
  refine ⟨Nat.le_add_right_of_le hrestart.pos_le, ?_, ?_, hrestart.capacity_lt⟩
  · simp only
    omega
  · rw [length_overwrite (by omega)]
    exact hsize

/-- One `fill_buf` appends to the unread bytes what it brought in. -/
theorem Ordered.unread_fillBuf (h : b.Ordered) (os : ReadOutcome) :
    (b.fillBuf os).1.unread = b.unread ++ b.delivered os := by
  have hrestart := h.restart
  have hpos := hrestart.pos_le
  have hle := hrestart.filled_le
  have hsize := hrestart.size_eq
  have hread : b.restart.pos ≤ (b.restart.bytes.take b.restart.filled).length := by
    rw [List.length_take]
    omega
  rw [(h.fillBuf os).unread_eq, ← h.unread_restart, hrestart.unread_eq, fillBuf_fst]
  simp only
  rw [take_overwrite_end (by omega), List.drop_append_of_le_length hread]

end Buffer

/-! ## The reader -/

/-- `io::BufReader`: a buffer of the default capacity whose cursors are in order. No call of a
reader moves a cursor back, so the order is a part of the type. -/
@[ext] structure BufReader where
  buf : Buffer
  pos_le : buf.pos ≤ buf.filled
  filled_le : buf.filled ≤ buf.capacity
  size_eq : buf.bytes.length = buf.capacity
  capacity_eq : buf.capacity = DEFAULT_BUF_SIZE
deriving DecidableEq, Repr

namespace BufReader

/-- `BufReader(inner)`. -/
def new : BufReader where
  buf := Buffer.new DEFAULT_BUF_SIZE
  pos_le := Nat.le_refl _
  filled_le := Nat.zero_le _
  size_eq := List.length_replicate
  capacity_eq := rfl

variable (r : BufReader)

/-- A reader's buffer is in order. -/
theorem ordered : r.buf.Ordered where
  pos_le := r.pos_le
  filled_le := r.filled_le
  size_eq := r.size_eq
  capacity_lt := by
    rw [r.capacity_eq]
    decide

/-- The unread bytes. -/
def unread : List UInt8 := r.buf.view r.buf.buffer

/-- Its view of the unread bytes. -/
theorem buffer_eq : r.buf.buffer = ⟨r.buf.pos, r.buf.filled - r.buf.pos⟩ := r.ordered.buffer_eq

/-- The unread bytes are those between the cursors. -/
theorem unread_eq : r.unread = (r.buf.bytes.take r.buf.filled).drop r.buf.pos :=
  r.ordered.unread_eq

/-- There are as many of them as places between the cursors. -/
@[simp] theorem length_unread : r.unread.length = r.buf.filled - r.buf.pos :=
  r.ordered.length_unread

/-- Nothing is unread exactly where the cursors meet. -/
theorem unread_eq_nil_iff : r.unread = [] ↔ r.buf.pos = r.buf.filled := by
  have h := r.pos_le
  rw [← List.length_eq_zero_iff, length_unread]
  omega

/-- A new reader has nothing to read. -/
@[simp] theorem unread_new : new.unread = [] := (unread_eq_nil_iff new).mpr rfl

/-! ## Consuming -/

/-- `BufReader::consume(amt)`. -/
def consume (amt : Nat) : BufReader where
  buf := r.buf.consume amt
  pos_le := (r.ordered.consume amt).pos_le
  filled_le := r.filled_le
  size_eq := r.size_eq
  capacity_eq := r.capacity_eq

/-- Consuming takes the first unread bytes away. -/
theorem unread_consume {amt : Nat} (h : amt ≤ r.unread.length) :
    (r.consume amt).unread = r.unread.drop amt := r.ordered.unread_consume h

/-! ## Filling -/

/-- The array is full behind unread bytes: no tail is left and `fill_buf` does not restart. -/
def full : Bool := r.buf.pos ≠ r.buf.filled ∧ r.buf.filled = r.buf.capacity

/-- The inner reader is asked exactly where the array is not full of unread bytes. -/
theorem readsInner_eq_not_full : r.buf.readsInner = !r.full := by
  have hcap : DEFAULT_BUF_SIZE ≠ 0 := by decide
  have h := r.capacity_eq
  unfold Buffer.readsInner full Buffer.restart Buffer.discardBuffer
  by_cases hp : r.buf.pos = r.buf.filled
  · simp [hp, h, hcap.symm]
  · simp [hp]

/-- Starting over leaves the capacity. -/
theorem capacity_restart : r.buf.restart.capacity = DEFAULT_BUF_SIZE := by
  unfold Buffer.restart Buffer.discardBuffer
  split
  · exact r.capacity_eq
  · exact r.capacity_eq

/-- `fill_buf` on a reader: the cursors stay in order. -/
def fillBuf (os : ReadOutcome) : BufReader × Except ErrorCode Span where
  fst :=
    { buf := (r.buf.fillBuf os).1
      pos_le := (r.ordered.fillBuf os).pos_le
      filled_le := (r.ordered.fillBuf os).filled_le
      size_eq := (r.ordered.fillBuf os).size_eq
      capacity_eq := by
        rw [Buffer.fillBuf_fst]
        exact r.capacity_restart }
  snd := (r.buf.fillBuf os).2

/-- The tail a read is offered. -/
def space : Nat := r.buf.restart.bytes.length - r.buf.restart.filled

/-- A reader that is not full has room for a read. -/
theorem space_pos (h : r.full = false) : 0 < r.space := by
  have hf := r.ordered.restart.filled_le
  have hs := r.ordered.restart.size_eq
  have hread := r.readsInner_eq_not_full
  rw [h, Bool.not_false, Buffer.readsInner, decide_eq_true_eq] at hread
  unfold space
  omega

/-- The bytes one `fill_buf` brings into the array. -/
def delivered (os : ReadOutcome) : List UInt8 :=
  if r.full then [] else
    match os with
    | .ok bs => bs.take r.space
    | .error _ => []

/-- It takes from the OS what there is room for. -/
theorem delivered_ok (h : r.full = false) (bs : List UInt8) :
    r.delivered (.ok bs) = bs.take r.space := by
  simp only [delivered, h, Bool.false_eq_true, if_false]

/-- A read that fails delivers nothing. -/
theorem delivered_error (e : ErrorCode) : r.delivered (.error e) = [] := by
  simp only [delivered, ite_self]

/-- After the restart the array is filled to its end exactly where the reader is full. -/
theorem restart_filled_eq_iff :
    r.buf.restart.filled = r.buf.restart.capacity ↔ r.full = true := by
  have h := r.readsInner_eq_not_full
  unfold Buffer.readsInner at h
  cases hf : r.full with
  | true => simpa [hf] using h
  | false => simpa [hf] using h

theorem delivered_eq (os : ReadOutcome) : r.delivered os = r.buf.delivered os := by
  unfold delivered Buffer.delivered
  simp only [r.restart_filled_eq_iff]
  split
  · rfl
  · cases os with
    | error e => rfl
    | ok bs => rfl

/-- One `fill_buf` appends to the unread bytes what it brought in. -/
theorem unread_fillBuf (os : ReadOutcome) :
    (r.fillBuf os).1.unread = r.unread ++ r.delivered os := by
  rw [delivered_eq]
  exact r.ordered.unread_fillBuf os

/-- A full array is left as it is, and the answer is the empty span: no read was made. -/
theorem fillBuf_full (h : r.full = true) (os : ReadOutcome) :
    r.fillBuf os = (r, .ok Span.none) := by
  have hne : r.buf.pos ≠ r.buf.filled := by
    unfold full at h
    exact (of_decide_eq_true h).1
  have hbuf : r.buf.fillBuf os = (r.buf, .ok Span.none) := by
    have hrestart : r.buf.restart = r.buf := by rw [Buffer.restart, if_neg hne]
    have heq := r.restart_filled_eq_iff.mpr h
    rw [hrestart] at heq
    simp only [Buffer.fillBuf, hrestart, if_pos heq]
  refine Prod.ext (BufReader.ext ?_) ?_
  · simp only [fillBuf, hbuf]
  · simp only [fillBuf, hbuf]

/-- A failing read changes no unread byte. -/
theorem fillBuf_error (h : r.full = false) (e : ErrorCode) :
    (r.fillBuf (.error e)).1.unread = r.unread ∧ (r.fillBuf (.error e)).2 = .error e := by
  have hne : ¬ r.buf.restart.filled = r.buf.restart.capacity := by
    rw [r.restart_filled_eq_iff, h]
    exact Bool.false_ne_true
  have hbuf : r.buf.fillBuf (.error e) = (r.buf.restart, .error e) := by
    simp only [Buffer.fillBuf, if_neg hne, ReadOutcome.recv_error]
  refine ⟨?_, by simp only [fillBuf, hbuf]⟩
  rw [r.unread_fillBuf, r.delivered_error, List.append_nil]

/-- A read that succeeds appends what it took to the unread bytes, and the answer is empty exactly
when it took nothing. -/
theorem fillBuf_ok (h : r.full = false) (bs : List UInt8) :
    (r.fillBuf (.ok bs)).1.unread = r.unread ++ bs.take r.space ∧
      ∃ s, (r.fillBuf (.ok bs)).2 = .ok s ∧ (s.empty = true ↔ bs = []) := by
  have hpos := r.space_pos h
  have hne : ¬ r.buf.restart.filled = r.buf.restart.capacity := by
    rw [r.restart_filled_eq_iff, h]
    exact Bool.false_ne_true
  constructor
  · rw [r.unread_fillBuf, r.delivered_ok h]
  · have hlen : (bs.take r.space).length = 0 ↔ bs = [] := by
      rw [List.length_take, ← List.length_eq_zero_iff]
      omega
    by_cases hnil : bs = []
    · refine ⟨Span.none, ?_, by simp only [hnil, iff_true]; rfl⟩
      simp only [fillBuf, Buffer.fillBuf, if_neg hne, ReadOutcome.recv_ok]
      rw [if_pos]
      exact hlen.mpr hnil
    · have hnz : ¬ (bs.take r.space).length = 0 := by
        intro h0
        exact hnil (hlen.mp h0)
      refine ⟨⟨r.buf.restart.filled + (bs.take r.space).length - (bs.take r.space).length,
        (bs.take r.space).length⟩, ?_, ?_⟩
      · simp only [fillBuf, Buffer.fillBuf, if_neg hne, ReadOutcome.recv_ok]
        rw [if_neg]
        · rfl
        · exact hnz
      · simp only [Span.empty, beq_iff_eq]
        exact hlen

/-- The empty answer: the array was full, or the read gave the end of the stream. -/
theorem fillBuf_empty_iff (os : ReadOutcome) :
    (∃ s, (r.fillBuf os).2 = .ok s ∧ s.empty = true) ↔ r.full = true ∨ os = .ok [] := by
  cases h : r.full with
  | true =>
    rw [r.fillBuf_full h os]
    exact ⟨fun _ => .inl rfl, fun _ => ⟨Span.none, rfl, rfl⟩⟩
  | false =>
    cases os with
    | error e =>
      rw [(r.fillBuf_error h e).2]
      simp
    | ok bs =>
      obtain ⟨-, s, hs, hiff⟩ := r.fillBuf_ok h bs
      rw [hs]
      constructor
      · rintro ⟨s', hs', he⟩
        cases hs'
        exact .inr (by rw [hiff.mp he])
      · rintro (hf | hnil)
        · cases hf
        · cases hnil
          exact ⟨s, rfl, hiff.mpr rfl⟩

/-- With the empty answer the array keeps its bytes. -/
theorem bytes_fillBuf_of_empty {os : ReadOutcome} (h : r.full = true ∨ os = .ok []) :
    (r.fillBuf os).1.buf.bytes = r.buf.bytes := by
  rcases h with hfull | rfl
  · rw [r.fillBuf_full hfull]
  · have hrestart : r.buf.restart.bytes = r.buf.bytes := by
      unfold Buffer.restart Buffer.discardBuffer
      split <;> rfl
    have hnone : r.buf.delivered (.ok []) = [] := by
      simp only [Buffer.delivered, ReadOutcome.recv_ok, List.take_nil, ite_self]
    simp only [fillBuf, Buffer.fillBuf_fst]
    rw [hnone, overwrite_nil, hrestart]

/-- Enough unread bytes fill the array. -/
theorem full_of_length_unread (h : r.unread.length = DEFAULT_BUF_SIZE) : r.full = true := by
  have hf := r.filled_le
  have hcap := r.capacity_eq
  have hpos : 0 < DEFAULT_BUF_SIZE := by decide
  rw [length_unread] at h
  unfold full
  rw [decide_eq_true_eq]
  omega

/-- The first read of a new reader. -/
theorem unread_fillBuf_new (bs : List UInt8) :
    (new.fillBuf (.ok bs)).1.unread = bs.take DEFAULT_BUF_SIZE := by
  have hfull : new.full = false := rfl
  have hspace : new.space = DEFAULT_BUF_SIZE := by
    simp only [space, new, Buffer.restart, Buffer.new, Buffer.discardBuffer, if_true,
      List.length_replicate, Nat.sub_zero]
  rw [(new.fillBuf_ok hfull bs).1, unread_new, hspace, List.nil_append]

/-! ## Views -/

/-- The view still shows the front of the unread bytes: it is empty, or it starts at the read cursor
and ends inside the filled part. -/
def Sees (s : Span) : Prop := s.size = 0 ∨ (s.offset = r.buf.pos ∧ s.offset + s.size ≤ r.buf.filled)

/-- The view is as long as there are unread bytes. -/
theorem size_buffer : r.buf.buffer.size = r.unread.length := by
  rw [buffer_eq, length_unread]

theorem sees_buffer : r.Sees r.buf.buffer := by
  have h := r.pos_le
  rw [buffer_eq]
  right
  constructor
  · rfl
  · simp only
    omega

theorem view_of_sees {s : Span} (h : r.Sees s) : r.buf.view s = r.unread.take s.size := by
  rcases h with h | ⟨ho, hle⟩
  · rw [Buffer.view, h, List.take_zero, List.take_zero]
  · rw [Buffer.view, unread_eq, List.drop_take, List.take_take, ho, Nat.min_eq_left (by omega)]

/-- Filling does not move what a view shows: the array restarts only under an empty one. -/
theorem Sees.fillBuf {s : Span} (h : r.Sees s) (os : ReadOutcome) : (r.fillBuf os).1.Sees s := by
  rcases h with h | ⟨ho, hle⟩
  · exact .inl h
  · by_cases hz : s.size = 0
    · exact .inl hz
    · have hne : ¬ r.buf.pos = r.buf.filled := by omega
      have hrestart : r.buf.restart = r.buf := by rw [Buffer.restart, if_neg hne]
      right
      simp only [BufReader.fillBuf, Buffer.fillBuf_fst, hrestart]
      exact ⟨ho, Nat.le_add_right_of_le hle⟩

end BufReader

end ProjectE.Net
