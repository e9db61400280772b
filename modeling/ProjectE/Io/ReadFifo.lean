import ProjectE.Lib.Transition
import ProjectE.Io.Buffer

/-!
# The read buffer as a queue

A `Buffer` of any capacity under any sequence of its operations. The reader may fail or give any
number of bytes that fits the tail it is offered. Beside the buffer the state records what the
reader delivered and what was consumed or discarded; the code has neither.

The law is that the consumed bytes and the unread ones are the delivered ones, in order
(`readFifo_lossless`): the cursors restart only where nothing is unread.
-/

namespace ProjectE.Net

open Verif

/-- A buffer with the bytes delivered to it, and those consumed or discarded so far. Both are
records that no code reads. -/
structure ReadFifo where
  buf : Buffer
  taken : List UInt8
  delivered : List UInt8
deriving DecidableEq, Repr

/-- An operation on the buffer; `fillBuf` comes with the outcome of the read. -/
inductive ReadOp where
  | fillBuf (os : ReadOutcome)
  | consume (amt : Nat)
  | consumeWith (amt : Nat)
  | discardBuffer
deriving Repr

namespace ReadFifo

/-- No more is consumed than there is. -/
def step (s : ReadFifo) : ReadOp → Option ReadFifo
  | .fillBuf os =>
    some ⟨(s.buf.fillBuf os).1, s.taken, s.delivered ++ s.buf.delivered os⟩
  | .consume amt =>
    if amt ≤ s.buf.unread.length then
      some ⟨s.buf.consume amt, s.taken ++ s.buf.unread.take amt, s.delivered⟩
    else none
  | .consumeWith amt =>
    some ⟨(s.buf.consumeWith amt).1,
      s.taken ++ ((s.buf.consumeWith amt).2.2.map s.buf.view).getD [], s.delivered⟩
  | .discardBuffer => some ⟨s.buf.discardBuffer, s.taken ++ s.buf.unread, s.delivered⟩

/-- Buffers of every capacity a `std::size_t` holds, from when they are made. -/
def machine : Machine ReadFifo ReadOp where
  init s := ∃ capacity : UInt64, s = ⟨.new capacity.toNat, [], []⟩
  step := step

/-- Nothing is lost, doubled or moved. -/
structure Lossless (s : ReadFifo) : Prop where
  ordered : s.buf.Ordered
  queue : s.taken ++ s.buf.unread = s.delivered

theorem lossless_init {s : ReadFifo} (h : machine.init s) : s.Lossless := by
  obtain ⟨capacity, rfl⟩ := h
  have hordered : (Buffer.new capacity.toNat).Ordered := Buffer.ordered_new capacity.toNat_lt
  refine ⟨hordered, ?_⟩
  rw [hordered.unread_eq]
  rfl

theorem Lossless.step {s t : ReadFifo} {op : ReadOp} (h : s.Lossless)
    (hstep : s.step op = some t) : t.Lossless := by
  cases op with
  | fillBuf os =>
    cases hstep
    refine ⟨h.ordered.fillBuf os, ?_⟩
    simp only [h.ordered.unread_fillBuf, ← List.append_assoc, h.queue]
  | consume amt =>
    simp only [ReadFifo.step] at hstep
    split at hstep
    next hamt =>
      cases hstep
      refine ⟨h.ordered.consume amt, ?_⟩
      simp only [h.ordered.unread_consume hamt, List.append_assoc, List.take_append_drop, h.queue]
    next => cases hstep
  | consumeWith amt =>
    cases hstep
    refine ⟨h.ordered.consumeWith amt, ?_⟩
    by_cases hamt : amt ≤ s.buf.unread.length
    · obtain ⟨heq, hview⟩ := h.ordered.consumeWith_of_le hamt
      simp only [heq, Option.map_some, Option.getD_some, hview, h.ordered.unread_consume hamt,
        List.append_assoc, List.take_append_drop, h.queue]
    · simp only [h.ordered.consumeWith_of_lt (Nat.lt_of_not_le hamt), Option.map_none,
        Option.getD_none, List.append_nil, h.queue]
  | discardBuffer =>
    cases hstep
    refine ⟨h.ordered.discardBuffer, ?_⟩
    simp only [h.ordered.unread_discardBuffer, List.append_nil, h.queue]

theorem lossless_of_reach {s : ReadFifo} (h : machine.Reach s) : s.Lossless :=
  h.invariant (fun _ hs => lossless_init hs) fun _ _ _ hs hstep => hs.step hstep

end ReadFifo

/-- **The read buffer is a lossless queue**: what was consumed or discarded, followed by what
`buffer()` shows, is what the reader delivered. `consume_with` shows its visitor the bytes it
consumes, or does nothing where fewer are unread, and a read that fails or gives no byte leaves the
unread bytes. -/
theorem readFifo_lossless {s : ReadFifo} (h : ReadFifo.machine.Reach s) :
    s.taken ++ s.buf.view s.buf.buffer = s.delivered ∧
    (∀ amt ≤ (s.buf.view s.buf.buffer).length, ∃ visited,
      s.buf.consumeWith amt = (s.buf.consume amt, true, some visited) ∧
      s.buf.view visited = (s.buf.view s.buf.buffer).take amt ∧
      (s.buf.consume amt).view (s.buf.consume amt).buffer =
        (s.buf.view s.buf.buffer).drop amt) ∧
    (∀ amt, (s.buf.view s.buf.buffer).length < amt →
      s.buf.consumeWith amt = (s.buf, false, none)) ∧
    ∀ os, os = .ok [] ∨ (∃ e, os = .error e) →
      (s.buf.fillBuf os).1.view (s.buf.fillBuf os).1.buffer = s.buf.view s.buf.buffer := by
  obtain ⟨hordered, hqueue⟩ := ReadFifo.lossless_of_reach h
  refine ⟨hqueue, fun amt hamt => ?_, fun amt hamt => hordered.consumeWith_of_lt hamt,
    fun os hos => ?_⟩
  · obtain ⟨heq, hview⟩ := hordered.consumeWith_of_le hamt
    exact ⟨_, heq, hview, hordered.unread_consume hamt⟩
  · have hnone : s.buf.delivered os = [] := by
      rcases hos with rfl | ⟨e, rfl⟩
      · simp only [Buffer.delivered, ReadOutcome.recv_ok, List.take_nil, ite_self]
      · simp only [Buffer.delivered, ReadOutcome.recv_error, ite_self]
    refine (hordered.unread_fillBuf os).trans ?_
    rw [hnone, List.append_nil]
    rfl

/-- Five bytes into a buffer of four, two of them consumed, and no room for the fifth. -/
theorem readFifo_lossless_four : ∃ s : ReadFifo, s.delivered = [1, 2, 3, 4] ∧
    s.taken ++ s.buf.view s.buf.buffer = [1, 2, 3, 4] := by
  have hreach : ∃ s, ReadFifo.machine.ReachUnder Machine.Any s ∧
      decide (s.delivered = [1, 2, 3, 4]) = true :=
    Machine.reachUnder_of_exec (M := ReadFifo.machine) (s := ⟨.new (4 : UInt64).toNat, [], []⟩)
      (l := [.fillBuf (.ok [1, 2, 3, 4, 5]), .consumeWith 2, .fillBuf (.ok [5]), .consumeWith 3])
      ⟨4, rfl⟩ (by decide +kernel)
  obtain ⟨s, hs, hdelivered⟩ := hreach
  have heq : s.delivered = [1, 2, 3, 4] := of_decide_eq_true hdelivered
  exact ⟨s, heq, heq ▸ (readFifo_lossless hs).1⟩

end ProjectE.Net
