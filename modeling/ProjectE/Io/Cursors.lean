import ProjectE.Lib.Transition
import ProjectE.Io.Buffer

/-!
# The cursors of the read buffer

A `Buffer` of any capacity under any sequence of all its operations, `unconsume` included, with any
amounts. Both clamps compare after the arithmetic, and the arithmetic is that of `std::size_t`: a
sum that wraps is below `_filled`, and a difference that wraps is above zero, so neither clamp acts
on the amounts it is there for. `consume_with` compares first and never wraps.

While no amount wraps the cursors stay in order (`inOrder_of_reach`), and in such a state the two
laws of movement hold of exactly the amounts that do not wrap (`cursors_move_exactly`). One
`unconsume` past the front puts `_pos` behind `_capacity`.
-/

namespace ProjectE.Net

open Verif

/-- An operation on a buffer; `fillBuf` comes with the outcome of the read. -/
inductive BufferOp where
  | fillBuf (os : ReadOutcome)
  | consume (amt : UInt64)
  | consumeWith (amt : UInt64)
  | unconsume (amt : UInt64)
  | discardBuffer
deriving Repr

namespace Buffer

/-- The buffer after a call. -/
def apply (b : Buffer) : BufferOp → Buffer
  | .fillBuf os => (b.fillBuf os).1
  | .consume amt => b.consume amt.toNat
  | .consumeWith amt => (b.consumeWith amt.toNat).1
  | .unconsume amt => b.unconsume amt.toNat
  | .discardBuffer => b.discardBuffer

/-- Buffers of every capacity a `std::size_t` holds, from when they are made. -/
def machine : Machine Buffer BufferOp where
  init b := ∃ capacity : UInt64, b = .new capacity.toNat
  step b op := some (b.apply op)

/-- `0 <= _pos <= _filled <= _capacity`, and `buffer()` is a part of the array. The second follows
from the first only where the difference does not wrap around. -/
structure InOrder (b : Buffer) : Prop where
  pos_le : b.pos ≤ b.filled
  filled_le : b.filled ≤ b.capacity
  offset_le : b.buffer.offset ≤ b.bytes.length
  size_le : b.buffer.size ≤ b.bytes.length - b.buffer.offset

/-- `consume(amt)` moves the cursor as it does in the integers. -/
def ConsumeLaw (b : Buffer) (amt : UInt64) : Prop :=
  ((b.consume amt.toNat).pos : Int) = min ((b.pos : Int) + amt.toNat) b.filled

/-- `unconsume(amt)` moves the cursor as it does in the integers. -/
def UnconsumeLaw (b : Buffer) (amt : UInt64) : Prop :=
  ((b.unconsume amt.toNat).pos : Int) = max ((b.pos : Int) - amt.toNat) 0

/-- The operation's arithmetic stays among the words. -/
def NoWrap (b : Buffer) : BufferOp → Prop
  | .consume amt => b.pos + amt.toNat < sizeBound
  | .unconsume amt => amt.toNat ≤ b.pos
  | _ => True

variable {b : Buffer}

theorem Ordered.inOrder (h : b.Ordered) : b.InOrder := by
  have hpos := h.pos_le
  have hfilled := h.filled_le
  have hsize := h.size_eq
  refine ⟨hpos, hfilled, ?_, ?_⟩
  · rw [h.buffer_eq]
    simp only
    omega
  · rw [h.buffer_eq]
    simp only
    omega

/-! ## What one operation does to the cursor -/

/-- Going back no further than the front goes back by the amount. -/
theorem pos_unconsume_of_le {amt : Nat} (hamt : amt ≤ b.pos) (hpos : b.pos < sizeBound) :
    (b.unconsume amt).pos = b.pos - amt := by
  simp only [unconsume, subSize_of_le hamt hpos]
  split
  · rfl
  · omega

/-- Going back further comes round from the top of the words. -/
theorem pos_unconsume_of_lt {amt : Nat} (hamt : b.pos < amt) (hlt : amt < sizeBound) :
    (b.unconsume amt).pos = sizeBound - (amt - b.pos) := by
  have hpositive : sizeBound - (amt - b.pos) > 0 := by omega
  simp only [unconsume, subSize_of_lt hamt hlt, if_pos hpositive]

theorem pos_consume_of_lt {amt : Nat} (hsum : b.pos + amt < sizeBound) :
    (b.consume amt).pos = min (b.pos + amt) b.filled := by
  simp only [consume, addSize_of_lt hsum]
  split
  next hlt => exact (Nat.min_eq_left (Nat.le_of_lt hlt)).symm
  next hge => exact (Nat.min_eq_right (Nat.not_lt.mp hge)).symm

/-- A sum that wraps ends below the cursor it started from. -/
theorem Ordered.pos_consume_lt (h : b.Ordered) {amt : Nat} (hlt : amt < sizeBound)
    (hsum : sizeBound ≤ b.pos + amt) : (b.consume amt).pos < b.pos := by
  have hle := h.pos_le
  have hpos : b.pos < sizeBound := Nat.lt_of_le_of_lt hle h.filled_lt
  have hwrapped := addSize_of_ge hpos hlt hsum
  have hbelow : b.pos + amt - sizeBound < b.filled := by omega
  simp only [Buffer.consume, hwrapped, if_pos hbelow]
  omega

theorem Ordered.unconsume (h : b.Ordered) {amt : Nat} (hamt : amt ≤ b.pos) :
    (b.unconsume amt).Ordered where
  pos_le := by
    have hle := h.pos_le
    rw [pos_unconsume_of_le hamt (Nat.lt_of_le_of_lt hle h.filled_lt)]
    exact Nat.le_trans (Nat.sub_le _ _) hle
  filled_le := h.filled_le
  size_eq := h.size_eq
  capacity_lt := h.capacity_lt

theorem Ordered.apply (h : b.Ordered) {op : BufferOp} (hop : b.NoWrap op) :
    (b.apply op).Ordered := by
  cases op with
  | fillBuf os => exact h.fillBuf os
  | consume amt => exact h.consume amt.toNat
  | consumeWith amt => exact h.consumeWith amt.toNat
  | unconsume amt => exact h.unconsume hop
  | discardBuffer => exact h.discardBuffer

theorem ordered_of_reach (h : machine.ReachUnder NoWrap b) : b.Ordered := by
  refine h.invariant ?_ ?_
  · rintro b ⟨capacity, rfl⟩
    exact ordered_new capacity.toNat_lt
  · intro b op b' hb hop hstep
    cases hstep
    exact hb.apply hop

/-- The law of `consume` holds of exactly the amounts whose sum does not wrap. -/
theorem Ordered.consumeLaw_iff (h : b.Ordered) (amt : UInt64) :
    b.ConsumeLaw amt ↔ b.pos + amt.toNat < sizeBound := by
  have hle := h.pos_le
  unfold ConsumeLaw
  constructor
  · intro hlaw
    by_contra hsum
    have hwrapped := h.pos_consume_lt amt.toNat_lt (Nat.not_lt.mp hsum)
    omega
  · intro hsum
    rw [pos_consume_of_lt hsum]
    omega

/-- The law of `unconsume` holds of exactly the amounts that stay behind the front. -/
theorem Ordered.unconsumeLaw_iff (h : b.Ordered) (amt : UInt64) :
    b.UnconsumeLaw amt ↔ amt.toNat ≤ b.pos := by
  have hpos : b.pos < sizeBound := Nat.lt_of_le_of_lt h.pos_le h.filled_lt
  have hamt : amt.toNat < sizeBound := amt.toNat_lt
  unfold UnconsumeLaw
  constructor
  · intro hlaw
    by_contra hlt
    rw [pos_unconsume_of_lt (Nat.not_le.mp hlt) hamt] at hlaw
    omega
  · intro hle
    rw [pos_unconsume_of_le hle hpos]
    omega

/-- **The cursors move exactly where no arithmetic wraps**: in every state a run of such operations
reaches they are in order, and the next `consume` or `unconsume` moves as in the integers if and
only if it does not wrap. -/
theorem cursors_move_exactly (h : machine.ReachUnder NoWrap b) :
    b.InOrder ∧ (∀ amt, b.ConsumeLaw amt ↔ b.pos + amt.toNat < 2 ^ 64) ∧
      ∀ amt, b.UnconsumeLaw amt ↔ amt.toNat ≤ b.pos := by
  have hordered := ordered_of_reach h
  exact ⟨hordered.inOrder, hordered.consumeLaw_iff, hordered.unconsumeLaw_iff⟩

/-- A buffer of four bytes, two of them read and one taken back. -/
theorem cursors_move_exactly_four : ∃ b, machine.ReachUnder NoWrap b ∧ b.pos = 1 ∧
    b.UnconsumeLaw 1 ∧ ¬ b.UnconsumeLaw 2 := by
  let ops : List BufferOp := [.fillBuf (.ok [1, 2, 3]), .consume 2, .unconsume 1]
  let b := ops.foldl apply (.new (4 : UInt64).toNat)
  have hinit : machine.ReachUnder NoWrap (.new (4 : UInt64).toNat) := .init ⟨4, rfl⟩
  have hfill : machine.ReachUnder NoWrap ((new 4).apply (.fillBuf (.ok [1, 2, 3]))) :=
    hinit.step (a := .fillBuf (.ok [1, 2, 3])) trivial rfl
  have hconsume := hfill.step (a := .consume 2) (by unfold NoWrap; decide) rfl
  have hreach : machine.ReachUnder NoWrap b :=
    hconsume.step (a := .unconsume 1) (by unfold NoWrap; decide) rfl
  have hlaw := (cursors_move_exactly hreach).2.2
  exact ⟨b, hreach, rfl, (hlaw 1).mpr (by decide), fun h => absurd ((hlaw 2).mp h) (by decide)⟩

/-- Taking back one byte of a new buffer. -/
theorem not_cursors_move : ¬ ∀ b, machine.Reach b →
    b.InOrder ∧ ∀ amt, b.ConsumeLaw amt ∧ b.UnconsumeLaw amt := by
  intro h
  have hinit : machine.Reach (.new (4 : UInt64).toNat) := .init ⟨4, rfl⟩
  have hreach : machine.Reach ((new 4).unconsume 1) :=
    hinit.step (a := .unconsume 1) trivial rfl
  exact absurd (h _ hreach).1.pos_le (by decide)

end Buffer

end ProjectE.Net
