import Mathlib.Data.Nat.Basic
import Mathlib.Tactic.Ring

/-!
# Fixed-width unsigned words

Unsigned words of a little-endian host, as naturals. `addSize` and `subSize` are addition and
subtraction of 64-bit words, which wrap; where the result fits they are those of the naturals.
`leBytes k n` is the image of a number in `k` bytes of memory, low byte first, and `leNat` reads any
byte string back: the two are inverse on the numbers below `256 ^ k` and on the strings of length
`k`.
-/

namespace Verif

/-! ## Wrapping arithmetic -/

/-- The number of 64-bit words. -/
def sizeBound : Nat := 2 ^ 64

/-- Addition of 64-bit words. -/
def addSize (a b : Nat) : Nat := (a + b) % sizeBound

/-- Subtraction of 64-bit words. -/
def subSize (a b : Nat) : Nat := (a + (sizeBound - b % sizeBound)) % sizeBound

theorem addSize_of_lt {a b : Nat} (h : a + b < sizeBound) : addSize a b = a + b :=
  Nat.mod_eq_of_lt h

theorem subSize_of_le {a b : Nat} (hba : b ≤ a) (ha : a < sizeBound) : subSize a b = a - b := by
  have hb : b < sizeBound := Nat.lt_of_le_of_lt hba ha
  have hsum : a + (sizeBound - b) = a - b + sizeBound := by omega
  rw [subSize, Nat.mod_eq_of_lt hb, hsum, Nat.add_mod_right, Nat.mod_eq_of_lt (by omega)]

/-- A sum of two words that does not fit loses one turn of the words. -/
theorem addSize_of_ge {a b : Nat} (ha : a < sizeBound) (hb : b < sizeBound)
    (h : sizeBound ≤ a + b) : addSize a b = a + b - sizeBound := by
  rw [addSize, Nat.mod_eq_sub_mod h, Nat.mod_eq_of_lt (by omega)]

/-- A difference below zero comes round from the top. -/
theorem subSize_of_lt {a b : Nat} (hab : a < b) (hb : b < sizeBound) :
    subSize a b = sizeBound - (b - a) := by
  have hsum : a + (sizeBound - b) = sizeBound - (b - a) := by omega
  rw [subSize, Nat.mod_eq_of_lt hb, hsum, Nat.mod_eq_of_lt (by omega)]

/-! ## Byte images -/

/-- The `k` low bytes of `n`, low byte first. -/
def leBytes : Nat → Nat → List UInt8
  | 0, _ => []
  | k + 1, n => UInt8.ofNat n :: leBytes k (n / 256)

/-- The number a byte string spells, low byte first. -/
def leNat : List UInt8 → Nat
  | [] => 0
  | b :: bs => b.toNat + 256 * leNat bs

@[simp] theorem length_leBytes : ∀ k n : Nat, (leBytes k n).length = k
  | 0, _ => rfl
  | k + 1, n => by simp only [leBytes, List.length_cons, length_leBytes k]

/-- The image keeps the number modulo the width. -/
theorem leNat_leBytes_mod : ∀ k n : Nat, leNat (leBytes k n) = n % 256 ^ k
  | 0, n => by simp only [leBytes, leNat, pow_zero, Nat.mod_one]
  | k + 1, n => by
    have hsplit : n % 256 ^ (k + 1) = n % 256 + 256 * (n / 256 % 256 ^ k) := by
      rw [pow_succ', Nat.mod_mul]
    simp only [leBytes, leNat, UInt8.toNat_ofNat', leNat_leBytes_mod k, hsplit]

theorem leNat_leBytes {k n : Nat} (h : n < 256 ^ k) : leNat (leBytes k n) = n := by
  rw [leNat_leBytes_mod, Nat.mod_eq_of_lt h]

theorem leNat_lt : ∀ bs : List UInt8, leNat bs < 256 ^ bs.length
  | [] => by decide
  | b :: bs => by
    have hb := b.toNat_lt
    have ih := leNat_lt bs
    rw [List.length_cons, pow_succ, leNat]
    omega

/-- An image is the images of its low and its high bytes. -/
theorem leBytes_add : ∀ j k n : Nat, leBytes (j + k) n = leBytes j n ++ leBytes k (n / 256 ^ j)
  | 0, k, n => by rw [Nat.zero_add, pow_zero, Nat.div_one, leBytes, List.nil_append]
  | j + 1, k, n => by
    rw [Nat.add_right_comm, leBytes, leBytes, leBytes_add j k, Nat.div_div_eq_div_mul,
      ← pow_succ', List.cons_append]

/-- Every string of length `k` is the image of the number it spells. -/
theorem leBytes_leNat : ∀ {k : Nat} {bs : List UInt8}, bs.length = k → leBytes k (leNat bs) = bs
  | 0, [], _ => rfl
  | k + 1, b :: bs, h => by
    have hb := b.toNat_lt
    have hdiv : (b.toNat + 256 * leNat bs) / 256 = leNat bs := by omega
    have hhead : UInt8.ofNat (b.toNat + 256 * leNat bs) = b := by
      apply UInt8.toNat_inj.mp
      rw [UInt8.toNat_ofNat']
      omega
    have hlen : bs.length = k := by simpa only [List.length_cons, Nat.succ.injEq] using h
    rw [leNat, leBytes, hdiv, hhead, leBytes_leNat hlen]

/-- An image tells the number modulo the width, and no more. -/
theorem leBytes_inj {k m n : Nat} : leBytes k m = leBytes k n ↔ m % 256 ^ k = n % 256 ^ k := by
  constructor
  · intro h
    rw [← leNat_leBytes_mod, ← leNat_leBytes_mod, h]
  · intro h
    rw [← leBytes_leNat (length_leBytes k m), leNat_leBytes_mod, h, ← leNat_leBytes_mod,
      leBytes_leNat (length_leBytes k n)]

/-! ## Byte order -/

/-- The number whose image is that of `n` from the other end. -/
def swapBytes (k n : Nat) : Nat := leNat (leBytes k n).reverse

theorem leBytes_swapBytes (k n : Nat) : leBytes k (swapBytes k n) = (leBytes k n).reverse :=
  leBytes_leNat (by rw [List.length_reverse, length_leBytes])

theorem swapBytes_lt (k n : Nat) : swapBytes k n < 256 ^ k := by
  have h := leNat_lt (leBytes k n).reverse
  rwa [List.length_reverse, length_leBytes] at h

theorem swapBytes_swapBytes {k n : Nat} (h : n < 256 ^ k) : swapBytes k (swapBytes k n) = n := by
  rw [swapBytes, leBytes_swapBytes, List.reverse_reverse, leNat_leBytes h]

/-- One of several images that lie side by side. -/
theorem take_drop_flatMap_leBytes (k : Nat) : ∀ (ns : List Nat) (i : Nat) (hi : i < ns.length),
    ((ns.flatMap (leBytes k)).drop (k * i)).take k = leBytes k ns[i]
  | n :: ns, 0, _ => by
    rw [List.flatMap_cons, Nat.mul_zero, List.drop_zero, List.getElem_cons_zero]
    exact List.take_left' (length_leBytes k n)
  | n :: ns, i + 1, hi => by
    have hi : i < ns.length := Nat.lt_of_succ_lt_succ hi
    have hskip : k * (i + 1) = (leBytes k n).length + k * i := by
      rw [length_leBytes, Nat.mul_succ, Nat.add_comm]
    rw [List.flatMap_cons, hskip, ← List.drop_drop, List.drop_left, List.getElem_cons_succ]
    exact take_drop_flatMap_leBytes k ns i hi

end Verif
