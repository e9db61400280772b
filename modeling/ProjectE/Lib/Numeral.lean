import Mathlib.Algebra.Group.Int.Defs
import Mathlib.Algebra.Group.Nat.Defs
import Mathlib.Data.List.Induction
import Mathlib.Data.List.TakeWhile

/-!
# Numbers in text

`std::stoul` and `std::stoi`, on a text that is a list of characters. Both skip white space, take a
sign, skip `0x` in base sixteen, and read the longest run of digits; what follows is not looked at.
Where there is no digit, and where the number is out of range, they throw. `std::to_string` writes
the digits of base ten that `Nat.toDigits` gives.

A text converts exactly where a digit stands behind the space and the sign (`numeral_ne_none_iff`);
a text of digits alone is read to its end (`numeral_of_allDigits`); and what was written is read
back in base ten (`value_toDigits`), while a larger base reads a larger number as soon as there are
two digits (`value_toDigits_eq_iff`).
-/

namespace Verif

/-- What the conversions throw. -/
inductive NumError where
  | invalidArgument
  | outOfRange
deriving DecidableEq, Repr

/-- `isspace`. -/
def isSpace (c : Char) : Bool := c == ' ' || (9 ≤ c.toNat && c.toNat ≤ 13)

/-- What a character counts for, as a digit of the largest base. -/
def digitValue (c : Char) : Option Nat :=
  if 48 ≤ c.toNat ∧ c.toNat ≤ 57 then some (c.toNat - 48)
  else if 97 ≤ c.toNat ∧ c.toNat ≤ 122 then some (c.toNat - 87)
  else if 65 ≤ c.toNat ∧ c.toNat ≤ 90 then some (c.toNat - 55)
  else none

/-- The value of a digit of this base; other characters have none. -/
def digit (base : Nat) (c : Char) : Option Nat := (digitValue c).filter (· < base)

/-- The character is a digit of this base. -/
def isDigit (base : Nat) (c : Char) : Bool := (digit base c).isSome

/-- The number that digits spell, the highest first. -/
def value (base : Nat) (cs : List Char) : Nat :=
  cs.foldl (fun n c => base * n + (digit base c).getD 0) 0

/-- Whether there is a minus, and what is behind the sign. -/
def sign : List Char → Bool × List Char
  | '-' :: cs => (true, cs)
  | '+' :: cs => (false, cs)
  | cs => (false, cs)

/-- In base sixteen `0x` is skipped, if a digit follows. -/
def skipPrefix (base : Nat) : List Char → List Char
  | '0' :: x :: c :: cs =>
    if base = 16 ∧ (x = 'x' ∨ x = 'X') ∧ isDigit base c then c :: cs else '0' :: x :: c :: cs
  | cs => cs

/-- The number a text begins with: whether it is negative, and its magnitude. -/
def numeral (base : Nat) (cs : List Char) : Option (Bool × Nat) :=
  let signed := sign (cs.dropWhile isSpace)
  let digits := (skipPrefix base signed.2).takeWhile (isDigit base)
  if digits = [] then none else some (signed.1, value base digits)

/-- `std::stoul`: a negative number comes round from the top of the 64-bit words. -/
def stoul (cs : List Char) (base : Nat) : Except NumError Nat :=
  match numeral base cs with
  | none => .error .invalidArgument
  | some (negative, n) =>
    if 2 ^ 64 ≤ n then .error .outOfRange
    else .ok (if negative then (2 ^ 64 - n) % 2 ^ 64 else n)

/-- `std::stoi`, to a 32-bit `int`. -/
def stoi (cs : List Char) (base : Nat) : Except NumError Int :=
  match numeral base cs with
  | none => .error .invalidArgument
  | some (negative, n) =>
    let i : Int := if negative then -n else n
    if i < -2 ^ 31 ∨ 2 ^ 31 ≤ i then .error .outOfRange else .ok i

/-- Behind white space and a sign the text begins with a digit. -/
def StartsNumeral (base : Nat) (cs : List Char) : Prop :=
  ∃ c rest, (sign (cs.dropWhile isSpace)).2 = c :: rest ∧ isDigit base c = true

/-- The text is digits, and not empty. -/
structure AllDigits (base : Nat) (cs : List Char) : Prop where
  ne_nil : cs ≠ []
  digit : ∀ c ∈ cs, isDigit base c = true

instance (base : Nat) (cs : List Char) : Decidable (AllDigits base cs) :=
  decidable_of_iff (cs ≠ [] ∧ cs.all (isDigit base) = true)
    ⟨fun h => ⟨h.1, List.all_eq_true.mp h.2⟩, fun h => ⟨h.1, List.all_eq_true.mpr h.2⟩⟩

variable {base : Nat} {cs ds : List Char} {c : Char}

/-! ## Digits -/

theorem digit_lt {d : Nat} (h : digit base c = some d) : d < base :=
  of_decide_eq_true (Option.filter_eq_some_iff.mp h).2

theorem digit_getD_lt (h : isDigit base c = true) : (digit base c).getD 0 < base := by
  obtain ⟨d, hd⟩ := Option.isSome_iff_exists.mp h
  rw [hd]
  exact digit_lt hd

/-- A digit is no space and no sign. -/
theorem range_of_isDigit (h : isDigit base c = true) :
    (48 ≤ c.toNat ∧ c.toNat ≤ 57) ∨ (65 ≤ c.toNat ∧ c.toNat ≤ 90) ∨
      (97 ≤ c.toNat ∧ c.toNat ≤ 122) := by
  obtain ⟨d, hd⟩ := Option.isSome_iff_exists.mp h
  have hvalue := (Option.filter_eq_some_iff.mp hd).1
  unfold digitValue at hvalue
  split at hvalue
  next h₁ => exact .inl h₁
  next =>
    split at hvalue
    next h₂ => exact .inr (.inr h₂)
    next =>
      split at hvalue
      next h₃ => exact .inr (.inl h₃)
      next => cases hvalue

theorem not_isSpace_of_isDigit (h : isDigit base c = true) : isSpace c = false := by
  have hrange := range_of_isDigit h
  rw [isSpace, Bool.or_eq_false_iff]
  refine ⟨?_, ?_⟩
  · rw [beq_eq_false_iff_ne]
    rintro rfl
    revert hrange
    decide
  · rw [Bool.and_eq_false_iff, decide_eq_false_iff_not, decide_eq_false_iff_not]
    omega

/-- No sign: the text is as it was. -/
theorem sign_of_isDigit (h : isDigit base c = true) : sign (c :: cs) = (false, c :: cs) := by
  have hrange := range_of_isDigit h
  unfold sign
  split
  next heq =>
    cases heq
    exact absurd hrange (by decide)
  next heq =>
    cases heq
    exact absurd hrange (by decide)
  next => rfl

/-! ## What converts -/

/-- Skipping `0x` leaves a digit in front where there was one, and makes none. -/
theorem takeWhile_skipPrefix_eq_nil_iff :
    (skipPrefix base cs).takeWhile (isDigit base) = [] ↔ cs.takeWhile (isDigit base) = [] := by
  unfold skipPrefix
  split
  next x c cs =>
    split
    next h =>
      obtain ⟨rfl, -, hc⟩ := h
      have hzero : isDigit 16 '0' = true := by decide
      rw [List.takeWhile_cons_of_pos hc, List.takeWhile_cons_of_pos hzero]
      exact ⟨fun h => absurd h (List.cons_ne_nil _ _), fun h => absurd h (List.cons_ne_nil _ _)⟩
    next => rfl
  next => rfl

theorem takeWhile_isDigit_ne_nil_iff :
    cs.takeWhile (isDigit base) ≠ [] ↔ ∃ c rest, cs = c :: rest ∧ isDigit base c = true := by
  cases cs with
  | nil => simp
  | cons c cs =>
    cases hc : isDigit base c with
    | false => simp [hc]
    | true => simp [hc]

/-- A text converts where a digit stands behind the space and the sign. -/
theorem numeral_ne_none_iff : numeral base cs ≠ none ↔ StartsNumeral base cs := by
  rw [StartsNumeral, ← takeWhile_isDigit_ne_nil_iff, ne_eq, ne_eq,
    ← takeWhile_skipPrefix_eq_nil_iff, numeral]
  split
  next h => exact ⟨fun hne => absurd rfl hne, fun hne => absurd h hne⟩
  next h => exact ⟨fun _ => h, fun _ hnone => by cases hnone⟩

/-- In a text of digits there is no `0x`. -/
theorem skipPrefix_of_allDigits (h : AllDigits base cs) : skipPrefix base cs = cs := by
  unfold skipPrefix
  split
  next x c cs =>
    split
    next hprefix =>
      obtain ⟨rfl, rfl | rfl, -⟩ := hprefix
      · exact absurd (h.digit 'x' (by simp)) (by decide)
      · exact absurd (h.digit 'X' (by simp)) (by decide)
    next => rfl
  next => rfl

/-- A text of digits alone is read to its end. -/
theorem numeral_of_allDigits (h : AllDigits base cs) :
    numeral base cs = some (false, value base cs) := by
  have hprefix := skipPrefix_of_allDigits h
  have htake : cs.takeWhile (isDigit base) = cs := List.takeWhile_eq_self_iff.mpr h.digit
  obtain ⟨c, rest, rfl⟩ := List.exists_cons_of_ne_nil h.ne_nil
  have hc : isDigit base c = true := h.digit c List.mem_cons_self
  have hspace : (c :: rest).dropWhile isSpace = c :: rest :=
    List.dropWhile_cons_of_neg (by rw [not_isSpace_of_isDigit hc]; exact Bool.false_ne_true)
  rw [numeral, hspace, sign_of_isDigit hc, hprefix, htake]
  exact if_neg h.ne_nil

/-! ## Values -/

theorem value_append (ds : List Char) (c : Char) :
    value base (ds ++ [c]) = base * value base ds + (digit base c).getD 0 := by
  rw [value, List.foldl_append]
  rfl

theorem value_lt (h : ∀ c ∈ cs, isDigit base c = true) : value base cs < base ^ cs.length := by
  induction cs using List.reverseRecOn with
  | nil => exact Nat.one_pos
  | append_singleton ds c ih =>
    have hds := ih fun c hc => h c (List.mem_append_left _ hc)
    have hc := digit_getD_lt (h c (by simp))
    have hstep : base * (value base ds + 1) ≤ base * base ^ ds.length :=
      Nat.mul_le_mul_left base hds
    rw [value_append, List.length_append, List.length_singleton, Nat.pow_succ']
    rw [Nat.mul_succ] at hstep
    omega

theorem length_sign_le (cs : List Char) : (sign cs).2.length ≤ cs.length := by
  unfold sign
  split
  next => exact Nat.le_succ _
  next => exact Nat.le_succ _
  next => exact Nat.le_refl _

theorem length_skipPrefix_le (base : Nat) (cs : List Char) :
    (skipPrefix base cs).length ≤ cs.length := by
  unfold skipPrefix
  split
  next =>
    split
    next => simp only [List.length_cons]; omega
    next => exact Nat.le_refl _
  next => exact Nat.le_refl _

/-- A text gives no larger number than its length allows. -/
theorem numeral_lt {negative : Bool} {n : Nat} (hbase : 0 < base)
    (h : numeral base cs = some (negative, n)) : n < base ^ cs.length := by
  unfold numeral at h
  simp only at h
  split at h
  next => cases h
  next =>
    cases h
    have hspace : (cs.dropWhile isSpace).length ≤ cs.length :=
      (List.dropWhile_sublist isSpace).length_le
    have hsign := length_sign_le (cs.dropWhile isSpace)
    have hprefix := length_skipPrefix_le base (sign (cs.dropWhile isSpace)).2
    have hdigits := (List.takeWhile_sublist (isDigit base)
      (l := skipPrefix base (sign (cs.dropWhile isSpace)).2)).length_le
    refine Nat.lt_of_lt_of_le (value_lt fun c hc => List.mem_takeWhile_imp hc) ?_
    exact Nat.pow_le_pow_right hbase (by omega)

/-- A text too short to be out of range converts where a digit stands behind space and sign. -/
theorem stoul_eq_ok_iff (hbase : 0 < base) (hshort : base ^ cs.length ≤ 2 ^ 64) :
    (∃ n, stoul cs base = .ok n) ↔ StartsNumeral base cs := by
  rw [← numeral_ne_none_iff, stoul]
  rcases hnumeral : numeral base cs with _ | ⟨negative, n⟩
  · simp
  · have hlt := numeral_lt hbase hnumeral
    have hrange : ¬ 2 ^ 64 ≤ n := by omega
    simp only [if_neg hrange, Except.ok.injEq, exists_eq', ne_eq, reduceCtorEq, not_false_eq_true]

theorem stoul_of_allDigits (h : AllDigits base cs) (hlt : value base cs < 2 ^ 64) :
    stoul cs base = .ok (value base cs) := by
  have hrange : ¬ 2 ^ 64 ≤ value base cs := Nat.not_le.mpr hlt
  simp only [stoul, numeral_of_allDigits h, if_neg hrange, Bool.false_eq_true, if_false]

/-- Where a text of digits converts, it is to the number that they spell. -/
theorem stoi_eq_value {i : Int} (h : AllDigits base cs) (hi : stoi cs base = .ok i) :
    i = value base cs := by
  simp only [stoi, numeral_of_allDigits h, Bool.false_eq_true, if_false] at hi
  split at hi
  next => cases hi
  next =>
    cases hi
    rfl

theorem stoi_of_allDigits (h : AllDigits base cs) (hlt : value base cs < 2 ^ 31) :
    stoi cs base = .ok (value base cs) := by
  have hrange : ¬ ((value base cs : Int) < -2 ^ 31 ∨ 2 ^ 31 ≤ (value base cs : Int)) := by omega
  simp only [stoi, numeral_of_allDigits h, Bool.false_eq_true, if_false, if_neg hrange]

/-! ## What `std::to_string` writes -/

/-- The digits of base ten are digits of every base from ten on, and count the same. -/
theorem digit_digitChar {d : Nat} (hbase : 10 ≤ base) (hd : d < 10) :
    digit base d.digitChar = some d := by
  have hvalue : digitValue d.digitChar = some d := by
    have htoNat := Nat.toNat_digitChar_of_lt_ten hd
    rw [digitValue, htoNat, if_pos (by omega), Nat.add_sub_cancel_left]
  rw [digit, hvalue, Option.filter_some, if_pos]
  exact decide_eq_true (Nat.lt_of_lt_of_le hd hbase)

theorem allDigits_toDigits (hbase : 10 ≤ base) (n : Nat) :
    AllDigits base (Nat.toDigits 10 n) := by
  refine ⟨Nat.toDigits_ne_nil, fun c hc => ?_⟩
  induction n using Nat.base_induction 10 (by decide) with
  | single d hd =>
    rw [Nat.toDigits_of_lt_base hd, List.mem_singleton] at hc
    rw [hc, isDigit, digit_digitChar hbase hd]
    rfl
  | digit n d hd hn ih =>
    rw [← Nat.toDigits_append_toDigits (by decide) hn hd, Nat.toDigits_of_lt_base hd,
      List.mem_append, List.mem_singleton] at hc
    rcases hc with hc | rfl
    · exact ih hc
    · rw [isDigit, digit_digitChar hbase hd]
      rfl

/-- The last digit counts once, the others `base` times. -/
theorem value_toDigits_step (hbase : 10 ≤ base) {n d : Nat} (hn : 0 < n) (hd : d < 10) :
    value base (Nat.toDigits 10 (10 * n + d)) = base * value base (Nat.toDigits 10 n) + d := by
  rw [← Nat.toDigits_append_toDigits (by decide) hn hd, Nat.toDigits_of_lt_base hd, value_append,
    digit_digitChar hbase hd, Option.getD_some]

theorem value_toDigits_of_lt (hbase : 10 ≤ base) {d : Nat} (hd : d < 10) :
    value base (Nat.toDigits 10 d) = d := by
  have hvalue : value base ([] ++ [d.digitChar]) = base * 0 + (digit base d.digitChar).getD 0 :=
    value_append [] d.digitChar
  rw [Nat.toDigits_of_lt_base hd, ← List.nil_append [d.digitChar], hvalue,
    digit_digitChar hbase hd, Option.getD_some, Nat.mul_zero, Nat.zero_add]

/-- What was written is read back. -/
theorem value_toDigits (n : Nat) : value 10 (Nat.toDigits 10 n) = n := by
  induction n using Nat.base_induction 10 (by decide) with
  | single d hd => exact value_toDigits_of_lt (Nat.le_refl 10) hd
  | digit n d hd hn ih => rw [value_toDigits_step (Nat.le_refl 10) hn hd, ih]

theorem le_value_toDigits (hbase : 10 ≤ base) (n : Nat) :
    n ≤ value base (Nat.toDigits 10 n) := by
  induction n using Nat.base_induction 10 (by decide) with
  | single d hd => exact Nat.le_of_eq (value_toDigits_of_lt hbase hd).symm
  | digit n d hd hn ih =>
    rw [value_toDigits_step hbase hn hd]
    exact Nat.add_le_add_right (Nat.mul_le_mul hbase ih) d

/-- A larger base reads the same number only where there is a single digit. -/
theorem value_toDigits_eq_iff (hbase : 10 < base) (n : Nat) :
    value base (Nat.toDigits 10 n) = n ↔ n < 10 := by
  constructor
  · intro hvalue
    by_contra hge
    have hn : 0 < n / 10 := by omega
    have hsplit : 10 * (n / 10) + n % 10 = n := Nat.div_add_mod n 10
    have hstep := value_toDigits_step (Nat.le_of_lt hbase) hn (Nat.mod_lt n (by decide))
    have hle := le_value_toDigits (Nat.le_of_lt hbase) (n / 10)
    have hmul : 11 * (n / 10) ≤ base * value base (Nat.toDigits 10 (n / 10)) :=
      Nat.mul_le_mul hbase hle
    rw [hsplit, hvalue] at hstep
    omega
  · exact value_toDigits_of_lt (Nat.le_of_lt hbase)

end Verif
