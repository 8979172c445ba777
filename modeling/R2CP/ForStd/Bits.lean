import Mathlib

/-!
# Bits, most significant first

`Nat.bitsBE n v` are the low `n` bits of `v`, the most significant first. The digits of
a number in base `2 ^ w`, written with `w` bits each, are the bits of the number, so
two ways to cut the same bits into digits can be compared through the number.

## Key results

- `Nat.bitsBE_inj`: below `2 ^ n` a number is its bits
- `Nat.flatMap_bitsBE_digits`: the bits of the digits are the bits of the number
- `List.flatMap_take_block`, `List.flatMap_block_inj`: lists written in blocks of one length
-/

namespace Nat

/-- The low `n` bits of `v`. -/
def bitsBE : (n v : Nat) → List Bool
  | 0, _ => []
  | n + 1, v => v.testBit n :: bitsBE n v

/-- There are as many bits as one asks for. -/
@[simp] theorem length_bitsBE (n v : Nat) : (bitsBE n v).length = n := by
  induction n with
  | zero => rfl
  | succ n ih => rw [bitsBE, List.length_cons, ih]

/-- The high bits come first. -/
theorem bitsBE_append (m n v : Nat) :
    bitsBE m (v / 2 ^ n) ++ bitsBE n v = bitsBE (m + n) v := by
  induction m with
  | zero => rw [Nat.zero_add, bitsBE, List.nil_append]
  | succ m ih =>
    have hbit : (v / 2 ^ n).testBit m = v.testBit (m + n) := Nat.testBit_div_two_pow v m
    rw [Nat.add_right_comm, bitsBE, bitsBE, List.cons_append, ih, hbit]

/-- Only the low bits are looked at. -/
theorem bitsBE_congr {n v w : Nat} (h : ∀ i < n, v.testBit i = w.testBit i) :
    bitsBE n v = bitsBE n w := by
  induction n with
  | zero => rfl
  | succ n ih =>
    rw [bitsBE, bitsBE, h n (Nat.lt_succ_self n), ih fun i hi => h i (Nat.lt_succ_of_lt hi)]

/-- The high bits do not count. -/
theorem bitsBE_mod_two_pow (n v : Nat) : bitsBE n (v % 2 ^ n) = bitsBE n v := by
  apply bitsBE_congr
  intro i hi
  rw [Nat.testBit_mod_two_pow, decide_eq_true hi, Bool.true_and]

/-- Numbers below `2 ^ n` have different bits. -/
theorem bitsBE_inj {n v w : Nat} (hv : v < 2 ^ n) (hw : w < 2 ^ n)
    (h : bitsBE n v = bitsBE n w) : v = w := by
  induction n generalizing v w with
  | zero =>
    rw [Nat.pow_zero] at hv hw
    omega
  | succ n ih =>
    rw [bitsBE, bitsBE, List.cons.injEq] at h
    obtain ⟨hbit, hbits⟩ := h
    rw [← bitsBE_mod_two_pow n v, ← bitsBE_mod_two_pow n w] at hbits
    have hlow := ih (Nat.mod_lt v (Nat.two_pow_pos n)) (Nat.mod_lt w (Nat.two_pow_pos n)) hbits
    -- bit by bit: below `n`, at `n`, and above, where both are zero
    apply Nat.eq_of_testBit_eq
    intro i
    rcases Nat.lt_trichotomy i n with hi | rfl | hi
    · have hv' := Nat.testBit_mod_two_pow v n i
      have hw' := Nat.testBit_mod_two_pow w n i
      rw [decide_eq_true hi, Bool.true_and] at hv' hw'
      rw [← hv', ← hw', hlow]
    · exact hbit
    · have hpow : 2 ^ (n + 1) ≤ 2 ^ i := Nat.pow_le_pow_right (by decide) hi
      rw [Nat.testBit_lt_two_pow (Nat.lt_of_lt_of_le hv hpow),
        Nat.testBit_lt_two_pow (Nat.lt_of_lt_of_le hw hpow)]

/-- The bits of a number's digits in base `2 ^ w` are the bits of the number. -/
theorem flatMap_bitsBE_digits (w : Nat) {digits : List Nat} (h : ∀ d ∈ digits, d < 2 ^ w) :
    digits.reverse.flatMap (bitsBE w) =
      bitsBE (w * digits.length) (Nat.ofDigits (2 ^ w) digits) := by
  induction digits with
  | nil => rfl
  | cons d digits ih =>
    have hd : d < 2 ^ w := h d (by simp)
    -- the first digit is the least significant one
    have hdiv : Nat.ofDigits (2 ^ w) (d :: digits) / 2 ^ w = Nat.ofDigits (2 ^ w) digits := by
      rw [Nat.ofDigits_cons, Nat.add_mul_div_left _ _ (Nat.two_pow_pos w),
        Nat.div_eq_of_lt hd, Nat.zero_add]
    have hmod : Nat.ofDigits (2 ^ w) (d :: digits) % 2 ^ w = d := by
      rw [Nat.ofDigits_cons, Nat.add_mul_mod_self_left, Nat.mod_eq_of_lt hd]
    -- it goes last, behind the bits of the others
    rw [List.reverse_cons, List.flatMap_append, ih fun d' hd' => h d' (by simp [hd']),
      List.flatMap_singleton, List.length_cons, Nat.mul_succ, ← bitsBE_append, hdiv,
      ← bitsBE_mod_two_pow w (Nat.ofDigits (2 ^ w) (d :: digits)), hmod]

end Nat

namespace List

variable {α β : Type} {f : α → List β} {w : Nat}

/-- Blocks of one length, all together. -/
theorem length_flatMap_block (h : ∀ x, (f x).length = w) (xs : List α) :
    (xs.flatMap f).length = w * xs.length := by
  induction xs with
  | nil => rfl
  | cons x xs ih => rw [flatMap_cons, length_append, h, ih, length_cons, Nat.mul_succ, Nat.add_comm]

/-- The first `n` blocks are the blocks of the first `n` elements. -/
theorem flatMap_take_block (h : ∀ x, (f x).length = w) (xs : List α) (n : Nat) :
    (xs.take n).flatMap f = (xs.flatMap f).take (w * n) := by
  induction xs generalizing n with
  | nil => rw [take_nil, flatMap_nil, take_nil]
  | cons x xs ih =>
    cases n with
    | zero => rfl
    | succ n =>
      rw [take_succ_cons, flatMap_cons, flatMap_cons, ih, Nat.mul_succ, Nat.add_comm, ← h x,
        take_length_add_append]

/-- Different lists have different blocks, if different elements do. -/
theorem flatMap_block_inj (hpos : 0 < w) (h : ∀ x, (f x).length = w) (hinj : Function.Injective f)
    {xs ys : List α} (heq : xs.flatMap f = ys.flatMap f) : xs = ys := by
  induction xs generalizing ys with
  | nil =>
    have hlen := congrArg length heq
    rw [length_flatMap_block h ys, flatMap_nil, length_nil] at hlen
    -- no blocks mean no elements, since a block is not empty
    have hys : ys.length = 0 := by
      rcases Nat.mul_eq_zero.mp hlen.symm with hw | hys
      · omega
      · exact hys
    rw [length_eq_zero_iff.mp hys]
  | cons x xs ih =>
    cases ys with
    | nil =>
      have hlen := congrArg length heq
      rw [length_flatMap_block h, flatMap_nil, length_nil, length_cons, Nat.mul_succ] at hlen
      omega
    | cons y ys =>
      rw [flatMap_cons, flatMap_cons] at heq
      -- the first blocks have one length, so the lists are cut at one place
      obtain ⟨hx, hxs⟩ := append_inj heq (by rw [h, h])
      rw [hinj hx, ih hxs]

end List
