import AtomicRules.Proofs.ModularArithmetic

/-!
# Two's complement

A pattern of `w` bits stands for two numbers. Without a sign it is the number of its bits;
with a sign, `Bits.signed`, the patterns of the upper half stand for what is `2 ^ w` below
that. The vector without bits has one pattern, and it stands for zero either way. The top
bit says which half a pattern is in, so it is the sign.

A negative pattern has ones above it, as many as are looked at. Of `n` of them with the
pattern below, the number is `2 ^ (w + n)` away from the signed one, and that is what sign
extensions and arithmetic shifts are computed from.

## Main results

* `Bits.isNegative_iff` — the top bit is the half that a pattern is in.
* `Bits.signed_range`, `Bits.signed_emod` — the signed number lies around zero, and is the
  number without a sign modulo `2 ^ w`.
* `or_ones_above`, `Bits.signed_eq_extended` — a negative pattern with ones above it.
-/

namespace AtomicRules

variable {w : Nat}

/-- Filling in ones above a pattern is adding them. -/
theorem or_ones_above {x : Nat} (h : x < 2 ^ w) (n : Nat) :
    x ||| ((2 ^ (w + n) - 1) ^^^ (2 ^ w - 1)) = (2 ^ n - 1) * 2 ^ w + x := by
  rw [← shiftLeft_or_eq h]
  apply Nat.eq_of_testBit_eq
  intro place
  simp only [Nat.testBit_or, Nat.testBit_xor, Nat.testBit_shiftLeft, Nat.testBit_two_pow_sub_one]
  by_cases hPlace : place < w
  · have hInside : place < w + n := by omega
    have hBelow : ¬ place ≥ w := by omega
    simp only [hPlace, hInside, hBelow, decide_true, decide_false, Bool.xor_self, Bool.or_false,
      Bool.false_and, Bool.false_or]
  · have hAbove : place ≥ w := by omega
    have hOffset : place - w < n ↔ place < w + n := by omega
    simp only [hPlace, hAbove, hOffset, decide_true, decide_false, Bool.xor_false, Bool.true_and,
      Bool.or_comm]

namespace Bits

/-- The two's complement number of a vector. -/
def signed (a : Bits w) : Int :=
  if 2 * a.toNat < 2 ^ w then a.toNat else (a.toNat : Int) - (2 ^ w : Nat)

theorem isNegative_iff (a : Bits w) : a.isNegative = true ↔ 2 ^ w ≤ 2 * a.toNat := by
  have hlt : a.toNat < 2 ^ w := a.toNat_lt
  show (decide (0 < w) && a.toNat.testBit (w - 1)) = true ↔ _
  cases w with
  | zero =>
      rw [Nat.pow_zero] at hlt ⊢
      simp only [Nat.lt_irrefl, decide_false, Bool.false_and, Bool.false_eq_true, false_iff]
      omega
  | succ w =>
      rw [Nat.pow_succ] at hlt ⊢
      have hTop : a.toNat.testBit w = true ↔ 2 ^ w ≤ a.toNat := by
        refine ⟨Nat.ge_two_pow_of_testBit, fun hle => ?_⟩
        have hOne : a.toNat / 2 ^ w = 1 := Nat.div_eq_of_lt_le (by omega) (by omega)
        rw [Nat.testBit_eq_decide_div_mod_eq, hOne]
        rfl
      simp only [Nat.zero_lt_succ, decide_true, Bool.true_and, Nat.add_sub_cancel, hTop]
      omega

theorem not_negative_iff (a : Bits w) : a.isNegative = false ↔ 2 * a.toNat < 2 ^ w := by
  rw [← Bool.not_eq_true, isNegative_iff, Nat.not_le]

theorem signed_of_negative {a : Bits w} (h : a.isNegative = true) :
    a.signed = (a.toNat : Int) - (2 ^ w : Nat) :=
  if_neg (Nat.not_lt.2 ((isNegative_iff a).1 h))

theorem signed_of_not_negative {a : Bits w} (h : a.isNegative = false) :
    a.signed = a.toNat :=
  if_pos ((not_negative_iff a).1 h)

theorem signed_range (a : Bits w) :
    -((2 ^ w : Nat) : Int) ≤ 2 * a.signed ∧ 2 * a.signed < (2 ^ w : Nat) := by
  have hlt := a.toNat_lt
  unfold signed
  split <;> constructor <;> omega

theorem signed_emod (a : Bits w) : a.signed % (2 ^ w : Nat) = a.toNat := by
  have hSelf : (a.toNat : Int) % (2 ^ w : Nat) = a.toNat := by
    rw [← Int.natCast_emod, Nat.mod_eq_of_lt a.toNat_lt]
  unfold signed
  split
  · exact hSelf
  · rw [Int.sub_emod_right, hSelf]

theorem signed_eq_extended {a : Bits w} (h : a.isNegative = true) (n : Nat) :
    a.signed = (((2 ^ n - 1) * 2 ^ w + a.toNat : Nat) : Int) - (2 ^ w : Nat) * (2 ^ n : Nat) := by
  have hOnes : (2 ^ n - 1) * 2 ^ w + 2 ^ w = 2 ^ w * 2 ^ n := by
    rw [← Nat.succ_mul, Nat.succ_eq_add_one, Nat.sub_add_cancel (Nat.two_pow_pos n), Nat.mul_comm]
  rw [signed_of_negative h, ← Int.natCast_mul, ← hOnes]
  omega

end Bits

end AtomicRules
