import AtomicRules.Bits.Text
import AtomicRules.Proofs.VectorArithmetic

/-!
# Binary digits

The binary text of a vector is made from the shortest digits of its number, with zeros in
front up to the width. Digit by digit it is what the bits of the vector say, the top bit
first, and nothing for the vector without bits.

## Main results

* `Bits.binDigits_eq` — the binary text, digit by digit.
* `Bits.binDigits_inj` — vectors with one binary text are equal.
-/

namespace AtomicRules

/-- A bit as a digit. -/
def bitDigit (bit : Bool) : Char := if bit then '1' else '0'

/-- The low `w` bits of a number as digits, the top one first. -/
def bitDigits (w n : Nat) : List Char :=
  (List.range w).map fun place => bitDigit (n.testBit (w - 1 - place))

theorem bitDigits_zero (w : Nat) : bitDigits w 0 = List.replicate w '0' := by
  have hClear : ∀ place ∈ List.range w, bitDigit ((0 : Nat).testBit (w - 1 - place)) = '0' := by
    intro place _
    rw [Nat.zero_testBit]
    rfl
  rw [bitDigits, List.map_eq_replicate_iff.2 hClear, List.length_range]

/-- The last digit is the lowest bit, and those before it are the digits of the half. -/
theorem bitDigits_succ (w n : Nat) :
    bitDigits (w + 1) n = bitDigits w (n / 2) ++ [bitDigit (n.testBit 0)] := by
  have hLast : w + 1 - 1 - w = 0 := by omega
  rw [bitDigits, List.range_succ, List.map_append, List.map_singleton, hLast]
  congr 1
  apply List.map_congr_left
  intro place hMem
  have hPlace : place < w := List.mem_range.1 hMem
  have hHigher : w + 1 - 1 - place = w - 1 - place + 1 := by omega
  rw [hHigher, Nat.testBit_succ]

theorem digitChar_mod_two (n : Nat) : (n % 2).digitChar = bitDigit (n.testBit 0) := by
  rw [Nat.testBit_zero]
  rcases Nat.mod_two_eq_zero_or_one n with h | h
  · rw [h]
    rfl
  · rw [h]
    rfl

/-- Filled up with zeros, the shortest binary digits are the bits. -/
theorem replicate_append_toDigits {w n : Nat} (hw : 0 < w) (hn : n < 2 ^ w) :
    List.replicate (w - (Nat.toDigits 2 n).length) '0' ++ Nat.toDigits 2 n = bitDigits w n := by
  induction w generalizing n with
  | zero => exact absurd hw (Nat.lt_irrefl 0)
  | succ w ih =>
      rw [bitDigits_succ, ← digitChar_mod_two]
      by_cases hSmall : n < 2
      · rw [Nat.toDigits_of_lt_base hSmall, Nat.mod_eq_of_lt hSmall, Nat.div_eq_of_lt hSmall,
          bitDigits_zero]
        rfl
      · have hHalf : n / 2 < 2 ^ w := by
          rw [Nat.pow_succ] at hn
          omega
        have hPositive : 0 < w := by
          rcases Nat.eq_zero_or_pos w with rfl | h
          · omega
          · exact h
        rw [Nat.toDigits_of_base_le (by decide) (by omega), List.length_append,
          List.length_singleton, Nat.add_sub_add_right, ← List.append_assoc, ih hPositive hHalf]

/-- The binary text of a vector has one digit for every bit, the top bit first. -/
theorem Bits.binDigits_eq {w : Nat} (a : Bits w) :
    a.binDigits = (List.range w).map fun place => bitDigit (a.bit (w - 1 - place)) := by
  simp only [Bits.bit_eq_testBit]
  show a.binDigits = bitDigits w a.toNat
  unfold binDigits
  split
  · next hw =>
      subst hw
      rfl
  · next hw => exact replicate_append_toDigits (Nat.pos_of_ne_zero hw) a.toNat_lt

theorem Bits.eq_of_mem_binDigits {w : Nat} {a : Bits w} {c : Char} (h : c ∈ a.binDigits) :
    c = '0' ∨ c = '1' := by
  rw [binDigits_eq] at h
  obtain ⟨place, -, rfl⟩ := List.mem_map.1 h
  cases a.bit (w - 1 - place) with
  | false => exact .inl rfl
  | true => exact .inr rfl

theorem bitDigit_inj {a b : Bool} (h : bitDigit a = bitDigit b) : a = b := by
  revert a b
  decide

/-- The binary text tells vectors of one width apart. -/
theorem Bits.binDigits_inj {w : Nat} {a b : Bits w} (h : a.binDigits = b.binDigits) : a = b := by
  rw [binDigits_eq, binDigits_eq, List.map_inj_left] at h
  apply ext_toNat
  apply Nat.eq_of_testBit_eq
  intro i
  by_cases hi : i < w
  · have hMirror : w - 1 - (w - 1 - i) = i := by omega
    have hDigit := h (w - 1 - i) (List.mem_range.2 (by omega))
    rw [hMirror, bit_eq_testBit, bit_eq_testBit] at hDigit
    exact bitDigit_inj hDigit
  · have hAbove : 2 ^ w ≤ 2 ^ i := Nat.pow_le_pow_right (by decide) (Nat.le_of_not_lt hi)
    rw [Nat.testBit_lt_two_pow (Nat.lt_of_lt_of_le a.toNat_lt hAbove),
      Nat.testBit_lt_two_pow (Nat.lt_of_lt_of_le b.toNat_lt hAbove)]

end AtomicRules
