import AtomicRules.Proofs.VectorArithmetic

/-!
# Arithmetic modulo a power of two

Sum, difference and complement of vectors, and their bitwise operations, are those of the
numbers they stand for, modulo `2 ^ w`. A word takes two ways to a difference. A machine
word wraps at its capacity, which is a multiple of `2 ^ w` away from the difference of the
numbers; the unbounded word adds the complement of the subtrahend and one, which is `2 ^ w`
away from it. Masking makes the same number of both.

The formulas are stated here for words of any capacity, `Word.sumWithin` and its
neighbours. The word that backs a width is one of them, and all that have room for the
width agree.

## Main results

* `two_pow_sub_one_xor` — the complement inside a mask is a difference.
* `Word.toNat_sumWithin`, `Word.toNat_differenceWithin`, `Word.toNat_complementWithin` — the
  formulas in a word of any capacity that has room for the width.
* `Bits.arithmetic_exact` — the operations on vectors as operations on numbers, whatever
  word backs the width.
-/

namespace AtomicRules

variable {w : Nat}

/-! ### Complements and differences -/

/-- Inverting every bit below `w` is subtracting from the number that has all of them. -/
theorem two_pow_sub_one_xor {b : Nat} (h : b < 2 ^ w) : (2 ^ w - 1) ^^^ b = 2 ^ w - 1 - b := by
  apply Nat.eq_of_testBit_eq
  intro place
  have hComplement : 2 ^ w - 1 - b = 2 ^ w - (b + 1) := by omega
  rw [hComplement, Nat.testBit_two_pow_sub_succ h, Nat.testBit_xor, Nat.testBit_two_pow_sub_one]
  by_cases hPlace : place < w
  · simp only [hPlace, decide_true, Bool.true_xor, Bool.true_and]
  · have hHigh : b < 2 ^ place :=
      Nat.lt_of_lt_of_le h (Nat.pow_le_pow_right (by decide) (by omega))
    simp only [hPlace, decide_false, Bool.false_xor, Bool.false_and, Nat.testBit_lt_two_pow hHigh]

/-- Below a divisor it makes no difference where a subtraction wraps. -/
theorem add_sub_mod_of_dvd {a b m wrap : Nat} (hdvd : m ∣ wrap) (hle : m ≤ wrap) (hb : b ≤ m) :
    (a + (wrap - b)) % m = (a + (m - b)) % m := by
  obtain ⟨times, htimes⟩ : m ∣ wrap - m := Nat.dvd_sub hdvd (Nat.dvd_refl m)
  have hbeyond : a + (wrap - b) = a + (m - b) + m * times := by omega
  rw [hbeyond, Nat.add_mul_mod_self_left]

/-! ### In words of any capacity -/

namespace Word

variable {c : Capacity}

/-- Sum of two vectors of `w` bits: as far as the capacity goes, then masked. -/
def sumWithin (w : Nat) (a b : Word c) : Word c := (a.add b).and (ones c w)

/-- Difference of two vectors of `w` bits: as the capacity has it, then masked. -/
def differenceWithin (w : Nat) (a b : Word c) : Word c := (a.sub b (ones c w)).and (ones c w)

/-- Complement of a vector of `w` bits: what the mask and the vector do not share. -/
def complementWithin (w : Nat) (a : Word c) : Word c := (ones c w).xor a

theorem toNat_sumWithin (h : c.Holds (2 ^ w - 1)) (a b : Word c) :
    (a.sumWithin w b).toNat = (a.toNat + b.toNat) % 2 ^ w :=
  (toNat_and_ones h _).trans (Capacity.clip_mod h _)

/-- Wrapping at the capacity and complementing inside the mask leave the same remainder. -/
theorem toNat_differenceWithin (h : c.Holds (2 ^ w - 1)) (a : Word c) {b : Word c}
    (hb : b.toNat < 2 ^ w) :
    (a.differenceWithin w b).toNat = (a.toNat + (2 ^ w - b.toNat)) % 2 ^ w := by
  rw [differenceWithin, toNat_and_ones h]
  cases c with
  | machine size =>
      have hle : w ≤ size.bits := Capacity.le_bits_of_holds h
      show (a.toNat + (2 ^ size.bits - b.toNat)) % 2 ^ size.bits % 2 ^ w = _
      rw [Nat.mod_mod_of_dvd _ (Nat.pow_dvd_pow 2 hle)]
      exact add_sub_mod_of_dvd (Nat.pow_dvd_pow 2 hle) (Nat.pow_le_pow_right (by decide) hle)
        (Nat.le_of_lt hb)
  | unbounded =>
      have hcomplement : a.toNat + (2 ^ w - 1 - b.toNat) + 1 = a.toNat + (2 ^ w - b.toNat) := by
        omega
      show (a.toNat + ((2 ^ w - 1) ^^^ b.toNat) + 1) % 2 ^ w = _
      rw [two_pow_sub_one_xor hb, hcomplement]

theorem toNat_complementWithin (h : c.Holds (2 ^ w - 1)) {a : Word c} (ha : a.toNat < 2 ^ w) :
    (a.complementWithin w).toNat = 2 ^ w - 1 - a.toNat := by
  rw [complementWithin, toNat_xor, toNat_ones h, two_pow_sub_one_xor ha]

end Word

/-! ### Vectors -/

/-- A sum with the missing part up to `m` is a difference, modulo `m`. -/
theorem natCast_add_sub_mod {a b m : Nat} (h : b ≤ m) :
    (((a + (m - b)) % m : Nat) : Int) = ((a : Int) - b) % (m : Int) := by
  have hback : ((a + (m - b) : Nat) : Int) = (a : Int) - b + m := by omega
  rw [Int.natCast_emod, hback, Int.add_emod_right]

namespace Bits

@[simp] theorem toNat_and (a b : Bits w) : (a &&& b).toNat = a.toNat &&& b.toNat :=
  Word.toNat_and a.word b.word

@[simp] theorem toNat_xor (a b : Bits w) : (a ^^^ b).toNat = a.toNat ^^^ b.toNat :=
  Word.toNat_xor a.word b.word

@[simp] theorem toNat_add (a b : Bits w) : (a + b).toNat = (a.toNat + b.toNat) % 2 ^ w :=
  Word.toNat_sumWithin (Capacity.holds_ones w) a.word b.word

@[simp] theorem toNat_sub (a b : Bits w) :
    (a - b).toNat = (a.toNat + (2 ^ w - b.toNat)) % 2 ^ w :=
  Word.toNat_differenceWithin (Capacity.holds_ones w) a.word b.fits

@[simp] theorem toNat_not (a : Bits w) : (~~~a).toNat = 2 ^ w - 1 - a.toNat :=
  Word.toNat_complementWithin (Capacity.holds_ones w) a.fits

/-- Arithmetic and order of vectors are those of the numbers they stand for, modulo `2 ^ w`,
and words of any capacity with room for the width give the same results. -/
theorem arithmetic_exact (a b : Bits w) :
    ((a + b).toNat = (a.toNat + b.toNat) % 2 ^ w ∧
        ((a - b).toNat : Int) = ((a.toNat : Int) - b.toNat) % ((2 ^ w : Nat) : Int) ∧
        (a &&& b).toNat = a.toNat &&& b.toNat ∧
        (a ||| b).toNat = a.toNat ||| b.toNat ∧
        (a ^^^ b).toNat = a.toNat ^^^ b.toNat ∧
        (~~~a).toNat = 2 ^ w - 1 - a.toNat) ∧
      ((a = b ↔ a.toNat = b.toNat) ∧ (a < b ↔ a.toNat < b.toNat) ∧
        (a ≤ b ↔ a.toNat ≤ b.toNat) ∧ compare a b = compare a.toNat b.toNat) ∧
      ∀ (c : Capacity), c.Holds (2 ^ w - 1) →
        ∀ (x y : Word c), x.toNat = a.toNat → y.toNat = b.toNat →
          (x.sumWithin w y).toNat = (a + b).toNat ∧
            (x.differenceWithin w y).toNat = (a - b).toNat ∧
            (x.and y).toNat = (a &&& b).toNat ∧
            (x.or y).toNat = (a ||| b).toNat ∧
            (x.xor y).toNat = (a ^^^ b).toNat ∧
            (x.complementWithin w).toNat = (~~~a).toNat := by
  refine ⟨⟨toNat_add a b, ?_, toNat_and a b, toNat_or a b, toNat_xor a b, toNat_not a⟩,
    ⟨toNat_inj.symm, Iff.rfl, Iff.rfl, rfl⟩, ?_⟩
  · rw [toNat_sub]
    exact natCast_add_sub_mod (Nat.le_of_lt b.toNat_lt)
  · intro c hRoom x y hx hy
    have hxlt : x.toNat < 2 ^ w := hx ▸ a.toNat_lt
    have hylt : y.toNat < 2 ^ w := hy ▸ b.toNat_lt
    refine ⟨?_, ?_, ?_, ?_, ?_, ?_⟩
    · rw [Word.toNat_sumWithin hRoom, toNat_add, hx, hy]
    · rw [Word.toNat_differenceWithin hRoom x hylt, toNat_sub, hx, hy]
    · rw [Word.toNat_and, toNat_and, hx, hy]
    · rw [Word.toNat_or, toNat_or, hx, hy]
    · rw [Word.toNat_xor, toNat_xor, hx, hy]
    · rw [Word.toNat_complementWithin hRoom hxlt, toNat_not, hx]

/-- 6 + 5 and 2 - 5 in three bits. Before masking, the difference is 253 in a byte and 5 in
the word without bound. -/
theorem arithmetic_exact_three_bits :
    (ofNat 3 6 + ofNat 3 5).toNat = 3 ∧
      Capacity.unbounded.Holds (2 ^ 3 - 1) ∧
      (Word.ofNat .unbounded 2).toNat = (ofNat 3 2).toNat ∧
      (Word.ofNat .unbounded 5).toNat = (ofNat 3 5).toNat ∧
      ((Word.ofNat .unbounded 2).differenceWithin 3 (Word.ofNat .unbounded 5)).toNat
        = (ofNat 3 2 - ofNat 3 5).toNat ∧
      (ofNat 3 2 - ofNat 3 5).toNat = 5 ∧
      ((Word.ofNat (.machine .bits8) 2).sub (Word.ofNat _ 5) (Word.ones _ 3)).toNat = 253 ∧
      ((Word.ofNat .unbounded 2).sub (Word.ofNat _ 5) (Word.ones _ 3)).toNat = 5 := by
  obtain ⟨⟨hSum, -⟩, -⟩ := arithmetic_exact (ofNat 3 6) (ofNat 3 5)
  obtain ⟨-, -, hWords⟩ := arithmetic_exact (ofNat 3 2) (ofNat 3 5)
  have hDifference := (hWords .unbounded trivial (Word.ofNat _ 2) (Word.ofNat _ 5) rfl rfl).2.1
  exact ⟨hSum, trivial, rfl, rfl, hDifference, rfl, rfl, rfl⟩

end Bits

end AtomicRules
