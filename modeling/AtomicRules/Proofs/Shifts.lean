import AtomicRules.Proofs.TwosComplement

/-!
# Shifts

A shift is done in the storage word, which drops what passes its capacity, or drops nothing
and is masked. An arithmetic shift fills in what is missing of the mask. As operations on
numbers they are multiplication and division by powers of two: the number without a sign
for the logical shifts, the signed one, rounded down, for the arithmetic shift. This is so
for every amount, also when nothing of the vector is left.

A vector as an amount is cut to 32 bits first, and everything above the greatest number of
32 bits is taken as that number. No vector is so wide that this is seen: the shift leaves
nothing and the bit is not there, with the amount that was cut as with the exact one.

## Main results

* `Bits.toNat_asr` — the arithmetic shift is a division of the signed number.
* `Bits.amount32_eq` — which amount a vector is taken for.
* `Bits.shifts_exact` — all shifts, by numbers and by vectors, and the choice of a bit.
-/

namespace AtomicRules

variable {w s : Nat}

/-! ### Arithmetic shifts -/

/-- What an arithmetic shift fills in are the ones that come down from above the pattern. -/
theorem shiftRight_or_fill {x : Nat} (h : x < 2 ^ w) (n : Nat) :
    x >>> n ||| ((2 ^ w - 1) ^^^ ((2 ^ w - 1) >>> n)) = ((2 ^ n - 1) * 2 ^ w + x) >>> n := by
  rw [← shiftLeft_or_eq h]
  apply Nat.eq_of_testBit_eq
  intro place
  simp only [Nat.testBit_or, Nat.testBit_xor, Nat.testBit_shiftRight, Nat.testBit_shiftLeft,
    Nat.testBit_two_pow_sub_one]
  by_cases hPlace : n + place < w
  · have hInside : place < w := by omega
    have hBelow : ¬ n + place ≥ w := by omega
    simp only [hPlace, hInside, hBelow, decide_true, decide_false, Bool.xor_self, Bool.or_false,
      Bool.false_and, Bool.false_or]
  · have hAbove : n + place ≥ w := by omega
    have hOffset : n + place - w < n ↔ place < w := by omega
    simp only [hPlace, hAbove, hOffset, decide_true, decide_false, Bool.xor_false, Bool.true_and,
      Bool.or_comm]

namespace Bits

theorem toNat_asr_of_not_negative {a : Bits w} (h : a.isNegative = false) (n : Nat) :
    (a.asr n).toNat = a.toNat >>> n := by
  have hLogical : Stored.asr a.word n = Stored.lsr a.word n := if_neg (Bool.not_eq_true _ ▸ h)
  show (Stored.asr a.word n).toNat = _
  rw [hLogical]
  exact Word.toNat_shiftRight a.word n

theorem toNat_asr_of_negative {a : Bits w} (h : a.isNegative = true) (n : Nat) :
    (a.asr n).toNat = ((2 ^ n - 1) * 2 ^ w + a.toNat) >>> n := by
  have hFilled : Stored.asr a.word n = Word.or (Word.shiftRight a.word n)
      (Word.xor (Stored.mask w) (Word.shiftRight (Stored.mask w) n)) := if_pos h
  show (Stored.asr a.word n).toNat = _
  rw [hFilled, Word.toNat_or, Word.toNat_xor, Word.toNat_shiftRight, Word.toNat_shiftRight,
    Stored.toNat_mask]
  exact shiftRight_or_fill a.toNat_lt n

/-- Of the signed number and of the pattern with ones above it, one is a multiple of both
powers away from the other. So they have the same quotient, modulo `2 ^ w`. -/
theorem toNat_asr (a : Bits w) (n : Nat) :
    ((a.asr n).toNat : Int) = a.signed / (2 ^ n : Nat) % (2 ^ w : Nat) := by
  have hlt := a.toNat_lt
  have hpos := Nat.two_pow_pos n
  cases h : a.isNegative with
  | false =>
      have hBelow : a.toNat / 2 ^ n < 2 ^ w := Nat.lt_of_le_of_lt (Nat.div_le_self _ _) hlt
      rw [toNat_asr_of_not_negative h, signed_of_not_negative h, Nat.shiftRight_eq_div_pow,
        ← Int.natCast_ediv, ← Int.natCast_emod, Nat.mod_eq_of_lt hBelow]
  | true =>
      have hBelow : ((2 ^ n - 1) * 2 ^ w + a.toNat) / 2 ^ n < 2 ^ w := by
        rw [Nat.div_lt_iff_lt_mul hpos, ← Nat.pow_add, Nat.add_comm w n]
        exact mul_add_lt (Nat.sub_lt hpos Nat.zero_lt_one) hlt
      rw [toNat_asr_of_negative h, signed_eq_extended h n,
        Int.sub_mul_ediv_right _ _ (Int.natCast_ne_zero.2 (Nat.ne_of_gt hpos)),
        Int.sub_emod_right, Nat.shiftRight_eq_div_pow, ← Int.natCast_ediv, ← Int.natCast_emod,
        Nat.mod_eq_of_lt hBelow]

/-! ### Amounts -/

theorem amount32_eq (v : Bits s) : v.amount32 = min v.toNat (2 ^ 32 - 1) := by
  have hShort : (Word.shiftRight v.word 32).isZero = true ↔ v.toNat < 2 ^ 32 := by
    show ((Word.shiftRight v.word 32).toNat == 0) = true ↔ _
    rw [beq_iff_eq, Word.toNat_shiftRight, Nat.shiftRight_eq_div_pow,
      Nat.div_eq_zero_iff_lt (by decide)]
    rfl
  show (if (Word.shiftRight v.word 32).isZero then v.toNat % 2 ^ 128 else 2 ^ 32 - 1) = _
  by_cases h : v.toNat < 2 ^ 32
  · rw [if_pos (hShort.2 h), Nat.mod_eq_of_lt (by omega), Nat.min_eq_left (by omega)]
  · rw [if_neg (fun hZero => h (hShort.1 hZero)), Nat.min_eq_right (by omega)]

/-- A vector is its own number as an amount, or it passes every width of 32 bits and so does
the amount it is taken for. -/
theorem amount32_cases (hw : w < 2 ^ 32) (v : Bits s) :
    v.amount32 = v.toNat ∨ w ≤ v.amount32 ∧ w ≤ v.toNat := by
  rw [amount32_eq]
  omega

theorem lsl_of_le {a : Bits w} {n : Nat} (h : w ≤ n) : a.lsl n = zero w := by
  apply ext_toNat
  show (Stored.lsl a.word n).toNat = _
  rw [Stored.lsl, if_neg (Nat.not_lt.2 h)]
  rfl

theorem lsr_of_le {a : Bits w} {n : Nat} (h : w ≤ n) : a.lsr n = zero w := by
  have hlt : a.toNat < 2 ^ n :=
    Nat.lt_of_lt_of_le a.toNat_lt (Nat.pow_le_pow_right (by decide) h)
  apply ext_toNat
  rw [toNat_zero, ← Nat.div_eq_of_lt hlt, ← Nat.shiftRight_eq_div_pow]
  exact toNat_lsr a n

theorem bit_of_le {a : Bits w} {n : Nat} (h : w ≤ n) : a.bit n = false := by
  rw [bit, decide_eq_false (Nat.not_lt.2 h), Bool.false_and]

/-- What is the same for all amounts that pass the width does not show that a vector was
cut. -/
theorem apply_amount32 {α : Type} (hw : w < 2 ^ 32) (v : Bits s) {f : Nat → α} {rest : α}
    (h : ∀ n, w ≤ n → f n = rest) : f v.amount32 = f v.toNat := by
  rcases amount32_cases hw v with hExact | ⟨hCut, hExact⟩
  · rw [hExact]
  · rw [h _ hCut, h _ hExact]

/-! ### All shifts -/

/-- Shifts are multiplication and division by powers of two, for every amount. A shift up
may be done in the word and masked, whatever its capacity. Shifts by vectors are shifts by
their exact numbers, and the bit that a vector selects is that of its exact number. -/
theorem shifts_exact (hw : w < 2 ^ 32) (a : Bits w) :
    (∀ n,
        (a.lsl n).toNat = a.toNat * 2 ^ n % 2 ^ w ∧
          (a.lsl n).word = Stored.masked (Word.shiftLeft a.word n) ∧
          (a.lsr n).toNat = a.toNat / 2 ^ n ∧
          ((a.asr n).toNat : Int) = a.signed / (2 ^ n : Nat) % (2 ^ w : Nat)) ∧
      ∀ (s : Nat) (v : Bits s),
        (a <<< v).toNat = a.toNat * 2 ^ v.toNat % 2 ^ w ∧
          (a >>> v).toNat = a.toNat / 2 ^ v.toNat ∧
          (a.index v).toBool = (decide (v.toNat < w) && a.toNat.testBit v.toNat) := by
  have hUp (n : Nat) : (a.lsl n).toNat = a.toNat * 2 ^ n % 2 ^ w := by
    rw [← Nat.shiftLeft_eq]
    exact toNat_lsl a n
  have hDown (n : Nat) : (a.lsr n).toNat = a.toNat / 2 ^ n := by
    rw [← Nat.shiftRight_eq_div_pow]
    exact toNat_lsr a n
  refine ⟨fun n => ⟨hUp n, word_lsl a n, hDown n, toNat_asr a n⟩, fun s v => ⟨?_, ?_, ?_⟩⟩
  · show (a.lsl v.amount32).toNat = _
    rw [apply_amount32 hw v (f := a.lsl) fun n => lsl_of_le, hUp]
  · show (a.lsr v.amount32).toNat = _
    rw [apply_amount32 hw v (f := a.lsr) fun n => lsr_of_le, hDown]
  · show (ofBool (a.bit v.amount32)).toBool = a.bit v.toNat
    rw [apply_amount32 hw v (f := a.bit) fun n => bit_of_le]
    cases a.bit v.toNat <;> rfl

/-- The byte 150, which is -106 with a sign, shifted by 3 and by all its bits. An amount of
33 bits is cut to the greatest of 32 bits, and neither of them finds a bit. -/
theorem shifts_exact_byte :
    8 < 2 ^ 32 ∧ ((ofNat 8 150).lsl 3).toNat = 176 ∧ ((ofNat 8 150).lsr 3).toNat = 18 ∧
      (((ofNat 8 150).asr 3).toNat : Int) = -106 / 8 % 256 ∧ ((ofNat 8 150).asr 3).toNat = 242 ∧
      (((ofNat 8 150).asr 8).toNat : Int) = -106 / 256 % 256 ∧
      ((ofNat 8 150).asr 8).toNat = 255 ∧
      (ofNat 8 150 <<< ofNat 2 3).toNat = 176 ∧ (ofNat 8 150 >>> ofNat 2 3).toNat = 18 ∧
      (ofNat 40 (2 ^ 32 + 3)).amount32 = 2 ^ 32 - 1 ∧
      ((ofNat 8 150).index (ofNat 40 (2 ^ 32 + 3))).toBool = false ∧
      ((ofNat 8 150).index (ofNat 3 4)).toBool = true := by
  obtain ⟨hNumbers, hVectors⟩ := shifts_exact (by decide) (ofNat 8 150)
  obtain ⟨hUp, -, hDown, hSigned⟩ := hNumbers 3
  obtain ⟨hUpVector, hDownVector, -⟩ := hVectors 2 (ofNat 2 3)
  refine ⟨by decide, hUp, hDown, hSigned, rfl, (hNumbers 8).2.2.2, rfl, hUpVector, hDownVector,
    rfl, ?_, ?_⟩
  · exact (hVectors 40 (ofNat 40 (2 ^ 32 + 3))).2.2
  · exact (hVectors 3 (ofNat 3 4)).2.2

end Bits

end AtomicRules
