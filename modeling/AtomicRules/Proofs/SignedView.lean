import AtomicRules.Proofs.TwosComplement

/-!
# The signed view

A vector is taken as a signed number in four ways. Comparisons look at the two signs first
and compare the patterns when they are alike. A number of 128 bits is made by moving the
pattern to the top, where the sign is that of 128 bits, and shifting the signed number back
down. A vector is made of a number by cutting it. And a sign extension fills in ones between
two masks. All four mean the same number, `Bits.signed`.

## Main results

* `Bits.signedCmp_eq` — the order is that of the signed numbers.
* `Bits.signed_sext`, `Bits.truncate_sext` — a sign extension keeps the number, and the
  vector is in it.
* `Bits.toInt128_eq`, `Bits.toNat_ofInt128` — to numbers of 128 bits and from them.
* `Bits.signed_coherent` — all of it.
-/

namespace AtomicRules

variable {w n : Nat}

/-! ### Order -/

/-- A comparison only asks what is below and what is equal. -/
theorem compare_congr {x y : Nat} {i j : Int} (hlt : x < y ↔ i < j) (heq : x = y ↔ i = j) :
    compare x y = compare i j := by
  show compareOfLessAndEq x y = compareOfLessAndEq i j
  simp only [compareOfLessAndEq, hlt, heq]

namespace Bits

theorem signed_neg {a : Bits w} (h : a.isNegative = true) : a.signed < 0 := by
  have hlt := a.toNat_lt
  rw [signed_of_negative h]
  omega

theorem signed_nonneg {a : Bits w} (h : a.isNegative = false) : 0 ≤ a.signed := by
  rw [signed_of_not_negative h]
  exact Int.natCast_nonneg a.toNat

theorem signedCmp_eq (a b : Bits w) : a.signedCmp b = compare a.signed b.signed := by
  unfold signedCmp
  cases ha : a.isNegative with
  | true =>
      cases hb : b.isNegative with
      | true =>
          rw [signed_of_negative ha, signed_of_negative hb]
          exact compare_congr (by omega) (by omega)
      | false =>
          have hBelow := Int.lt_of_lt_of_le (signed_neg ha) (signed_nonneg hb)
          exact (Int.compare_eq_lt.2 hBelow).symm
  | false =>
      cases hb : b.isNegative with
      | true =>
          have hAbove := Int.lt_of_lt_of_le (signed_neg hb) (signed_nonneg ha)
          exact (Int.compare_eq_gt.2 hAbove).symm
      | false =>
          rw [signed_of_not_negative ha, signed_of_not_negative hb]
          exact compare_congr (by omega) (by omega)

theorem slt_iff (a b : Bits w) : a.slt b = true ↔ a.signed < b.signed := by
  rw [slt, beq_iff_eq, signedCmp_eq, Int.compare_eq_lt]

theorem sle_iff (a b : Bits w) : a.sle b = true ↔ a.signed ≤ b.signed := by
  rw [sle, bne_iff_ne, ne_eq, signedCmp_eq, Int.compare_eq_gt, Int.not_lt]

theorem sgt_iff (a b : Bits w) : a.sgt b = true ↔ b.signed < a.signed := by
  rw [sgt, beq_iff_eq, signedCmp_eq, Int.compare_eq_gt]

theorem sge_iff (a b : Bits w) : a.sge b = true ↔ b.signed ≤ a.signed := by
  rw [sge, bne_iff_ne, ne_eq, signedCmp_eq, Int.compare_eq_lt, Int.not_lt]

/-! ### Sign extension -/

theorem toNat_sext_of_not_negative {a : Bits w} (h : a.isNegative = false) (hn : w ≤ n) :
    (a.sext n hn).toNat = a.toNat := by
  have hResized : Stored.sext n a.word = (a.resize n).word := if_neg (Bool.not_eq_true _ ▸ h)
  have hlt : a.toNat < 2 ^ n :=
    Nat.lt_of_lt_of_le a.toNat_lt (Nat.pow_le_pow_right (by decide) hn)
  show (Stored.sext n a.word).toNat = _
  rw [hResized]
  show (a.resize n).toNat = _
  rw [toNat_resize, Nat.mod_eq_of_lt hlt]

theorem toNat_sext_of_negative {a : Bits w} (h : a.isNegative = true) (hn : w ≤ n) :
    (a.sext n hn).toNat = (2 ^ (n - w) - 1) * 2 ^ w + a.toNat := by
  have hFilled : Stored.sext n a.word = Word.or (a.resize n).word
      (Word.xor (Stored.mask n) (Word.ones _ w)) := if_pos h
  have hle : 2 ^ w ≤ 2 ^ n := Nat.pow_le_pow_right (by decide) hn
  -- the mask of the narrow width is made in the word of the wide one
  have hRoom : (Capacity.ofWidth n).Holds (2 ^ w - 1) :=
    Capacity.holds_ofWidth (Nat.lt_of_lt_of_le (Stored.two_pow_sub_one_lt w) hle)
  show (Stored.sext n a.word).toNat = _
  rw [hFilled, Word.toNat_or, Word.toNat_xor, Stored.toNat_mask, Word.toNat_ones hRoom]
  show (a.resize n).toNat ||| _ = _
  rw [toNat_resize, Nat.mod_eq_of_lt (Nat.lt_of_lt_of_le a.toNat_lt hle),
    ← or_ones_above a.toNat_lt, Nat.add_sub_cancel' hn]

theorem signed_sext (a : Bits w) (hn : w ≤ n) : (a.sext n hn).signed = a.signed := by
  have hle : 2 ^ w ≤ 2 ^ n := Nat.pow_le_pow_right (by decide) hn
  cases h : a.isNegative with
  | false =>
      have hSmall : 2 * a.toNat < 2 ^ w := (not_negative_iff a).1 h
      have hNumber := toNat_sext_of_not_negative h hn
      have hSign : (a.sext n hn).isNegative = false := by
        rw [not_negative_iff, hNumber]
        omega
      rw [signed_of_not_negative hSign, signed_of_not_negative h, hNumber]
  | true =>
      have hWhole : 2 ^ w * 2 ^ (n - w) = 2 ^ n := by rw [← Nat.pow_add, Nat.add_sub_cancel' hn]
      have hNumber := signed_eq_extended h (n - w)
      rw [← toNat_sext_of_negative h hn, ← Int.natCast_mul, hWhole] at hNumber
      have hSign : (a.sext n hn).isNegative = true := by
        have hRange := a.signed_range
        rw [isNegative_iff]
        omega
      rw [signed_of_negative hSign, hNumber]

theorem truncate_sext (a : Bits w) (hn : w ≤ n) : (a.sext n hn).truncate w hn = a := by
  apply ext_toNat
  show ((a.sext n hn).resize w).toNat = a.toNat
  rw [toNat_resize]
  cases h : a.isNegative with
  | false => rw [toNat_sext_of_not_negative h, Nat.mod_eq_of_lt a.toNat_lt]
  | true => rw [toNat_sext_of_negative h, mul_add_mod_two_pow a.toNat_lt]

/-! ### Numbers of 128 bits -/

theorem low128_eq {a : Bits w} (h : w ≤ 128) : a.low128 = a.toNat :=
  Nat.mod_eq_of_lt (Nat.lt_of_lt_of_le a.toNat_lt (Nat.pow_le_pow_right (by decide) h))

theorem two_pow_split (h : w ≤ 128) : 2 ^ w * 2 ^ (128 - w) = 2 ^ 128 := by
  rw [← Nat.pow_add, Nat.add_sub_cancel' h]

/-- A pattern at the top of 128 bits has the sign that it had in its width. -/
theorem signed128_shifted (a : Bits w) (h : w ≤ 128) :
    signed128 (a.toNat * 2 ^ (128 - w)) = a.signed * (2 ^ (128 - w) : Nat) := by
  have hScaled : 2 * a.toNat * 2 ^ (128 - w) < 2 ^ w * 2 ^ (128 - w) ↔ 2 * a.toNat < 2 ^ w :=
    Nat.mul_lt_mul_right (Nat.two_pow_pos (128 - w))
  have hSign : a.toNat * 2 ^ (128 - w) < 2 ^ 127 ↔ 2 * a.toNat < 2 ^ w := by
    rw [← hScaled, two_pow_split h, Nat.mul_assoc]
    omega
  unfold signed128 signed
  by_cases hSmall : 2 * a.toNat < 2 ^ w
  · rw [if_pos (hSign.2 hSmall), if_pos hSmall, Int.natCast_mul]
  · rw [if_neg (fun hlt => hSmall (hSign.1 hlt)), if_neg hSmall, Int.sub_mul, ← Int.natCast_mul,
      ← Int.natCast_mul, two_pow_split h]
    rfl

theorem toInt128_eq (a : Bits w) (h : w ≤ 128) : a.toInt128 h = a.signed := by
  have hpos := Nat.two_pow_pos (128 - w)
  have hInside : a.toNat * 2 ^ (128 - w) < 2 ^ 128 := by
    rw [← two_pow_split h]
    exact Nat.mul_lt_mul_of_pos_right a.toNat_lt hpos
  unfold toInt128
  split
  · next hw =>
      subst hw
      have hRange := a.signed_range
      rw [Nat.pow_zero] at hRange
      omega
  · rw [low128_eq h, Nat.shiftLeft_eq, Nat.mod_eq_of_lt hInside, signed128_shifted a h,
      Int.shiftRight_eq_div_pow, Int.mul_ediv_cancel _ (Int.natCast_ne_zero.2 (Nat.ne_of_gt hpos))]

theorem toNat_ofInt128 (value : Int) (h : w ≤ 128) :
    ((ofInt128 w value h).toNat : Int) = value % (2 ^ w : Nat) := by
  have hdvd : 2 ^ w ∣ 2 ^ 128 := Nat.pow_dvd_pow 2 h
  have hNonneg : 0 ≤ value % 2 ^ 128 := Int.emod_nonneg _ (by decide)
  show ((Stored.masked (Word.ofNat _ ((value % 2 ^ 128).toNat % 2 ^ 128))).toNat : Int) = _
  rw [Stored.toNat_masked, Word.toNat_ofNat, Capacity.clip_mod (Capacity.holds_ones w),
    Nat.mod_mod_of_dvd _ hdvd, Int.natCast_emod, Int.toNat_of_nonneg hNonneg]
  exact Int.emod_emod_of_dvd value (Int.natCast_dvd_natCast.2 hdvd)

theorem ofInt128_toInt128 (a : Bits w) (h : w ≤ 128) : ofInt128 w (a.toInt128 h) h = a := by
  apply ext_toNat
  rw [← Int.natCast_inj, toNat_ofInt128, toInt128_eq, signed_emod]

theorem toInt128_ofInt128_emod (value : Int) (h : w ≤ 128) :
    (ofInt128 w value h).toInt128 h % (2 ^ w : Nat) = value % (2 ^ w : Nat) := by
  rw [toInt128_eq, signed_emod, toNat_ofInt128]

/-! ### One number -/

/-- Comparisons, sign extensions and conversions are all about the same signed number. -/
theorem signed_coherent (a b : Bits w) :
    (a.signedCmp b = compare a.signed b.signed ∧
        (a.slt b = true ↔ a.signed < b.signed) ∧ (a.sle b = true ↔ a.signed ≤ b.signed) ∧
        (a.sgt b = true ↔ b.signed < a.signed) ∧ (a.sge b = true ↔ b.signed ≤ a.signed)) ∧
      (∀ n (hn : w ≤ n),
        (a.sext n hn).signed = a.signed ∧ (a.sext n hn).truncate w hn = a) ∧
      ∀ h : w ≤ 128,
        a.toInt128 h = a.signed ∧ ofInt128 w (a.toInt128 h) h = a ∧
          ∀ value : Int,
            (w = 0 → (ofInt128 w value h).toInt128 h = 0) ∧
              (0 < w →
                -(2 ^ (w - 1) : Nat) ≤ (ofInt128 w value h).toInt128 h ∧
                  (ofInt128 w value h).toInt128 h < (2 ^ (w - 1) : Nat) ∧
                  (ofInt128 w value h).toInt128 h % (2 ^ w : Nat) = value % (2 ^ w : Nat)) := by
  refine ⟨⟨signedCmp_eq a b, slt_iff a b, sle_iff a b, sgt_iff a b, sge_iff a b⟩,
    fun n hn => ⟨signed_sext a hn, truncate_sext a hn⟩,
    fun h => ⟨toInt128_eq a h, ofInt128_toInt128 a h, fun value => ⟨?_, ?_⟩⟩⟩
  · intro hw
    exact if_pos hw
  · intro hw
    obtain ⟨hLow, hHigh⟩ := (ofInt128 w value h).signed_range
    have hDouble : 2 ^ w = 2 * 2 ^ (w - 1) := by
      rw [Nat.mul_comm, ← Nat.pow_succ, Nat.succ_eq_add_one, Nat.sub_add_cancel hw]
    rw [hDouble] at hLow hHigh
    rw [toInt128_ofInt128_emod, toInt128_eq]
    exact ⟨by omega, by omega, rfl⟩

/-- The byte 150 is -106 with a sign. It is below 17, in 200 bits too, and -300 is -44 in
eight bits. -/
theorem signed_coherent_byte :
    (ofNat 8 150).slt (ofNat 8 17) = true ∧ (ofNat 8 150).signed = -106 ∧
      8 ≤ 200 ∧ ((ofNat 8 150).sext 200 (by decide)).signed = -106 ∧
      8 ≤ 128 ∧ (ofNat 8 150).toInt128 (by decide) = -106 ∧
      ofInt128 8 ((ofNat 8 150).toInt128 (by decide)) (by decide) = ofNat 8 150 ∧
      0 < 8 ∧ (ofInt128 8 (-300) (by decide)).toInt128 (by decide) % 256 = -300 % 256 ∧
      (ofInt128 8 (-300) (by decide)).toInt128 (by decide) = -44 := by
  obtain ⟨⟨-, hBelow, -⟩, hExtended, h128⟩ := signed_coherent (ofNat 8 150) (ofNat 8 17)
  obtain ⟨hTo, hBack, hFrom⟩ := h128 (by decide)
  refine ⟨hBelow.2 (by decide), rfl, by decide, ?_, by decide, hTo, hBack, by decide, ?_, rfl⟩
  · exact (hExtended 200 (by decide)).1
  · exact ((hFrom (-300)).2 (by decide)).2.2

end Bits

end AtomicRules
