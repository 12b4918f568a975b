import AtomicRules.Bits.Basic

/-!
# Vectors as numbers

The storage word behind a vector has a capacity, and a shift or a change of width can
go through three of them. None of it shows in the number that a vector stands for: a
capacity that has room for a width loses nothing below that width, so everything may be
computed without bounds and cut to the width at the end.

A change of width and a concatenation are stated for words of any two capacities first,
`Word.resizeWithin` and `Word.concatWithin`. The words that back the two widths are two of
them, and all that is asked for is room for the new width where the bits arrive.

## Main results

* `Capacity.clip_mod`, `Word.toNat_shiftLeft_mod`, `Word.toNat_convert_mod` — below a
  width that a word has room for, nothing is lost.
* `Word.toNat_resizeWithin`, `Word.toNat_concatWithin` — moving into another word, whatever
  the two capacities.
* `mul_add_shiftRight`, `mul_add_mod_two_pow`, `part_of_part` — a number of two parts, and
  the part that some of its bits are.
* `Bits.toNat_lsl`, `Bits.toNat_lsr`, `Bits.toNat_or`, `Bits.toNat_resize`,
  `Bits.toNat_concat` — the operations on vectors as operations on numbers.
* `Bits.bit_eq_testBit` — the bits of a vector are the bits of its number.
-/

namespace AtomicRules

/-! ### Words -/

/-- A machine word that has room for the ones of a width is as wide as that. -/
theorem Capacity.le_bits_of_holds {size : MachineSize} {n : Nat}
    (h : (machine size).Holds (2 ^ n - 1)) : n ≤ size.bits := by
  have hlt : 2 ^ n - 1 < 2 ^ size.bits := h
  have hpow : 2 ^ n ≤ 2 ^ size.bits := by
    have hpos := Nat.two_pow_pos n
    omega
  exact (Nat.pow_le_pow_iff_right (by decide)).1 hpow

theorem MachineSize.bits_le (size : MachineSize) : size.bits ≤ 128 := by
  cases size <;> decide

/-- The word chosen for a width has room for its ones. -/
theorem Capacity.holds_ones (w : Nat) : (ofWidth w).Holds (2 ^ w - 1) :=
  holds_ofWidth (Stored.two_pow_sub_one_lt w)

theorem Capacity.holds_of_lt {c : Capacity} {n value : Nat} (hRoom : c.Holds (2 ^ n - 1))
    (h : value < 2 ^ n) : c.Holds value :=
  hRoom.of_le (Nat.le_sub_one_of_lt h)

theorem Capacity.clip_mod {c : Capacity} {n : Nat} (h : c.Holds (2 ^ n - 1)) (value : Nat) :
    c.clip value % 2 ^ n = value % 2 ^ n := by
  cases c with
  | unbounded => rfl
  | machine size => exact Nat.mod_mod_of_dvd _ (Nat.pow_dvd_pow 2 (le_bits_of_holds h))

namespace Word

variable {c : Capacity} {n : Nat}

/-- A machine word that is shifted by all its bits is zero, and so is the low part of
what the shift would be without bounds. -/
theorem toNat_shiftLeft_mod (h : c.Holds (2 ^ n - 1)) (a : Word c) (amount : Nat) :
    (shiftLeft a amount).toNat % 2 ^ n = a.toNat <<< amount % 2 ^ n := by
  cases c with
  | unbounded => rfl
  | machine size =>
      simp only [shiftLeft]
      split
      · exact Capacity.clip_mod h _
      · have hle : n ≤ amount := by
          have hbits := Capacity.le_bits_of_holds h
          omega
        have hdvd : 2 ^ n ∣ a.toNat <<< amount := by
          rw [Nat.shiftLeft_eq]
          exact Nat.dvd_mul_left_of_dvd (Nat.pow_dvd_pow 2 hle) _
        rw [toNat_zero, Nat.zero_mod, Nat.mod_eq_zero_of_dvd hdvd]

/-- A shift up is exact where there is room for what it makes. -/
theorem toNat_shiftLeft_of_holds {a : Word c} {amount : Nat} (h : c.Holds (a.toNat <<< amount)) :
    (shiftLeft a amount).toNat = a.toNat <<< amount := by
  cases c with
  | unbounded => rfl
  | machine size =>
      simp only [shiftLeft]
      split
      · exact Capacity.clip_of_holds h
      · -- a bit would pass the capacity, so there is none
        have hlt : a.toNat * 2 ^ amount < 1 * 2 ^ amount := by
          rw [← Nat.shiftLeft_eq, Nat.one_mul]
          exact Nat.lt_of_lt_of_le h (Nat.pow_le_pow_right (by decide) (by omega))
        have hZero : a.toNat = 0 := Nat.lt_one_iff.1 (Nat.lt_of_mul_lt_mul_right hlt)
        rw [toNat_zero, hZero, Nat.zero_shiftLeft]

theorem low128_mod {d : Capacity} (h : d.Holds (2 ^ n - 1)) (a : Word c)
    (hWide : c = .unbounded → d ≠ .unbounded) : a.low128 % 2 ^ n = a.toNat % 2 ^ n := by
  cases c with
  | machine size =>
      have hlt : a.toNat < 2 ^ 128 :=
        Nat.lt_of_lt_of_le a.holds (Nat.pow_le_pow_right (by decide) size.bits_le)
      rw [low128, Nat.mod_eq_of_lt hlt]
  | unbounded =>
      cases d with
      | unbounded => exact absurd rfl (hWide rfl)
      | machine size =>
          have hle : n ≤ 128 := Nat.le_trans (Capacity.le_bits_of_holds h) size.bits_le
          exact Nat.mod_mod_of_dvd _ (Nat.pow_dvd_pow 2 hle)

/-- The low 128 bits that most moves go through are enough: one of the two words has no
more of them. -/
theorem toNat_convert_mod {d : Capacity} (h : d.Holds (2 ^ n - 1)) (a : Word c) :
    (convert d a).toNat % 2 ^ n = a.toNat % 2 ^ n := by
  cases c with
  | machine size =>
      exact (Capacity.clip_mod h _).trans (low128_mod h a Capacity.noConfusion)
  | unbounded =>
      cases d with
      | unbounded => rfl
      | machine size =>
          exact (Capacity.clip_mod h _).trans (low128_mod h a fun _ => Capacity.noConfusion)

/-- Masking is the remainder, as long as there is room for the mask. -/
theorem toNat_and_ones (h : c.Holds (2 ^ n - 1)) (a : Word c) :
    (a.and (ones c n)).toNat = a.toNat % 2 ^ n := by
  rw [toNat_and, toNat_ones h, Nat.and_two_pow_sub_one_eq_mod]

/-- The low `n` bits, moved into a word of another capacity. -/
def resizeWithin (n : Nat) (d : Capacity) (a : Word c) : Word d := (convert d a).and (ones d n)

theorem toNat_resizeWithin {d : Capacity} (hRoom : d.Holds (2 ^ n - 1)) (a : Word c) :
    (a.resizeWithin n d).toNat = a.toNat % 2 ^ n := by
  rw [resizeWithin, toNat_and_ones hRoom, toNat_convert_mod hRoom]

theorem toNat_resizeWithin_of_lt {d : Capacity} (hRoom : d.Holds (2 ^ n - 1)) {a : Word c}
    (h : a.toNat < 2 ^ n) : (a.resizeWithin n d).toNat = a.toNat := by
  rw [toNat_resizeWithin hRoom, Nat.mod_eq_of_lt h]

end Word

/-! ### Numbers of two parts -/

section TwoParts

variable {a b n : Nat}

theorem mul_add_lt {m : Nat} (ha : a < 2 ^ m) (hb : b < 2 ^ n) :
    a * 2 ^ n + b < 2 ^ (m + n) := by
  have hle : (a + 1) * 2 ^ n ≤ 2 ^ m * 2 ^ n := Nat.mul_le_mul_right _ ha
  rw [Nat.pow_add]
  rw [Nat.succ_mul] at hle
  omega

/-- Shifting up and filling in is multiplying and adding. -/
theorem shiftLeft_or_eq (hb : b < 2 ^ n) : a <<< n ||| b = a * 2 ^ n + b := by
  rw [← Nat.shiftLeft_add_eq_or_of_lt hb, Nat.shiftLeft_eq]

theorem mul_add_shiftRight (hb : b < 2 ^ n) : (a * 2 ^ n + b) >>> n = a := by
  rw [Nat.shiftRight_eq_div_pow, Nat.mul_comm, Nat.mul_add_div (Nat.two_pow_pos n),
    Nat.div_eq_of_lt hb, Nat.add_zero]

theorem mul_add_mod_two_pow (hb : b < 2 ^ n) : (a * 2 ^ n + b) % 2 ^ n = b := by
  rw [Nat.mul_add_mod_self_right, Nat.mod_eq_of_lt hb]

/-- Numbers of two parts are equal in both. -/
theorem parts_eq {a' b' : Nat} (hb : b < 2 ^ n) (hb' : b' < 2 ^ n)
    (h : a * 2 ^ n + b = a' * 2 ^ n + b') : a = a' ∧ b = b' := by
  have hHigh := congrArg (· >>> n) h
  have hLow := congrArg (· % 2 ^ n) h
  simp only [mul_add_shiftRight hb, mul_add_shiftRight hb'] at hHigh
  simp only [mul_add_mod_two_pow hb, mul_add_mod_two_pow hb'] at hLow
  exact ⟨hHigh, hLow⟩

end TwoParts

namespace Word

variable {c c' d : Capacity} {w l : Nat}

/-- `hi` above the `l` bits of `lo`, as `n` bits, both moved into a word of another capacity
before they are put together. -/
def concatWithin (n l : Nat) (d : Capacity) (hi : Word c) (lo : Word c') : Word d :=
  ((shiftLeft (hi.resizeWithin n d) l).or (lo.resizeWithin n d)).and (ones d n)

theorem toNat_concatWithin (hRoom : d.Holds (2 ^ (w + l) - 1)) {hi : Word c} {lo : Word c'}
    (hHi : hi.toNat < 2 ^ w) (hLo : lo.toNat < 2 ^ l) :
    (hi.concatWithin (w + l) l d lo).toNat = hi.toNat * 2 ^ l + lo.toNat := by
  have hHiInside : hi.toNat < 2 ^ (w + l) :=
    Nat.lt_of_lt_of_le hHi (Nat.pow_le_pow_right (by decide) (Nat.le_add_right w l))
  have hLoInside : lo.toNat < 2 ^ (w + l) :=
    Nat.lt_of_lt_of_le hLo (Nat.pow_le_pow_right (by decide) (Nat.le_add_left l w))
  have hBoth : hi.toNat * 2 ^ l + lo.toNat < 2 ^ (w + l) := mul_add_lt hHi hLo
  have hShifted : (shiftLeft (hi.resizeWithin (w + l) d) l).toNat = hi.toNat <<< l := by
    rw [← toNat_resizeWithin_of_lt hRoom hHiInside]
    apply toNat_shiftLeft_of_holds
    rw [toNat_resizeWithin_of_lt hRoom hHiInside, Nat.shiftLeft_eq]
    exact Capacity.holds_of_lt hRoom (by omega)
  rw [concatWithin, toNat_and_ones hRoom, toNat_or, hShifted,
    toNat_resizeWithin_of_lt hRoom hLoInside, shiftLeft_or_eq hLo, Nat.mod_eq_of_lt hBoth]

end Word

/-! ### Vectors -/

namespace Bits

variable {w n l : Nat}

@[simp] theorem toNat_or (a b : Bits w) : (a ||| b).toNat = a.toNat ||| b.toNat :=
  Word.toNat_or a.word b.word

@[simp] theorem toNat_lsr (a : Bits w) (amount : Nat) :
    (a >>> amount).toNat = a.toNat >>> amount :=
  Word.toNat_shiftRight a.word amount

/-- A shift by the width or more leaves no bit, with the number as with the vector. -/
@[simp] theorem toNat_lsl (a : Bits w) (amount : Nat) :
    (a <<< amount).toNat = a.toNat <<< amount % 2 ^ w := by
  show (Stored.lsl a.word amount).toNat = _
  unfold Stored.lsl
  split
  · rw [Stored.toNat_masked]
    exact Word.toNat_shiftLeft_mod (Capacity.holds_ones w) a.word amount
  · have hle : w ≤ amount := by omega
    have hdvd : 2 ^ w ∣ a.toNat <<< amount := by
      rw [Nat.shiftLeft_eq]
      exact Nat.dvd_mul_left_of_dvd (Nat.pow_dvd_pow 2 hle) _
    rw [Word.toNat_zero, Nat.mod_eq_zero_of_dvd hdvd]

/-- A shift up may be computed in the word and masked, whatever the amount. -/
theorem word_lsl (a : Bits w) (amount : Nat) :
    (a <<< amount).word = Stored.masked (Word.shiftLeft a.word amount) := by
  apply Word.ext
  show (a <<< amount).toNat = _
  rw [toNat_lsl, Stored.toNat_masked, Word.toNat_shiftLeft_mod (Capacity.holds_ones w)]
  rfl

@[simp] theorem toNat_resize (n : Nat) (a : Bits w) : (a.resize n).toNat = a.toNat % 2 ^ n :=
  Word.toNat_resizeWithin (Capacity.holds_ones n) a.word

@[simp] theorem toNat_ofBool (value : Bool) : (ofBool value).toNat = value.toNat := by
  cases value <;> rfl

/-- A single bit is its own truth value. -/
theorem toNat_toBool (a : Bits 1) : a.toBool.toNat = a.toNat := by
  have hlt := a.toNat_lt
  show (a.toNat != 0).toNat = a.toNat
  match a.toNat, hlt with
  | 0, _ => rfl
  | 1, _ => rfl

theorem bit_eq_testBit (a : Bits w) (index : Nat) : a.bit index = a.toNat.testBit index := by
  show (decide (index < w) && a.toNat.testBit index) = _
  by_cases h : index < w
  · rw [decide_eq_true h, Bool.true_and]
  · have hlt : a.toNat < 2 ^ index :=
      Nat.lt_of_lt_of_le a.toNat_lt (Nat.pow_le_pow_right (by decide) (by omega))
    rw [decide_eq_false h, Bool.false_and, Nat.testBit_lt_two_pow hlt]

@[simp] theorem toNat_concat (hi : Bits w) (lo : Bits l) :
    (hi.concat lo).toNat = hi.toNat * 2 ^ l + lo.toNat :=
  Word.toNat_concatWithin (Capacity.holds_ones (w + l)) hi.toNat_lt lo.toNat_lt

end Bits

end AtomicRules
