import AtomicRules.Proofs.WidthChanges

/-!
# Fields of a vector

A field is a run of bits of a vector, given by its offset and its width. It is read by a
shift and a change of width, and written by cutting a hole into the vector and filling the
new bits in. The hole is made in the storage word: ones are shifted there and taken out of
the mask. A field may be empty, end at the top of the vector or lie behind all its bits, and
it may have another storage word than the vector.

What is written is said bit by bit, `Bits.bit_splice`: inside the field the bits of the
replacement, elsewhere those of the vector. Everything else about fields follows from that
and from the bits that a field reads.

## Main results

* `Bits.bit_slice`, `Bits.bit_window` — which bits a field reads.
* `Bits.bit_splice` — which bits a field writes.
* `Bits.slice_splice`, `Bits.splice_slice`, `Bits.splice_splice`, `Bits.splice_comm` — a field
  that is written is read back, and the order of writes.
* `Bits.fields_exact` — all of it.
-/

namespace AtomicRules

variable {w n m : Nat}

/-- Bit `index` of a vector belongs to the field of `n` bits at `offset`. -/
def InField (offset n index : Nat) : Prop := offset ≤ index ∧ index < offset + n

instance (offset n index : Nat) : Decidable (InField offset n index) := by
  unfold InField
  infer_instance

/-- Below a width that the word has room for, a shift up moves every bit. -/
theorem Word.testBit_shiftLeft {c : Capacity} (hRoom : c.Holds (2 ^ n - 1)) (a : Word c)
    {amount place : Nat} (h : place < n) :
    (shiftLeft a amount).toNat.testBit place
      = (decide (amount ≤ place) && a.toNat.testBit (place - amount)) := by
  have hLow (value : Nat) : value.testBit place = (value % 2 ^ n).testBit place := by
    rw [Nat.testBit_mod_two_pow, decide_eq_true h, Bool.true_and]
  rw [hLow, toNat_shiftLeft_mod hRoom, ← hLow, Nat.testBit_shiftLeft]

namespace Bits

/-! ### Reading -/

theorem bit_lsr (a : Bits w) (amount index : Nat) :
    (a >>> amount).bit index = a.bit (amount + index) := by
  rw [bit_eq_testBit, toNat_lsr, Nat.testBit_shiftRight, bit_eq_testBit]

/-- Wherever it starts, a window reads the bits from there on. -/
theorem bit_window (a : Bits w) (offset : Nat) (h : n ≤ w) (index : Nat) :
    (a.window offset n h).bit index = (decide (index < n) && a.bit (offset + index)) := by
  show ((a >>> offset).resize n).bit index = _
  rw [bit_resize, bit_lsr]

theorem bit_slice (a : Bits w) {offset : Nat} (h : offset + n ≤ w) (index : Nat) :
    (a.slice offset n h).bit index = (decide (index < n) && a.bit (offset + index)) :=
  a.bit_window offset (Nat.le_trans (Nat.le_add_left n offset) h) index

/-! ### Writing -/

/-- The hole that a field is written into has a bit exactly where the field is. -/
theorem testBit_hole {offset : Nat} (h : offset + n ≤ w) {index : Nat} (hIndex : index < w) :
    (Word.shiftLeft (Word.ones (Capacity.ofWidth w) n) offset).toNat.testBit index
      = decide (InField offset n index) := by
  have hRoom : (Capacity.ofWidth w).Holds (2 ^ n - 1) :=
    Capacity.holds_ofWidth (Nat.lt_of_lt_of_le (Stored.two_pow_sub_one_lt n)
      (Nat.pow_le_pow_right (by decide) (by omega)))
  have hInField : InField offset n index ↔ offset ≤ index ∧ index - offset < n := by
    unfold InField
    omega
  rw [Word.testBit_shiftLeft (Capacity.holds_ones w) _ hIndex, Word.toNat_ones hRoom,
    Nat.testBit_two_pow_sub_one, ← Bool.decide_and, decide_eq_decide]
  exact hInField.symm

/-- Inside the field a bit of the vector is that of the replacement, elsewhere it stays. -/
theorem bit_splice (a : Bits w) {offset : Nat} (field : Bits n) (h : offset + n ≤ w)
    (index : Nat) :
    (a.splice offset field h).bit index
      = if InField offset n index then field.bit (index - offset) else a.bit index := by
  by_cases hIndex : index < w
  · -- below the width, masking does nothing and the two parts may be looked at alone
    have hPlaced : (Word.shiftLeft (field.resize w).word offset).toNat.testBit index
        = (decide (offset ≤ index) && field.bit (index - offset)) := by
      have hInside : index - offset < w := by omega
      rw [Word.testBit_shiftLeft (Capacity.holds_ones w) _ hIndex]
      show (decide (offset ≤ index) && (field.resize w).toNat.testBit (index - offset)) = _
      rw [← bit_eq_testBit, bit_resize, decide_eq_true hInside, Bool.true_and]
    have hBits : (a.splice offset field h).bit index
        = (a.bit index && (true ^^ decide (InField offset n index))
          || decide (offset ≤ index) && field.bit (index - offset)) := by
      rw [bit_eq_testBit, bit_eq_testBit, ← hPlaced, ← testBit_hole h hIndex]
      show (Stored.splice offset a.word field.word).toNat.testBit index = _
      rw [Stored.splice, Stored.toNat_masked, Nat.testBit_mod_two_pow, decide_eq_true hIndex,
        Bool.true_and, Word.toNat_or, Nat.testBit_or, Word.toNat_and, Nat.testBit_and,
        Word.toNat_xor, Nat.testBit_xor, Stored.toNat_mask, Nat.testBit_two_pow_sub_one,
        decide_eq_true hIndex]
      rfl
    rw [hBits]
    by_cases hField : InField offset n index
    · rw [if_pos hField, decide_eq_true hField, decide_eq_true hField.1, Bool.xor_self,
        Bool.and_false, Bool.false_or, Bool.true_and]
    · rw [if_neg hField, decide_eq_false hField, Bool.xor_false, Bool.and_true]
      by_cases hBelow : offset ≤ index
      · have hPast : n ≤ index - offset := by
          unfold InField at hField
          omega
        rw [bit_of_le hPast, Bool.and_false, Bool.or_false]
      · rw [decide_eq_false hBelow, Bool.false_and, Bool.or_false]
  · have hOutside : ¬ InField offset n index := by
      unfold InField
      omega
    have hPast : w ≤ index := Nat.le_of_not_lt hIndex
    rw [if_neg hOutside, bit_of_le hPast, bit_of_le hPast]

/-! ### Reading and writing -/

section Laws

variable {offset offset' : Nat} (a : Bits w)

/-- A field that is written is read back. -/
theorem slice_splice (field : Bits n) (h : offset + n ≤ w) :
    (a.splice offset field h).slice offset n h = field := by
  apply ext_bit
  intro index
  rw [bit_slice, bit_splice]
  by_cases hIndex : index < n
  · have hField : InField offset n (offset + index) := by
      unfold InField
      omega
    rw [if_pos hField, decide_eq_true hIndex, Bool.true_and, Nat.add_sub_cancel_left]
  · rw [decide_eq_false hIndex, Bool.false_and, bit_of_le (Nat.le_of_not_lt hIndex)]

/-- Writing what a field holds already changes nothing. -/
theorem splice_slice (h : offset + n ≤ w) :
    a.splice offset (a.slice offset n h) h = a := by
  apply ext_bit
  intro index
  rw [bit_splice, bit_slice]
  by_cases hField : InField offset n index
  · have hIndex : index - offset < n := by
      unfold InField at hField
      omega
    rw [if_pos hField, decide_eq_true hIndex, Bool.true_and, Nat.add_sub_cancel' hField.1]
  · rw [if_neg hField]

/-- Of two writes to one field the second one counts. -/
theorem splice_splice (field field' : Bits n) (h : offset + n ≤ w) :
    (a.splice offset field h).splice offset field' h = a.splice offset field' h := by
  apply ext_bit
  intro index
  rw [bit_splice, bit_splice, bit_splice]
  by_cases hField : InField offset n index
  · rw [if_pos hField, if_pos hField]
  · rw [if_neg hField, if_neg hField, if_neg hField]

/-- Fields that share no bit may be written in either order. -/
theorem splice_comm (field : Bits n) (field' : Bits m) (h : offset + n ≤ w)
    (h' : offset' + m ≤ w)
    (hDisjoint : ∀ index, ¬ (InField offset n index ∧ InField offset' m index)) :
    (a.splice offset field h).splice offset' field' h'
      = (a.splice offset' field' h').splice offset field h := by
  apply ext_bit
  intro index
  simp only [bit_splice]
  by_cases hField : InField offset n index
  · have hOther : ¬ InField offset' m index := fun hBoth => hDisjoint index ⟨hField, hBoth⟩
    rw [if_neg hOther, if_pos hField, if_pos hField]
  · simp only [if_neg hField]

end Laws

/-- A field writes and reads exactly its bits. So what is written is read back, writing what
is there changes nothing, a second write overrides the first, and writes to fields that
share no bit commute. A window reads its bits wherever it starts, zeros past the top. -/
theorem fields_exact (a : Bits w) :
    (∀ (offset n : Nat) (h : offset + n ≤ w),
        (∀ index < n, (a.slice offset n h).bit index = a.bit (offset + index)) ∧
          a.splice offset (a.slice offset n h) h = a ∧
          ∀ field : Bits n,
            (∀ index, (a.splice offset field h).bit index
              = if InField offset n index then field.bit (index - offset) else a.bit index) ∧
            (a.splice offset field h).slice offset n h = field ∧
            (∀ field' : Bits n,
              (a.splice offset field h).splice offset field' h = a.splice offset field' h) ∧
            ∀ (offset' m : Nat) (h' : offset' + m ≤ w) (field' : Bits m),
              (∀ index, ¬ (InField offset n index ∧ InField offset' m index)) →
              (a.splice offset field h).splice offset' field' h'
                = (a.splice offset' field' h').splice offset field h) ∧
      ∀ (n : Nat) (h : n ≤ w) (offset : Nat), ∀ index < n,
        (a.window offset n h).bit index = a.bit (offset + index) ∧
          (w ≤ offset + index → (a.window offset n h).bit index = false) := by
  refine ⟨?_, ?_⟩
  · intro offset n h
    refine ⟨?_, a.splice_slice h, ?_⟩
    · intro index hIndex
      rw [bit_slice, decide_eq_true hIndex, Bool.true_and]
    · intro field
      refine ⟨a.bit_splice field h, a.slice_splice field h, ?_, ?_⟩
      · exact fun field' => a.splice_splice field field' h
      · exact fun offset' m h' field' hDisjoint => a.splice_comm field field' h h' hDisjoint
  · intro n h offset index hIndex
    have hRead : (a.window offset n h).bit index = a.bit (offset + index) := by
      rw [bit_window, decide_eq_true hIndex, Bool.true_and]
    refine ⟨hRead, ?_⟩
    intro hPast
    rw [hRead, bit_of_le hPast]

/-- A byte in the middle of 16 bits, with an empty field behind the top and a nibble below. The
window at 12 runs past the top, and the one at `2 ^ 32 - 1` is all behind it. -/
theorem fields_exact_sixteen :
    4 + 8 ≤ 16 ∧ 3 < 8 ∧ ((ofNat 16 0xbeef).slice 4 8 (by decide)).bit 3 = true ∧
      ((ofNat 16 0xbeef).splice 4 (ofNat 8 0x12) (by decide)).toNat = 0xb12f ∧
      ((ofNat 16 0xbeef).splice 4 (ofNat 8 0x12) (by decide)).bit 5 = true ∧
      ((ofNat 16 0xbeef).splice 4 (ofNat 8 0x12) (by decide)).slice 4 8 (by decide) = ofNat 8 0x12 ∧
      0 + 4 ≤ 16 ∧ (∀ index, ¬ (InField 4 8 index ∧ InField 0 4 index)) ∧
      ((ofNat 16 0xbeef).splice 4 (ofNat 8 0x12) (by decide)).splice 0 (ofNat 4 7) (by decide)
        = ((ofNat 16 0xbeef).splice 0 (ofNat 4 7) (by decide)).splice 4 (ofNat 8 0x12) (by decide) ∧
      16 + 0 ≤ 16 ∧ (ofNat 16 0xbeef).splice 16 ((ofNat 16 0xbeef).slice 16 0 (by decide)) (by decide)
        = ofNat 16 0xbeef ∧
      8 ≤ 16 ∧ ((ofNat 16 0xbeef).window 12 8 (by decide)).bit 3 = true ∧
      16 ≤ (2 ^ 32 - 1) + 3 ∧
      ((ofNat 16 0xbeef).window (2 ^ 32 - 1) 8 (by decide)).bit 3 = false := by
  obtain ⟨hFields, hWindows⟩ := fields_exact (ofNat 16 0xbeef)
  obtain ⟨hRead, -, hWritten⟩ := hFields 4 8 (by decide)
  obtain ⟨hBits, hBack, -, hCommute⟩ := hWritten (ofNat 8 0x12)
  obtain ⟨-, hSame, -⟩ := hFields 16 0 (by decide)
  have hDisjoint : ∀ index, ¬ (InField 4 8 index ∧ InField 0 4 index) := by
    intro index
    unfold InField
    omega
  refine ⟨by decide, by decide, ?_, by decide, ?_, hBack, by decide, hDisjoint, ?_, by decide,
    hSame, by decide, ?_, by decide, ?_⟩
  · exact hRead 3 (by decide)
  · exact hBits 5
  · exact hCommute 0 4 (by decide) (ofNat 4 7) hDisjoint
  · exact (hWindows 8 (by decide) 12 3 (by decide)).1
  · exact (hWindows 8 (by decide) (2 ^ 32 - 1) 3 (by decide)).2 (by decide)

end Bits

end AtomicRules
