import AtomicRules.Proofs.PackedLayout
import AtomicRules.Proofs.Shifts

/-!
# Changes of width

A vector that changes its width moves into the storage word of the new width. Most of these
moves go through the low 128 bits, and what is shifted is shifted in the new word, at amounts
that can reach its capacity. Nothing of that shows: every bit that the new width has room for
arrives, and where bits are added they are zero.

The formulas are stated for words of any two capacities, `Word.alignWithin` and
`Word.replicateWithin` beside those for resizing and concatenation. The words that back the
old width and the new one are two of them. Copies side by side are made by shifting what
there is and filling in one more; that is the same as putting them together one by one.

## Main results

* `Word.toNat_alignWithin`, `Word.toNat_replicateWithin` — the formulas in words of any
  capacity, as operations on numbers.
* `Bits.bit_resize`, `Bits.bit_alignTop` — which bit goes where.
* `Bits.replicate_eq_join` — copies side by side, put together one by one.
* `Bits.width_changes_exact` — all changes of width, whatever words they go between.
-/

namespace AtomicRules

variable {w n l : Nat}

/-! ### Copies put together one by one -/

namespace Chunk

theorem join_replicate_succ (times : Nat) (chunk : Chunk) :
    join (List.replicate (times + 1) chunk)
      = (join (List.replicate times chunk)).append chunk := by
  rw [List.replicate_succ', join_concat]

@[simp] theorem width_join_replicate (times : Nat) (chunk : Chunk) :
    (join (List.replicate times chunk)).width = chunk.width * times := by
  induction times with
  | zero => rfl
  | succ times ih => rw [join_replicate_succ, width_append, ih, Nat.mul_succ]

theorem number_join_replicate_lt (times : Nat) (chunk : Chunk) :
    (join (List.replicate times chunk)).number < 2 ^ (chunk.width * times) := by
  rw [← width_join_replicate]
  exact number_lt _

end Chunk

/-! ### In words of any capacity -/

namespace Word

variable {c d : Capacity}

/-- The low `n` bits, moved into a word of another capacity and up by `amount` there. -/
def alignWithin (n amount : Nat) (d : Capacity) (a : Word c) : Word d :=
  (shiftLeft (a.resizeWithin n d) amount).and (ones d n)

theorem toNat_alignWithin {amount : Nat} (hRoom : d.Holds (2 ^ n - 1)) {a : Word c}
    (h : a.toNat <<< amount < 2 ^ n) : (a.alignWithin n amount d).toNat = a.toNat <<< amount := by
  have hInside : a.toNat < 2 ^ n := by
    rw [Nat.shiftLeft_eq] at h
    exact Nat.lt_of_le_of_lt (Nat.le_mul_of_pos_right _ (Nat.two_pow_pos amount)) h
  rw [alignWithin, toNat_and_ones hRoom, toNat_shiftLeft_mod hRoom,
    toNat_resizeWithin_of_lt hRoom hInside, Nat.mod_eq_of_lt h]

/-- Copies of a word, each `step` bits above the one before. -/
def copies (step : Nat) (unit : Word d) : Nat → Word d
  | 0 => zero d
  | times + 1 => (shiftLeft (copies step unit times) step).or unit

/-- Every copy moves those before it up, and none of them leaves the word. -/
theorem toNat_copies {chunk : Chunk} {unit : Word d} (hUnit : unit.toNat = chunk.number)
    (times : Nat) (hRoom : d.Holds (2 ^ (chunk.width * times) - 1)) :
    (copies chunk.width unit times).toNat
      = (Chunk.join (List.replicate times chunk)).number := by
  induction times with
  | zero => exact toNat_zero d
  | succ times ih =>
      have hFewer : 2 ^ (chunk.width * times) ≤ 2 ^ (chunk.width * (times + 1)) :=
        Nat.pow_le_pow_right (by decide) (Nat.mul_le_mul_left _ (Nat.le_succ times))
      have hBefore := ih (hRoom.of_le (Nat.sub_le_sub_right hFewer 1))
      have hBound := Chunk.number_join_replicate_lt (times + 1) chunk
      rw [Chunk.join_replicate_succ, Chunk.number_append] at hBound ⊢
      have hShifted : (shiftLeft (copies chunk.width unit times) chunk.width).toNat
          = (Chunk.join (List.replicate times chunk)).number <<< chunk.width := by
        rw [← hBefore]
        apply toNat_shiftLeft_of_holds
        rw [hBefore, Nat.shiftLeft_eq]
        exact Capacity.holds_of_lt hRoom (by omega)
      rw [copies, toNat_or, hShifted, hUnit, shiftLeft_or_eq chunk.number_lt]

/-- `times` copies of `w` bits side by side, made in a word of another capacity. -/
def replicateWithin (w times : Nat) (d : Capacity) (a : Word c) : Word d :=
  (copies w (a.resizeWithin (w * times) d) times).and (ones d (w * times))

theorem toNat_replicateWithin (chunk : Chunk) {a : Word c} (ha : a.toNat = chunk.number)
    (times : Nat) (hRoom : d.Holds (2 ^ (chunk.width * times) - 1)) :
    (a.replicateWithin chunk.width times d).toNat
      = (Chunk.join (List.replicate times chunk)).number := by
  have hBound := Chunk.number_join_replicate_lt times chunk
  rw [replicateWithin, toNat_and_ones hRoom]
  cases times with
  | zero => rw [copies, toNat_zero, Nat.zero_mod, List.replicate_zero, Chunk.join,
      List.foldl_nil, Chunk.number_empty]
  | succ times =>
      have hOne : a.toNat < 2 ^ (chunk.width * (times + 1)) := by
        rw [ha]
        exact Nat.lt_of_lt_of_le chunk.number_lt (Nat.pow_le_pow_right (by decide)
          (Nat.le_mul_of_pos_right _ (Nat.succ_pos times)))
      have hUnit := (toNat_resizeWithin_of_lt hRoom hOne).trans ha
      rw [toNat_copies hUnit _ hRoom, Nat.mod_eq_of_lt hBound]

end Word

/-! ### Vectors -/

theorem Stored.copies_eq (step : Nat) (unit : Stored n) (times : Nat) :
    Stored.copies step unit times = Word.copies step unit times := by
  induction times with
  | zero => rfl
  | succ times ih => rw [Stored.copies, Word.copies, ih]

namespace Bits

/-- Vectors of one width are equal when they have the same bits. -/
theorem ext_bit {a b : Bits w} (h : ∀ index, a.bit index = b.bit index) : a = b := by
  apply ext_toNat
  apply Nat.eq_of_testBit_eq
  intro index
  rw [← bit_eq_testBit, ← bit_eq_testBit]
  exact h index

theorem bit_resize (n : Nat) (a : Bits w) (index : Nat) :
    (a.resize n).bit index = (decide (index < n) && a.bit index) := by
  rw [bit_eq_testBit, toNat_resize, Nat.testBit_mod_two_pow, bit_eq_testBit]

theorem shiftLeft_lt (a : Bits w) (h : w ≤ n) : a.toNat <<< (n - w) < 2 ^ n := by
  have hWhole : 2 ^ w * 2 ^ (n - w) = 2 ^ n := by rw [← Nat.pow_add, Nat.add_sub_cancel' h]
  rw [Nat.shiftLeft_eq, ← hWhole]
  exact Nat.mul_lt_mul_of_pos_right a.toNat_lt (Nat.two_pow_pos _)

theorem toNat_alignTop (a : Bits w) (h : w ≤ n) :
    (a.alignTop n h).toNat = a.toNat <<< (n - w) := by
  have hWord : (a.alignTop n h).word = a.word.alignWithin n (n - w) _ :=
    word_lsl (a.resize n) (n - w)
  show (a.alignTop n h).word.toNat = _
  rw [hWord]
  exact Word.toNat_alignWithin (Capacity.holds_ones n) (a.shiftLeft_lt h)

theorem bit_alignTop (a : Bits w) (h : w ≤ n) (index : Nat) :
    (a.alignTop n h).bit index = (decide (n - w ≤ index) && a.bit (index - (n - w))) := by
  rw [bit_eq_testBit, toNat_alignTop, Nat.testBit_shiftLeft, bit_eq_testBit]

theorem toNat_replicate (a : Bits w) (times : Nat) :
    (a.replicate times).toNat = (Chunk.join (List.replicate times ⟨w, a⟩)).number := by
  have hWord : (a.replicate times).word = a.word.replicateWithin w times _ :=
    congrArg Stored.masked (Stored.copies_eq w _ times)
  show (a.replicate times).word.toNat = _
  rw [hWord]
  exact Word.toNat_replicateWithin ⟨w, a⟩ rfl times (Capacity.holds_ones _)

theorem replicate_eq_join (a : Bits w) (times : Nat) :
    (⟨w * times, a.replicate times⟩ : Chunk) = Chunk.join (List.replicate times ⟨w, a⟩) :=
  Chunk.ext_number (Chunk.width_join_replicate times ⟨w, a⟩).symm (a.toNat_replicate times)

/-- Every bit that the new width has room for arrives, and added bits are zero. A
concatenation is a number of two parts, and copies side by side are put together one by one.
The formulas give the same in words of any capacities, as long as the bits have room in the
word that they arrive in. -/
theorem width_changes_exact (a : Bits w) :
    (∀ n (h : n ≤ w), ∀ index < n, (a.truncate n h).bit index = a.bit index) ∧
      (∀ n (h : w ≤ n),
        (∀ index < w, (a.zext n h).bit index = a.bit index) ∧
          (∀ index, w ≤ index → (a.zext n h).bit index = false) ∧
          (∀ index, n - w ≤ index → (a.alignTop n h).bit index = a.bit (index - (n - w))) ∧
          ∀ index < n - w, (a.alignTop n h).bit index = false) ∧
      (∀ (l : Nat) (lo : Bits l), (a.concat lo).toNat = a.toNat * 2 ^ l + lo.toNat) ∧
      (∀ times,
        (⟨w * times, a.replicate times⟩ : Chunk) = Chunk.join (List.replicate times ⟨w, a⟩)) ∧
      ∀ (c d : Capacity) (x : Word c), x.toNat = a.toNat →
        (∀ n (h : n ≤ w), d.Holds (2 ^ n - 1) →
            (x.resizeWithin n d).toNat = (a.truncate n h).toNat) ∧
          (∀ n (h : w ≤ n), d.Holds (2 ^ n - 1) →
            (x.resizeWithin n d).toNat = (a.zext n h).toNat ∧
              (x.alignWithin n (n - w) d).toNat = (a.alignTop n h).toNat) ∧
          (∀ (c' : Capacity) (l : Nat) (lo : Bits l) (y : Word c'), y.toNat = lo.toNat →
            d.Holds (2 ^ (w + l) - 1) →
            (x.concatWithin (w + l) l d y).toNat = (a.concat lo).toNat) ∧
          ∀ times, d.Holds (2 ^ (w * times) - 1) →
            (x.replicateWithin w times d).toNat = (a.replicate times).toNat := by
  refine ⟨?_, ?_, fun l lo => toNat_concat a lo, a.replicate_eq_join, ?_⟩
  · intro n h index hIndex
    show (a.resize n).bit index = _
    rw [bit_resize, decide_eq_true hIndex, Bool.true_and]
  · intro n h
    have hKept (index : Nat) : (a.zext n h).bit index = (decide (index < n) && a.bit index) :=
      a.bit_resize n index
    refine ⟨?_, ?_, ?_, ?_⟩
    · intro index hIndex
      rw [hKept, decide_eq_true (Nat.lt_of_lt_of_le hIndex h), Bool.true_and]
    · intro index hIndex
      rw [hKept, bit_of_le hIndex, Bool.and_false]
    · intro index hIndex
      rw [bit_alignTop, decide_eq_true hIndex, Bool.true_and]
    · intro index hIndex
      rw [bit_alignTop, decide_eq_false (Nat.not_le_of_lt hIndex), Bool.false_and]
  · intro c d x hx
    refine ⟨?_, ?_, ?_, ?_⟩
    · intro n h hRoom
      rw [Word.toNat_resizeWithin hRoom, hx]
      exact (toNat_resize n a).symm
    · intro n h hRoom
      have hShifted := a.shiftLeft_lt h
      rw [← hx] at hShifted
      rw [Word.toNat_resizeWithin hRoom, Word.toNat_alignWithin hRoom hShifted, toNat_alignTop, hx]
      exact ⟨(toNat_resize n a).symm, rfl⟩
    · intro c' l lo y hy hRoom
      rw [Word.toNat_concatWithin hRoom (hx ▸ a.toNat_lt) (hy ▸ lo.toNat_lt), toNat_concat, hx, hy]
    · intro times hRoom
      rw [toNat_replicate]
      exact Word.toNat_replicateWithin ⟨w, a⟩ hx times hRoom

/-- The top bit of 130 is lost in 128 bits and arrives in 200. In words: from the unbounded
one to one of 128 bits and to itself, with a byte below, and twice side by side. -/
theorem width_changes_exact_past_128 :
    128 ≤ 130 ∧ 2 < 128 ∧ ((ofNat 130 (2 ^ 129 + 5)).truncate 128 (by decide)).bit 2 = true ∧
      130 ≤ 200 ∧ 129 < 130 ∧
      ((ofNat 130 (2 ^ 129 + 5)).zext 200 (by decide)).bit 129 = true ∧
      ((ofNat 130 (2 ^ 129 + 5)).zext 200 (by decide)).bit 130 = false ∧
      200 - 130 ≤ 199 ∧ ((ofNat 130 (2 ^ 129 + 5)).alignTop 200 (by decide)).bit 199 = true ∧
      69 < 200 - 130 ∧ ((ofNat 130 (2 ^ 129 + 5)).alignTop 200 (by decide)).bit 69 = false ∧
      ((ofNat 130 (2 ^ 129 + 5)).concat (ofNat 8 3)).toNat = (2 ^ 129 + 5) * 2 ^ 8 + 3 ∧
      (Word.ofNat .unbounded (2 ^ 129 + 5)).toNat = (ofNat 130 (2 ^ 129 + 5)).toNat ∧
      (Capacity.machine .bits128).Holds (2 ^ 128 - 1) ∧
      ((Word.ofNat .unbounded (2 ^ 129 + 5)).resizeWithin 128 (.machine .bits128)).toNat
        = ((ofNat 130 (2 ^ 129 + 5)).truncate 128 (by decide)).toNat ∧
      Capacity.unbounded.Holds (2 ^ 200 - 1) ∧
      ((Word.ofNat .unbounded (2 ^ 129 + 5)).alignWithin 200 70 .unbounded).toNat
        = ((ofNat 130 (2 ^ 129 + 5)).alignTop 200 (by decide)).toNat ∧
      (Word.ofNat (.machine .bits8) 3).toNat = (ofNat 8 3).toNat ∧
      ((Word.ofNat .unbounded (2 ^ 129 + 5)).concatWithin 138 8 .unbounded
        (Word.ofNat (.machine .bits8) 3)).toNat
        = ((ofNat 130 (2 ^ 129 + 5)).concat (ofNat 8 3)).toNat ∧
      ((Word.ofNat .unbounded (2 ^ 129 + 5)).replicateWithin 130 2 .unbounded).toNat
        = ((ofNat 130 (2 ^ 129 + 5)).replicate 2).toNat := by
  obtain ⟨hCut, hWide, hJoined, -, hWords⟩ := width_changes_exact (ofNat 130 (2 ^ 129 + 5))
  obtain ⟨hKept, hAdded, hMoved, hBelow⟩ := hWide 200 (by decide)
  have hRoom : (Capacity.machine .bits128).Holds (2 ^ 128 - 1) := Stored.two_pow_sub_one_lt 128
  obtain ⟨hNarrow, -, -, -⟩ := hWords .unbounded (.machine .bits128) (Word.ofNat _ _) rfl
  obtain ⟨-, hWiden, hConcat, hCopies⟩ := hWords .unbounded .unbounded (Word.ofNat _ _) rfl
  refine ⟨by decide, by decide, ?_, by decide, by decide, ?_, ?_, by decide, ?_, by decide, ?_, ?_,
    rfl, hRoom, ?_, trivial, ?_, rfl, ?_, ?_⟩
  · exact hCut 128 (by decide) 2 (by decide)
  · rw [hKept 129 (by decide), bit_eq_testBit, toNat_ofNat]
    decide
  · exact hAdded 130 (by decide)
  · rw [hMoved 199 (by decide), bit_eq_testBit, toNat_ofNat]
    decide
  · exact hBelow 69 (by decide)
  · exact hJoined 8 (ofNat 8 3)
  · exact hNarrow 128 (by decide) hRoom
  · exact (hWiden 200 (by decide) trivial).2
  · exact hConcat (.machine .bits8) 8 (ofNat 8 3) (Word.ofNat _ 3) rfl trivial
  · exact hCopies 2 trivial

end Bits

end AtomicRules
