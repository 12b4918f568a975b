/-!
# Storage words

A bit vector is kept in a *storage word*: one of five machine words, or an
integer without bound when no machine word is large enough. This module is
the bottom of the library. It says which word backs which width and gives the
operations of a word, none of which knows the width of the vector above it: a
machine word drops what passes its capacity, the unbounded word drops nothing.

The two subtractions differ. A machine word wraps at its capacity. The
unbounded word has nothing to wrap at and adds the complement of the
subtrahend inside a mask instead, so its result may pass the mask and has to
be cut by the caller.

## Main results

* `Capacity.holds_clip` — clipping a number makes it fit the capacity.
* `Capacity.clip_of_holds` — a number that fits is not changed by clipping.
* `Word.toNat_ones` — `ones` is `2 ^ width - 1` in every word that is wide
  enough.
* `Capacity.holds_ofWidth` — a width is backed by a word wide enough for it.
-/

namespace AtomicRules

-- Powers of numbers are core's in the whole library, whatever other instance is in scope.
attribute [instance (high), default_instance high + 1] instPowNat

/-! ### Capacities -/

/-- The machine words, by their number of bits. -/
inductive MachineSize where
  | bits8
  | bits16
  | bits32
  | bits64
  | bits128
  deriving DecidableEq, Repr

/-- Number of bits of a machine word. -/
def MachineSize.bits : MachineSize → Nat
  | bits8 => 8
  | bits16 => 16
  | bits32 => 32
  | bits64 => 64
  | bits128 => 128

/-- How much a storage word can hold. -/
inductive Capacity where
  | machine (size : MachineSize)
  | unbounded
  deriving DecidableEq, Repr

namespace Capacity

/-- Number of bits of the word, or `none` when there is no bound. -/
def bits? : Capacity → Option Nat
  | machine size => some size.bits
  | unbounded => none

/-- The smallest word that has room for `width` bits. -/
def ofWidth (width : Nat) : Capacity :=
  if width ≤ 8 then machine .bits8
  else if width ≤ 16 then machine .bits16
  else if width ≤ 32 then machine .bits32
  else if width ≤ 64 then machine .bits64
  else if width ≤ 128 then machine .bits128
  else unbounded

/-- A number fits a capacity when no bit of it is lost there. -/
def Holds : Capacity → Nat → Prop
  | machine size, n => n < 2 ^ size.bits
  | unbounded, _ => True

/-- Drops the bits that pass the capacity. -/
def clip : Capacity → Nat → Nat
  | machine size, n => n % 2 ^ size.bits
  | unbounded, n => n

theorem holds_clip (c : Capacity) (n : Nat) : c.Holds (c.clip n) := by
  cases c with
  | machine size => exact Nat.mod_lt _ (Nat.two_pow_pos _)
  | unbounded => trivial

theorem clip_of_holds {c : Capacity} {n : Nat} (h : c.Holds n) : c.clip n = n := by
  cases c with
  | machine size => exact Nat.mod_eq_of_lt h
  | unbounded => rfl

theorem clip_le (c : Capacity) (n : Nat) : c.clip n ≤ n := by
  cases c with
  | machine size => exact Nat.mod_le _ _
  | unbounded => exact Nat.le_refl _

theorem Holds.of_le {c : Capacity} {m n : Nat} (h : c.Holds n) (hle : m ≤ n) : c.Holds m := by
  cases c with
  | machine size => exact Nat.lt_of_le_of_lt hle h
  | unbounded => trivial

/-- The word chosen for a width has room for every number of that width. -/
theorem holds_ofWidth {width n : Nat} (h : n < 2 ^ width) : (ofWidth width).Holds n := by
  have fits {size : MachineSize} (hle : width ≤ size.bits) : (machine size).Holds n :=
    Nat.lt_of_lt_of_le h (Nat.pow_le_pow_right (by decide) hle)
  unfold ofWidth
  split
  · exact fits ‹_›
  split
  · exact fits ‹_›
  split
  · exact fits ‹_›
  split
  · exact fits ‹_›
  split
  · exact fits ‹_›
  · trivial

end Capacity

/-! ### Words -/

/-- A word of capacity `c`: a number that fits it. -/
@[ext]
structure Word (c : Capacity) where
  toNat : Nat
  holds : c.Holds toNat

namespace Word

variable {c : Capacity}

instance : DecidableEq (Word c) := fun a b =>
  if h : a.toNat = b.toNat then isTrue (Word.ext h)
  else isFalse fun e => h (e ▸ rfl)

/-- The word that keeps the bits of `n` the capacity has room for. -/
def ofNat (c : Capacity) (n : Nat) : Word c :=
  ⟨c.clip n, c.holds_clip n⟩

@[simp] theorem toNat_ofNat (c : Capacity) (n : Nat) : (ofNat c n).toNat = c.clip n := rfl

/-- The word without a set bit. -/
def zero (c : Capacity) : Word c := ofNat c 0

@[simp] theorem toNat_zero (c : Capacity) : (zero c).toNat = 0 :=
  Nat.le_zero.1 (c.clip_le 0)

/-- The low `width` bits set, as far as the capacity goes. -/
def ones : (c : Capacity) → Nat → Word c
  | .machine size, width => ofNat _ (2 ^ min width size.bits - 1)
  | .unbounded, width => ofNat _ (2 ^ width - 1)

/-- Where the capacity has room for `width` ones, `ones` is exact. -/
theorem toNat_ones {width : Nat} (h : c.Holds (2 ^ width - 1)) :
    (ones c width).toNat = 2 ^ width - 1 := by
  cases c with
  | unbounded => rfl
  | machine size =>
      have hpos : 0 < 2 ^ width := Nat.two_pow_pos width
      have hlt : 2 ^ width - 1 < 2 ^ size.bits := h
      have hpow : 2 ^ width ≤ 2 ^ size.bits := by omega
      have hle : width ≤ size.bits := (Nat.pow_le_pow_iff_right (by decide)).1 hpow
      show (2 ^ min width size.bits - 1) % 2 ^ size.bits = _
      rw [Nat.min_eq_left hle]
      exact Nat.mod_eq_of_lt hlt

/-- The low 128 bits. -/
def low128 (a : Word c) : Nat := a.toNat % 2 ^ 128

/-- Moves a word into another capacity. Between two unbounded words nothing is
lost; every other move goes through the low 128 bits, which no machine word
exceeds. -/
def convert : {c : Capacity} → (d : Capacity) → Word c → Word d
  | .unbounded, .unbounded, a => ofNat _ a.toNat
  | _, d, a => ofNat d a.low128

/-- Bits set in both. -/
def and (a b : Word c) : Word c := ofNat c (a.toNat &&& b.toNat)

/-- Bits set in either. -/
def or (a b : Word c) : Word c := ofNat c (a.toNat ||| b.toNat)

/-- Bits set in exactly one. -/
def xor (a b : Word c) : Word c := ofNat c (a.toNat ^^^ b.toNat)

/-- Sum, wrapping at the capacity. -/
def add (a b : Word c) : Word c := ofNat c (a.toNat + b.toNat)

/-- Difference. A machine word wraps at its capacity; the unbounded word adds
the complement of `b` inside `mask` and one, and may pass `mask`. -/
def sub : {c : Capacity} → Word c → Word c → Word c → Word c
  | .machine size, a, b, _ => ofNat _ (a.toNat + (2 ^ size.bits - b.toNat))
  | .unbounded, a, b, mask => ofNat _ (a.toNat + (mask.toNat ^^^ b.toNat) + 1)

/-- Moves every bit `amount` places up; a machine word shifted by its capacity
or more is zero. -/
def shiftLeft : {c : Capacity} → Word c → Nat → Word c
  | .machine size, a, amount =>
      if amount < size.bits then ofNat _ (a.toNat <<< amount) else zero _
  | .unbounded, a, amount => ofNat _ (a.toNat <<< amount)

/-- Moves every bit `amount` places down. -/
def shiftRight (a : Word c) (amount : Nat) : Word c := ofNat c (a.toNat >>> amount)

/-- Bit `index`, counted from the least significant one. -/
def testBit (a : Word c) (index : Nat) : Bool := a.toNat.testBit index

/-- No bit is set. -/
def isZero (a : Word c) : Bool := a.toNat == 0

/-! ### Values of the operations that lose nothing -/

theorem toNat_ofNat_of_le {a : Word c} {n : Nat} (h : n ≤ a.toNat) : (ofNat c n).toNat = n :=
  Capacity.clip_of_holds (a.holds.of_le h)

@[simp] theorem toNat_and (a b : Word c) : (a.and b).toNat = a.toNat &&& b.toNat :=
  toNat_ofNat_of_le Nat.and_le_left

@[simp] theorem toNat_shiftRight (a : Word c) (amount : Nat) :
    (a.shiftRight amount).toNat = a.toNat >>> amount :=
  toNat_ofNat_of_le (Nat.shiftRight_le _ _)

/-- A number below a power of two is not changed by bits below that power. -/
theorem holds_of_lt_of_lt {m n w : Nat} (hw : ∀ k, k < 2 ^ w → c.Holds k)
    (h : m < 2 ^ w) (hn : n < 2 ^ w) : c.Holds (m ||| n) ∧ c.Holds (m ^^^ n) :=
  ⟨hw _ (Nat.or_lt_two_pow h hn), hw _ (Nat.xor_lt_two_pow h hn)⟩

/-- A capacity is closed under bitwise disjunction and exclusive disjunction. -/
theorem holds_or_xor (a b : Word c) :
    c.Holds (a.toNat ||| b.toNat) ∧ c.Holds (a.toNat ^^^ b.toNat) := by
  cases c with
  | machine size => exact holds_of_lt_of_lt (fun _ h => h) a.holds b.holds
  | unbounded => exact ⟨trivial, trivial⟩

@[simp] theorem toNat_or (a b : Word c) : (a.or b).toNat = a.toNat ||| b.toNat :=
  Capacity.clip_of_holds (holds_or_xor a b).1

@[simp] theorem toNat_xor (a b : Word c) : (a.xor b).toNat = a.toNat ^^^ b.toNat :=
  Capacity.clip_of_holds (holds_or_xor a b).2

end Word

end AtomicRules
