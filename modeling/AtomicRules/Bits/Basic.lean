import AtomicRules.Bits.Stored

/-!
# Bit vectors

`Bits w` is an unsigned number of exactly `w` bits, kept in the storage word of
that width together with the fact that it fits. All arithmetic is modulo
`2 ^ w`. The signed operations read the same pattern as a two's complement
number whose sign is bit `w - 1`.

Conditions on widths — a truncation does not widen, a field lies inside its
vector — are arguments of the operations that have them, found by `omega` where
the widths are known.

## Main results

* `Bits.ext_toNat` — two vectors of one width are equal when their numbers are.
* `Bits.ofRaw_eq_ok_iff` — a stored word is accepted unchecked exactly when it
  fits.
* `Bits.toNat_ofNat` — reading a number keeps it modulo `2 ^ w`.
-/

namespace AtomicRules

/-- An unsigned number of exactly `w` bits. -/
structure Bits (w : Nat) where
  word : Stored w
  fits : word.toNat < 2 ^ w

namespace Bits

variable {w n l s : Nat}

/-- The number a vector stands for. -/
def toNat (a : Bits w) : Nat := a.word.toNat

theorem ext_toNat {a b : Bits w} (h : a.toNat = b.toNat) : a = b := by
  cases a
  cases b
  congr
  exact Word.ext h

theorem toNat_inj {a b : Bits w} : a.toNat = b.toNat ↔ a = b :=
  ⟨ext_toNat, fun h => h ▸ rfl⟩

theorem toNat_lt (a : Bits w) : a.toNat < 2 ^ w := a.fits

instance : DecidableEq (Bits w) := fun a b =>
  if h : a.toNat = b.toNat then isTrue (ext_toNat h)
  else isFalse fun e => h (e ▸ rfl)

/-! ### Making vectors -/

/-- The vector whose bits are all clear. -/
def zero (w : Nat) : Bits w := ⟨Word.zero _, Stored.zero_lt w⟩

/-- The vector whose bits are all set. -/
def ones (w : Nat) : Bits w := ⟨Stored.mask w, Stored.mask_lt w⟩

/-- Takes the low `w` bits of a storage word. -/
def ofWord (a : Stored w) : Bits w := ⟨Stored.masked a, Stored.masked_lt a⟩

/-- Takes the low `w` bits of a number below `2 ^ 128`. -/
def ofNat128 (w value : Nat) : Bits w := ofWord (Word.ofNat _ (value % 2 ^ 128))

/-- The part of a number that a storage word is read from: a machine word sees
the low 128 bits only. -/
def readable : Capacity → Nat → Nat
  | .machine _, value => value % 2 ^ 128
  | .unbounded, value => value

/-- Takes the low `w` bits of a number. -/
def ofNat (w value : Nat) : Bits w :=
  ofWord (Word.ofNat _ (readable (Capacity.ofWidth w) value))

/-- Takes a storage word as it is, and refuses it when it does not fit. -/
def ofRaw (a : Stored w) : Except Stored.Overflow (Bits w) :=
  if h : a.toNat ≤ (Stored.mask w).toNat then .ok ⟨a, Stored.le_mask_iff.1 h⟩
  else .error ⟨a.toNat, w⟩

/-- Checks the stored word again. -/
def checkInvariant (a : Bits w) : Except Stored.Overflow Unit := Stored.checkInvariant a.word

/-- One bit for a truth value. -/
def ofBool (value : Bool) : Bits 1 := ofNat128 1 value.toNat

instance : Inhabited (Bits w) := ⟨zero w⟩

@[simp] theorem toNat_zero (w : Nat) : (zero w).toNat = 0 := Word.toNat_zero _

@[simp] theorem toNat_ones (w : Nat) : (ones w).toNat = 2 ^ w - 1 := Stored.toNat_mask w

theorem ofRaw_eq_ok_iff {a : Stored w} {b : Bits w} :
    ofRaw a = .ok b ↔ a.toNat < 2 ^ w ∧ b.word = a := by
  unfold ofRaw
  split
  · refine ⟨fun h => ?_, fun h => ?_⟩
    · cases h
      exact ⟨Stored.le_mask_iff.1 ‹_›, rfl⟩
    · cases b
      cases h.2
      rfl
  · exact ⟨nofun, fun h => absurd (Stored.le_mask_iff.2 h.1) ‹_›⟩

theorem ofNat_mod_width (w value : Nat) :
    (Capacity.ofWidth w).clip (readable (Capacity.ofWidth w) value) % 2 ^ w = value % 2 ^ w := by
  have drop {size : MachineSize} (hw : w ≤ size.bits) :
      value % 2 ^ 128 % 2 ^ size.bits % 2 ^ w = value % 2 ^ w := by
    have h128 : size.bits ≤ 128 := by cases size <;> decide
    rw [Nat.mod_mod_of_dvd _ (Nat.pow_dvd_pow 2 hw),
      Nat.mod_mod_of_dvd _ (Nat.pow_dvd_pow 2 (Nat.le_trans hw h128))]
  unfold Capacity.ofWidth
  split
  · exact drop ‹_›
  split
  · exact drop ‹_›
  split
  · exact drop ‹_›
  split
  · exact drop ‹_›
  split
  · exact drop ‹_›
  · rfl

@[simp] theorem toNat_ofNat (w value : Nat) : (ofNat w value).toNat = value % 2 ^ w := by
  show (Stored.masked _).toNat = _
  rw [Stored.toNat_masked, Word.toNat_ofNat, ofNat_mod_width]

theorem ofNat_toNat (a : Bits w) : ofNat w a.toNat = a :=
  ext_toNat (by rw [toNat_ofNat, Nat.mod_eq_of_lt a.toNat_lt])

/-! ### Reading vectors -/

/-- The low 128 bits. -/
def low128 (a : Bits w) : Nat := a.word.low128

/-- The low 64 bits. -/
def low64 (a : Bits w) : Nat := a.low128 % 2 ^ 64

/-- No bit is set. -/
def isZero (a : Bits w) : Bool := a.word.isZero

/-- Some bit is set. -/
def toBool (a : Bits w) : Bool := !a.isZero

/-- Bit `index`; bits at and above the width read as clear. -/
def bit (a : Bits w) (index : Nat) : Bool := decide (index < w) && a.word.testBit index

/-- The value as a shift amount or bit number, at most `2 ^ 32 - 1`. -/
def amount32 (a : Bits s) : Nat := Stored.amount32 a.word

/-- The bit that another vector selects. -/
def index (a : Bits w) (i : Bits s) : Bits 1 := ofBool (a.bit i.amount32)

/-- The top bit is set. -/
def isNegative (a : Bits w) : Bool := Stored.isNegative a.word

/-- The top bit; clear for the vector without bits. -/
def msb (a : Bits w) : Bits 1 := ofBool a.isNegative

/-! ### Logic and arithmetic -/

/-- Bits set in both. -/
def and (a b : Bits w) : Bits w := ⟨Word.and a.word b.word, Stored.and_lt a.fits⟩

/-- Bits set in either. -/
def or (a b : Bits w) : Bits w := ⟨Word.or a.word b.word, Stored.or_lt a.fits b.fits⟩

/-- Bits set in exactly one. -/
def xor (a b : Bits w) : Bits w := ⟨Word.xor a.word b.word, Stored.xor_lt a.fits b.fits⟩

/-- Every bit inverted. -/
def not (a : Bits w) : Bits w := ⟨Stored.not a.word, Stored.not_lt a.fits⟩

/-- Sum modulo `2 ^ w`. -/
def add (a b : Bits w) : Bits w := ⟨Stored.add a.word b.word, Stored.add_lt _ _⟩

/-- Difference modulo `2 ^ w`. -/
def sub (a b : Bits w) : Bits w := ⟨Stored.sub a.word b.word, Stored.sub_lt _ _⟩

instance : AndOp (Bits w) := ⟨and⟩
instance : OrOp (Bits w) := ⟨or⟩
instance : XorOp (Bits w) := ⟨xor⟩
instance : Complement (Bits w) := ⟨not⟩
instance : Add (Bits w) := ⟨add⟩
instance : Sub (Bits w) := ⟨sub⟩

/-! ### Shifts -/

/-- Logical shift up. -/
def lsl (a : Bits w) (amount : Nat) : Bits w := ⟨Stored.lsl a.word amount, Stored.lsl_lt _ _⟩

/-- Logical shift down. -/
def lsr (a : Bits w) (amount : Nat) : Bits w :=
  ⟨Stored.lsr a.word amount, Stored.lsr_lt a.fits _⟩

/-- Arithmetic shift down, filling with the top bit. -/
def asr (a : Bits w) (amount : Nat) : Bits w :=
  ⟨Stored.asr a.word amount, Stored.asr_lt a.fits _⟩

instance : HShiftLeft (Bits w) Nat (Bits w) := ⟨lsl⟩
instance : HShiftRight (Bits w) Nat (Bits w) := ⟨lsr⟩
instance : HShiftLeft (Bits w) (Bits s) (Bits w) := ⟨fun a i => a.lsl i.amount32⟩
instance : HShiftRight (Bits w) (Bits s) (Bits w) := ⟨fun a i => a.lsr i.amount32⟩

/-! ### Order -/

/-- Order of the unsigned numbers. -/
def cmp (a b : Bits w) : Ordering := compare a.toNat b.toNat

instance : Ord (Bits w) := ⟨cmp⟩
instance : LT (Bits w) := ⟨fun a b => a.toNat < b.toNat⟩
instance : LE (Bits w) := ⟨fun a b => a.toNat ≤ b.toNat⟩
instance (a b : Bits w) : Decidable (a < b) := inferInstanceAs (Decidable (a.toNat < b.toNat))
instance (a b : Bits w) : Decidable (a ≤ b) := inferInstanceAs (Decidable (a.toNat ≤ b.toNat))

/-- Order of the two's complement numbers: a negative pattern is below every
other, and patterns of one sign are ordered as unsigned numbers. -/
def signedCmp (a b : Bits w) : Ordering :=
  match a.isNegative, b.isNegative with
  | true, false => .lt
  | false, true => .gt
  | _, _ => a.cmp b

/-- Signed `<`. -/
def slt (a b : Bits w) : Bool := a.signedCmp b == .lt

/-- Signed `≤`. -/
def sle (a b : Bits w) : Bool := a.signedCmp b != .gt

/-- Signed `>`. -/
def sgt (a b : Bits w) : Bool := a.signedCmp b == .gt

/-- Signed `≥`. -/
def sge (a b : Bits w) : Bool := a.signedCmp b != .lt

/-! ### The signed view -/

/-- A 128-bit pattern read as a two's complement number. -/
def signed128 (pattern : Nat) : Int :=
  if pattern < 2 ^ 127 then pattern else (pattern : Int) - 2 ^ 128

/-- The two's complement number of a vector of at most 128 bits. The pattern is
moved to the top of 128 bits, so that its top bit is the sign there, and the
signed number is shifted down again. -/
def toInt128 (a : Bits w) (_h : w ≤ 128 := by omega) : Int :=
  if w = 0 then 0
  else signed128 ((a.low128 <<< (128 - w)) % 2 ^ 128) >>> (128 - w)

/-- The low `w` bits of a two's complement number of 128 bits. -/
def ofInt128 (w : Nat) (value : Int) (_h : w ≤ 128 := by omega) : Bits w :=
  ofNat128 w (value % 2 ^ 128).toNat

/-! ### Changes of width -/

/-- The low `n` bits, or all of them with zeros above. -/
def resize (n : Nat) (a : Bits w) : Bits n := ⟨Stored.resize n a.word, Stored.resize_lt _ _⟩

/-- The low `n` bits. -/
def truncate (n : Nat) (a : Bits w) (_h : n ≤ w := by omega) : Bits n := a.resize n

/-- Zeros added above. -/
def zext (n : Nat) (a : Bits w) (_h : w ≤ n := by omega) : Bits n := a.resize n

/-- Zeros added below, so that the value moves to the top. -/
def alignTop (n : Nat) (a : Bits w) (_h : w ≤ n := by omega) : Bits n :=
  ⟨Stored.alignTop n a.word, Stored.alignTop_lt _ _⟩

/-- Copies of the top bit added above. -/
def sext (n : Nat) (a : Bits w) (h : w ≤ n := by omega) : Bits n :=
  ⟨Stored.sext n a.word, Stored.sext_lt h _⟩

/-- `hi` above `lo`. -/
def concat (hi : Bits w) (lo : Bits l) : Bits (w + l) :=
  ⟨Stored.concat hi.word lo.word, Stored.masked_lt _⟩

/-- The `n` bits from `offset` on, a field that lies inside the vector. -/
def slice (offset n : Nat) (a : Bits w) (_h : offset + n ≤ w := by omega) : Bits n :=
  ⟨Stored.slice offset n a.word, Stored.resize_lt _ _⟩

/-- The `n` bits from `offset` on, wherever that is; bits past the top read as
zero. -/
def window (offset n : Nat) (a : Bits w) (_h : n ≤ w := by omega) : Bits n :=
  ⟨Stored.slice offset n a.word, Stored.resize_lt _ _⟩

/-- The vector with the `n` bits at `offset` replaced. -/
def splice (offset : Nat) (a : Bits w) (field : Bits n) (_h : offset + n ≤ w := by omega) :
    Bits w :=
  ⟨Stored.splice offset a.word field.word, Stored.masked_lt _⟩

/-- `times` copies side by side. -/
def replicate (times : Nat) (a : Bits w) : Bits (w * times) :=
  ⟨Stored.replicate times a.word, Stored.masked_lt _⟩

end Bits

end AtomicRules
