import AtomicRules.Bits.Text
import AtomicRules.Ident

/-!
# Types with a fixed width

A register holds a truth value, a bit vector, an array or a struct, nested in
any way. `Ty` is the description of such a type and `Ty.Val` the type of its
values. An array without elements and a struct without fields take no bits.

The bits of a value are counted twice. `Ty.bitCount` adds up those of all parts.
`Ty.width` is the width that the type declares for its packed form. It is
computed from 32-bit numbers, and the size of an array is cut down to 32 bits
first, so an array of `2 ^ 32` elements or more can declare fewer bits than it
has. Types of fewer than `2 ^ 32` bits declare them all.

## Main results

* `Ty.width_eq_bitCount` — the declared width is the number of bits.
* `Ty.decEqVal` — values of one type can be compared.
-/

namespace AtomicRules

mutual

/-- The type of a register or of a part of one. -/
inductive Ty where
  | bool
  | bits (w : Nat)
  | array (elem : Ty) (size : Nat)
  | struct (name : Ident) (fields : Fields)

/-- The fields of a struct in declaration order. -/
inductive Fields where
  | nil
  | cons (name : Ident) (ty : Ty) (rest : Fields)

end

mutual

/-- Values of a type. -/
def Ty.Val : Ty → Type
  | .bool => Bool
  | .bits w => Bits w
  | .array elem size => Vector elem.Val size
  | .struct _ fields => fields.Vals

/-- Values of the fields of a struct, one after the other. -/
def Fields.Vals : Fields → Type
  | .nil => Unit
  | .cons _ ty rest => ty.Val × rest.Vals

end

mutual

/-- Number of bits of all parts of a value. -/
def Ty.bitCount : Ty → Nat
  | .bool => 1
  | .bits w => w
  | .array elem size => elem.bitCount * size
  | .struct _ fields => fields.bitCount

/-- Number of bits of all fields. -/
def Fields.bitCount : Fields → Nat
  | .nil => 0
  | .cons _ ty rest => ty.bitCount + rest.bitCount

end

mutual

/-- The declared width of a packed value. Of the size of an array it counts the low 32
bits only. -/
def Ty.width : Ty → Nat
  | .bool => 1
  | .bits w => w
  | .array elem size => elem.width * (size % 2 ^ 32)
  | .struct _ fields => fields.width

/-- The declared width of the packed fields. -/
def Fields.width : Fields → Nat
  | .nil => 0
  | .cons _ ty rest => ty.width + rest.width

end

mutual

/-- A type of fewer than `2 ^ 32` bits declares all of them. -/
theorem Ty.width_eq_bitCount : (ty : Ty) → ty.bitCount < 2 ^ 32 → ty.width = ty.bitCount
  | .bool, _ => rfl
  | .bits _, _ => rfl
  | .array elem size, h => by
      simp only [Ty.bitCount] at h
      simp only [Ty.width, Ty.bitCount]
      cases size with
      | zero => rw [Nat.zero_mod, Nat.mul_zero, Nat.mul_zero]
      | succ size =>
          have hElem : elem.bitCount ≤ elem.bitCount * (size + 1) :=
            Nat.le_mul_of_pos_right _ (Nat.succ_pos size)
          rw [Ty.width_eq_bitCount elem (Nat.lt_of_le_of_lt hElem h)]
          -- elements without bits may be as many as they like
          rcases Nat.eq_zero_or_pos elem.bitCount with hNone | hSome
          · rw [hNone, Nat.zero_mul, Nat.zero_mul]
          · have hSize : size + 1 ≤ elem.bitCount * (size + 1) := Nat.le_mul_of_pos_left _ hSome
            rw [Nat.mod_eq_of_lt (Nat.lt_of_le_of_lt hSize h)]
  | .struct _ fields, h => Fields.width_eq_bitCount fields h

/-- Fields of fewer than `2 ^ 32` bits declare all of them. -/
theorem Fields.width_eq_bitCount : (fields : Fields) → fields.bitCount < 2 ^ 32 →
    fields.width = fields.bitCount
  | .nil, _ => rfl
  | .cons _ ty rest, h => by
      simp only [Fields.bitCount] at h
      have hFirst := Ty.width_eq_bitCount ty (by omega)
      have hRest := Fields.width_eq_bitCount rest (by omega)
      simp only [Fields.width, Fields.bitCount, hFirst, hRest]

end

-- One element more than 32 bits can count: the array declares a single bit.
example : (Ty.array .bool (2 ^ 32 + 1)).width = 1 := rfl

mutual

/-- Values are equal when all their parts are. -/
def Ty.decEqVal : (ty : Ty) → DecidableEq ty.Val
  | .bool => inferInstanceAs (DecidableEq Bool)
  | .bits w => inferInstanceAs (DecidableEq (Bits w))
  | .array elem size =>
      have := elem.decEqVal
      inferInstanceAs (DecidableEq (Vector elem.Val size))
  | .struct _ fields => fields.decEqVals

/-- Field values are equal when they are so one by one. -/
def Fields.decEqVals : (fields : Fields) → DecidableEq fields.Vals
  | .nil => inferInstanceAs (DecidableEq Unit)
  | .cons _ ty rest =>
      have := ty.decEqVal
      have := rest.decEqVals
      inferInstanceAs (DecidableEq (ty.Val × rest.Vals))

end

mutual

/-- The value all of whose bits are zero. -/
def Ty.zero : (ty : Ty) → ty.Val
  | .bool => false
  | .bits w => Bits.zero w
  | .array elem size => Vector.replicate size elem.zero
  | .struct _ fields => fields.zeros

/-- The field values all of whose bits are zero. -/
def Fields.zeros : (fields : Fields) → fields.Vals
  | .nil => ()
  | .cons _ ty rest => (ty.zero, rest.zeros)

end

instance (ty : Ty) : DecidableEq ty.Val := ty.decEqVal

instance (fields : Fields) : DecidableEq fields.Vals := fields.decEqVals

/-- The array with one element replaced; an index past the end leaves it as it
is. -/
def replace {α : Type} {n : Nat} (values : Vector α n) (index : Nat) (value : α) : Vector α n :=
  values.setIfInBounds index value

end AtomicRules
