import AtomicRules.Packed.Chunks
import AtomicRules.Packed.Ty

/-!
# Packing values

A value is packed part by part, the first field or element into the highest
bits, and unpacked in the same order. The vector has the width that the type
declares. Where that is the number of bits of the parts, neither direction is
ever refused a chunk. A type that declares fewer bits has no packed values: the
packer is full before the value is at its end.
-/

namespace AtomicRules

variable {w : Nat}

/-! ### The two directions -/

mutual

/-- Appends the packed form of a value. -/
def Ty.packInto : (ty : Ty) → ty.Val → Packer w → Except ChunkFault (Packer w)
  | .bool, value, packer => packer.push (Bits.ofBool value)
  | .bits _, value, packer => packer.push (show Bits _ from value)
  | .array elem size, values, packer =>
      (show Vector elem.Val size from values).toList.foldlM
        (fun packer value => elem.packInto value packer) packer
  | .struct _ fields, values, packer => fields.packInto values packer

/-- Appends the packed forms of the fields. -/
def Fields.packInto : (fields : Fields) → fields.Vals → Packer w → Except ChunkFault (Packer w)
  | .nil, _, packer => .ok packer
  | .cons _ ty rest, values, packer => do
      rest.packInto values.2 (← ty.packInto values.1 packer)

end

/-- Reads `n` values one after the other. -/
def Unpacker.popMany {α : Type} (read : Unpacker w → Except ChunkFault (α × Unpacker w)) :
    (n : Nat) → Unpacker w → Except ChunkFault (Vector α n × Unpacker w)
  | 0, unpacker => .ok (#v[], unpacker)
  | n + 1, unpacker => do
      let (before, unpacker) ← popMany read n unpacker
      let (last, unpacker) ← read unpacker
      return (before.push last, unpacker)

mutual

/-- Reads a value from the next bits. -/
def Ty.unpackFrom : (ty : Ty) → Unpacker w → Except ChunkFault (ty.Val × Unpacker w)
  | .bool, unpacker => do
      let (bit, unpacker) ← unpacker.pop 1
      return (bit.toBool, unpacker)
  | .bits n, unpacker => unpacker.pop n
  | .array elem size, unpacker => unpacker.popMany elem.unpackFrom size
  | .struct _ fields, unpacker => fields.unpackFrom unpacker

/-- Reads the values of the fields. -/
def Fields.unpackFrom : (fields : Fields) → Unpacker w →
    Except ChunkFault (fields.Vals × Unpacker w)
  | .nil, unpacker => .ok ((), unpacker)
  | .cons _ ty rest, unpacker => do
      let (first, unpacker) ← ty.unpackFrom unpacker
      let (others, unpacker) ← rest.unpackFrom unpacker
      return ((first, others), unpacker)

end

/-- Packs a value with every check in place. -/
def Ty.pack? (ty : Ty) (value : ty.Val) : Except ChunkFault (Bits ty.width) := do
  (← ty.packInto value (Packer.empty ty.width)).finish

/-- Unpacks a value with every check in place. -/
def Ty.unpack? (ty : Ty) (packed : Bits ty.width) : Except ChunkFault ty.Val := do
  return (← ty.unpackFrom (Unpacker.ofBits packed)).1

/-! ### Packing without checks -/

/-- The packed form of a value. A value that is refused has none, and zero stands for it. -/
def Ty.pack (ty : Ty) (value : ty.Val) : Bits ty.width :=
  match ty.pack? value with
  | .ok packed => packed
  | .error _ => Bits.zero ty.width

/-- The value of a packed form, or zero where that is refused. -/
def Ty.unpack (ty : Ty) (packed : Bits ty.width) : ty.Val :=
  match ty.unpack? packed with
  | .ok value => value
  | .error _ => ty.zero

end AtomicRules
