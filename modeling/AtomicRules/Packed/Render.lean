import AtomicRules.Inspection
import AtomicRules.Packed.Ty

/-!
# Values for a reader

Scalars are written in the style asked for. An array is a bracketed list whose
elements change the full style to hexadecimal; an array of bytes is a quoted
string instead, unless strings are turned off. A struct lists its fields with
their names.

In a quoted string the visible ASCII characters stand for themselves, the quote
and the backslash after a backslash, and every other byte as two hexadecimal
digits. A blank is not visible, so it is written by its digits as well.

`Ty.inspect` is the other form, which shows the shape of a value: truth values
as words, vectors in full style at any depth and structs with their names.

## Main results

* `Ty.toList_repr` — the string form is the rendered characters.
-/

namespace AtomicRules

/-- Choices for writing a value. -/
structure RenderOptions where
  /-- Arrays of bytes are written as quoted strings. -/
  strings : Bool := true
  /-- A displayed value ends its line. -/
  newline : Bool := true
  style : Style := .full
  deriving DecidableEq, Repr

/-- Inside an array the full style gives way to hexadecimal. -/
def RenderOptions.inArray (options : RenderOptions) : RenderOptions :=
  { options with style := if options.style = .full then .hex else options.style }

/-! ### Quoted strings -/

/-- The low eight bits of a vector. -/
def Bits.lowByte {w : Nat} (a : Bits w) : UInt8 := UInt8.ofNat (a.low64 % 256)

/-- A byte as two hexadecimal digits. -/
def hexPair (byte : UInt8) : List Char :=
  [Nat.digitChar (byte.toNat / 16), Nat.digitChar (byte.toNat % 16)]

/-- Visible ASCII characters: from the exclamation mark to the tilde. -/
def isGraphic (byte : UInt8) : Bool := 33 ≤ byte && byte ≤ 126

/-- One byte of a quoted string: 34 is the quote and 92 the backslash. -/
def escapeByte (byte : UInt8) : List Char :=
  if byte = 34 ∨ byte = 92 then ['\\', Char.ofNat byte.toNat]
  else if isGraphic byte then [Char.ofNat byte.toNat]
  else '\\' :: 'x' :: hexPair byte

/-- A quoted string. -/
def quoteBytes (bytes : List UInt8) : List Char :=
  '"' :: bytes.flatMap escapeByte ++ ['"']

/-! ### Values -/

/-- The elements of a list with a separator between them. -/
def separated (separator : List Char) : List (List Char) → List Char
  | [] => []
  | [item] => item
  | item :: rest => item ++ separator ++ separated separator rest

/-- How a type with the width of a byte gives its byte. -/
def Ty.byte? : (ty : Ty) → Option (ty.Val → UInt8)
  | .bits w => if w = 8 then some (fun value => Bits.lowByte (show Bits w from value)) else none
  | _ => none

mutual

/-- A value written for a reader. -/
def Ty.render : (ty : Ty) → RenderOptions → ty.Val → List Char
  | .bool, options, value => (Bits.ofBool value).text options.style
  | .bits w, options, value => (show Bits w from value).text options.style
  | .array elem size, options, values =>
      let items := (show Vector elem.Val size from values).toList
      match elem.byte?, options.strings with
      | some byte, true => quoteBytes (items.map byte)
      | _, _ =>
          '[' :: separated "; ".toList (items.map fun item => elem.render options.inArray item)
            ++ [']']
  | .struct _ fields, options, values =>
      '\x7b' :: fields.render options " ".toList values ++ " \x7d".toList

/-- The fields of a struct, each after its separator; the first one differs. -/
def Fields.render : (fields : Fields) → RenderOptions → List Char → fields.Vals → List Char
  | .nil, _, _, _ => []
  | .cons name ty rest, options, separator, values =>
      separator ++ name.chars ++ " = ".toList ++ ty.render options values.1
        ++ rest.render options "; ".toList values.2

end

/-- A value as a string. -/
def Ty.repr (ty : Ty) (options : RenderOptions) (value : ty.Val) : String :=
  String.ofList (ty.render options value)

theorem Ty.toList_repr (ty : Ty) (options : RenderOptions) (value : ty.Val) :
    (ty.repr options value).toList = ty.render options value :=
  String.toList_ofList

/-- A value as a line, or without its end when the options say so. -/
def Ty.display (ty : Ty) (options : RenderOptions) (value : ty.Val) : String :=
  ty.repr options value ++ if options.newline then "\n" else ""

/-- The bytes of a byte array as they are, without quotes or escapes. -/
def rawBytes {n : Nat} (values : Vector (Bits 8) n) : List UInt8 :=
  values.toList.map Bits.lowByte

/-! ### The shape of a value -/

mutual

/-- A value with the names of its structs. -/
def Ty.inspect : (ty : Ty) → ty.Val → String
  | .bool, value => if (show Bool from value) then "true" else "false"
  | .bits w, value => (show Bits w from value).format .full
  | .array elem size, values =>
      Inspection.listing ((show Vector elem.Val size from values).toList.map elem.inspect)
  | .struct name fields, values => Inspection.group name.text (fields.inspect values)

/-- The fields of a struct with their names. -/
def Fields.inspect : (fields : Fields) → fields.Vals → List String
  | .nil, _ => []
  | .cons name ty rest, values =>
      Inspection.entry name.text (ty.inspect values.1) :: rest.inspect values.2

end

end AtomicRules
