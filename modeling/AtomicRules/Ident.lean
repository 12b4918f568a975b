/-!
# Names

Registers, structs and fields have names, which are fixed by the declarations
that introduce them and printed as they are written there. Which letters a name
may have is left open here. That it is a single line is all that is asked of it,
so that a line of a dump or of a trace stays one when a name stands in it.
-/

namespace AtomicRules

/-- A name that keeps to a line. -/
@[ext]
structure Ident where
  text : String
  isLine : '\n' ∉ text.toList := by decide
  deriving DecidableEq

namespace Ident

/-- The name with a given text, if that is a line. -/
def ofString? (text : String) : Option Ident :=
  if h : '\n' ∉ text.toList then some ⟨text, h⟩ else none

/-- The characters of the name. -/
def chars (name : Ident) : List Char := name.text.toList

instance : ToString Ident := ⟨text⟩

theorem newline_not_mem (name : Ident) : '\n' ∉ name.chars := name.isLine

end Ident

end AtomicRules
