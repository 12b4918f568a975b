import AtomicRules.Bits.Text

/-!
# Literals

A literal is a run of digits in radix 2, 10 or 16 with a declared width.
Underscores may stand anywhere and are skipped; letters count in either case.
The text is read byte by byte from the left and the first byte that ends in a
problem decides the error, so a bad digit after an overflow is not reported.

No literal passes 128 bits, whatever its declared width: a prefix of the digits
that reaches `2 ^ 128` is too wide, and one that stays below it but passes the
greatest value of the width overflows.

## Main results

* `append_eq` — the two range checks of a step are one check of the new value.
* `parseBytes_unsupported` — the radix is checked before any digit.
-/

namespace AtomicRules.Literal

/-- Why a literal is rejected. -/
inductive Problem where
  | empty
  | invalidDigit
  | unsupportedRadix (radix : Nat)
  | overflow
  | tooWide
  deriving DecidableEq, Repr

/-- The full wording of a problem. -/
def Problem.message : Problem → String
  | empty => "literal has no digits"
  | invalidDigit => "literal contains a digit outside its radix"
  | unsupportedRadix radix => "unsupported literal radix " ++ String.ofList (decimal radix)
  | overflow => "literal overflows its declared width"
  | tooWide => "literal exceeds 128 bits"

/-- The wording where no number can be printed: the radix is left out. -/
def Problem.rejection : Problem → String
  | unsupportedRadix _ => "unsupported literal radix"
  | problem => problem.message

/-- The greatest value of a width, at most `2 ^ 128 - 1`. -/
def maxValue (width : Nat) : Nat :=
  if 128 ≤ width then 2 ^ 128 - 1 else 2 ^ width - 1

/-- The digit a byte stands for in some radix up to 16. -/
def digit? (byte : UInt8) : Option Nat :=
  if 48 ≤ byte ∧ byte ≤ 57 then some (byte.toNat - 48)
  else if 97 ≤ byte ∧ byte ≤ 102 then some (byte.toNat - 97 + 10)
  else if 65 ≤ byte ∧ byte ≤ 70 then some (byte.toNat - 65 + 10)
  else none

/-- The byte of the underscore. -/
def underscore : UInt8 := 95

/-- A result of the 128-bit arithmetic, or nothing where it does not fit. -/
def checked (n : Nat) : Option Nat :=
  if n < 2 ^ 128 then some n else none

/-- Appends one digit to the value read so far. -/
def append (radix max value : Nat) (digit : Nat) : Except Problem Nat :=
  if radix ≤ digit then .error .invalidDigit
  else
    match checked (value * radix) with
    | none => .error .tooWide
    | some scaled =>
        match checked (scaled + digit) with
        | none => .error .tooWide
        | some next => if max < next then .error .overflow else .ok next

/-- Reads the rest of a literal: `value?` is the value of the digits before it,
or `none` when there were none. -/
def scan (radix max : Nat) : List UInt8 → Option Nat → Except Problem Nat
  | [], none => .error .empty
  | [], some value => .ok value
  | byte :: rest, value? =>
      if byte = underscore then scan radix max rest value?
      else
        match digit? byte with
        | none => .error .invalidDigit
        | some digit =>
            match append radix max (value?.getD 0) digit with
            | .error problem => .error problem
            | .ok value => scan radix max rest (some value)

/-- Reads the bytes of a literal. -/
def parseBytes (digits : List UInt8) (radix width : Nat) : Except Problem Nat :=
  if radix = 2 ∨ radix = 10 ∨ radix = 16 then scan radix (maxValue width) digits none
  else .error (.unsupportedRadix radix)

/-- Reads a literal. -/
def parse (digits : String) (radix width : Nat) : Except Problem Nat :=
  parseBytes digits.toUTF8.data.toList radix width

theorem append_eq (radix max value digit : Nat) :
    append radix max value digit =
      if radix ≤ digit then .error .invalidDigit
      else if 2 ^ 128 ≤ value * radix + digit then .error .tooWide
      else if max < value * radix + digit then .error .overflow
      else .ok (value * radix + digit) := by
  unfold append checked
  by_cases hScaled : value * radix < 2 ^ 128
  · by_cases hNext : value * radix + digit < 2 ^ 128
    · simp only [hScaled, hNext, if_true, Nat.not_le.mpr hNext, if_false]
    · simp only [hScaled, hNext, if_true, Nat.not_lt.mp hNext, if_false]
  · have hNext : 2 ^ 128 ≤ value * radix + digit := by omega
    simp only [hScaled, hNext, if_true, if_false]

theorem parseBytes_unsupported {radix : Nat} (h : ¬(radix = 2 ∨ radix = 10 ∨ radix = 16))
    (digits : List UInt8) (width : Nat) :
    parseBytes digits radix width = .error (.unsupportedRadix radix) :=
  if_neg h

end AtomicRules.Literal
