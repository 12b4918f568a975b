import AtomicRules.Bits.Basic

/-!
# Text of bit vectors

A vector is written as its width, a quote, a letter for the radix and the
digits. Binary always shows every bit; hexadecimal and decimal show the
shortest form. The full style is binary followed by both short forms, up to 64
bits, and hexadecimal above that.

Texts are lists of characters here, so that they can be taken apart by
recursion; `ofList` makes strings of them where they leave the library.

## Main results

* `length_binDigits` — binary text has exactly as many digits as the width.
-/

namespace AtomicRules

/-- How a vector is written. -/
inductive Style where
  /-- Binary, hexadecimal and decimal, or hexadecimal alone above 64 bits. -/
  | full
  | bin
  | hex
  | dec
  deriving DecidableEq, Repr, Inhabited

/-- Shortest decimal digits of a number. -/
def decimal (n : Nat) : List Char := Nat.toDigits 10 n

/-- Shortest hexadecimal digits of a number, in lower case. -/
def hexadecimal (n : Nat) : List Char := Nat.toDigits 16 n

namespace Bits

variable {w : Nat}

/-- Every bit as a digit, the top bit first; nothing for the vector without
bits. -/
def binDigits (a : Bits w) : List Char :=
  if w = 0 then []
  else
    let digits := Nat.toDigits 2 a.toNat
    List.replicate (w - digits.length) '0' ++ digits

theorem length_binDigits (a : Bits w) : a.binDigits.length = w := by
  unfold binDigits
  split
  · simp_all
  · have hlen : (Nat.toDigits 2 a.toNat).length ≤ w :=
      (Nat.length_toDigits_le_iff (by decide) (Nat.pos_of_ne_zero ‹_›)).2 a.toNat_lt
    simp only [List.length_append, List.length_replicate]
    omega

/-- Shortest hexadecimal digits. -/
def hexDigits (a : Bits w) : List Char := hexadecimal a.toNat

/-- Shortest decimal digits. -/
def decDigits (a : Bits w) : List Char := decimal a.toNat

/-- The vector written in a style. -/
def text (style : Style) (a : Bits w) : List Char :=
  match style with
  | .bin => decimal w ++ "'b".toList ++ a.binDigits
  | .hex => decimal w ++ "'x".toList ++ a.hexDigits
  | .dec => decimal w ++ "'d".toList ++ a.decDigits
  | .full =>
      if w ≤ 64 then
        decimal w ++ "'b".toList ++ a.binDigits ++ " (0x".toList ++ a.hexDigits
          ++ ", ".toList ++ a.decDigits ++ ")".toList
      else decimal w ++ "'x".toList ++ a.hexDigits

/-- The vector written in a style, as a string. -/
def format (style : Style) (a : Bits w) : String := String.ofList (a.text style)

/-- The bits as a string of exactly `w` digits. -/
def binString (a : Bits w) : String := String.ofList a.binDigits

/-- The shortest hexadecimal form as a string. -/
def hexString (a : Bits w) : String := String.ofList a.hexDigits

end Bits

/-- What is said of a stored word that does not fit its width. -/
def Stored.Overflow.message (e : Stored.Overflow) : String :=
  "bit-vector invariant violated: " ++ String.ofList (hexadecimal e.word) ++
    " does not fit in " ++ String.ofList (decimal e.width) ++ " bits"

end AtomicRules
