import AtomicRules.Proofs.BinaryDigits
import AtomicRules.Proofs.LiteralGrammar

/-!
# Printed vectors are literals

A vector is printed by one program and a literal is read by another, and the two share no
code. What they share is positional notation: `Spells radix text n` says that a text is the
number `n` in a radix, digit by digit from the left. The printers produce such texts, the
binary one with zeros in front and the other two without. The reader takes any such text
whose number fits the width, as long as the number has no more than 128 bits.

Past that limit the reader ends at some digit. It cannot be that the width overflows there:
a number of more than 128 bits has a width above 128, and for these widths the greatest
value and the limit are the same number.

## Main results

* `spells_toDigits`, `spells_bitDigits` — the printers spell their numbers.
* `parse_of_spells` — reading a text that spells a number of the width.
* `Bits.parse_printed` — the digits of a printed vector, read in their radix.
-/

namespace AtomicRules

namespace Literal

variable {radix width n : Nat} {text : List Char}

/-! ### Positional notation -/

/-- The text is the number in positional notation, zeros in front allowed. -/
inductive Spells (radix : Nat) : List Char → Nat → Prop
  | nil : Spells radix [] 0
  | digit {front : List Char} {n digit : Nat} (hFront : Spells radix front n)
      (hDigit : digit < radix) : Spells radix (front ++ [digit.digitChar]) (n * radix + digit)

/-- The shortest digits of a number spell it. -/
theorem spells_toDigits (hRadix : 1 < radix) (n : Nat) :
    Spells radix (Nat.toDigits radix n) n := by
  induction n using Nat.strong_induction_on with
  | _ n ih =>
      by_cases hSmall : n < radix
      · have hOne := Spells.nil.digit hSmall
        rw [List.nil_append, Nat.zero_mul, Nat.zero_add] at hOne
        rwa [Nat.toDigits_of_lt_base hSmall]
      · have hLarge : radix ≤ n := Nat.le_of_not_lt hSmall
        have hFront := ih (n / radix) (Nat.div_lt_self (by omega) hRadix)
        have hAll := hFront.digit (Nat.mod_lt n (by omega))
        rwa [Nat.mul_comm, Nat.div_add_mod, ← Nat.toDigits_of_base_le hRadix hLarge] at hAll

/-- So do the low bits of a number that has no others. -/
theorem spells_bitDigits {w : Nat} (hn : n < 2 ^ w) : Spells 2 (bitDigits w n) n := by
  induction w generalizing n with
  | zero =>
      obtain rfl : n = 0 := by omega
      exact Spells.nil
  | succ w ih =>
      have hHalf : n / 2 < 2 ^ w := by
        rw [Nat.pow_succ] at hn
        omega
      have hAll := (ih hHalf).digit (Nat.mod_lt n (by decide))
      rwa [Nat.mul_comm, Nat.div_add_mod, digitChar_mod_two, ← bitDigits_succ] at hAll

/-! ### The bytes of a numeral -/

theorem faceValue?_digitChar {digit : Nat} (h : digit < 16) :
    faceValue? digit.digitChar.toUInt8 = some digit := by
  have hAll : ∀ d : Fin 16, faceValue? (d : Nat).digitChar.toUInt8 = some (d : Nat) := by decide
  exact hAll ⟨digit, h⟩

/-- A digit is one byte. -/
theorem utf8EncodeChar_digitChar {digit : Nat} (h : digit < 16) :
    String.utf8EncodeChar digit.digitChar = [digit.digitChar.toUInt8] := by
  have hAll : ∀ d : Fin 16, String.utf8EncodeChar (d : Nat).digitChar =
      [(d : Nat).digitChar.toUInt8] := by decide
  exact hAll ⟨digit, h⟩

/-- The bytes of a text. -/
def bytesOf (text : List Char) : List UInt8 := text.flatMap String.utf8EncodeChar

theorem parse_ofList (text : List Char) (radix width : Nat) :
    parse (String.ofList text) radix width = parseBytes (bytesOf text) radix width := by
  rw [parse, String.toUTF8, String.toByteArray_ofList, List.utf8Encode, List.data_toByteArray,
    bytesOf]

theorem bytesOf_concat_digit (front : List Char) {digit : Nat} (h : digit < 16) :
    bytesOf (front ++ [digit.digitChar]) = bytesOf front ++ [digit.digitChar.toUInt8] := by
  rw [bytesOf, List.flatMap_append, List.flatMap_singleton, utf8EncodeChar_digitChar h, bytesOf]

namespace Spells

theorem isDigit (h : Spells radix text n) (hRadix : radix ≤ 16) :
    ∀ byte ∈ bytesOf text, IsDigit radix byte := by
  induction h with
  | nil => simp [bytesOf]
  | digit _ hDigit ih =>
      have hFace := faceValue?_digitChar (Nat.lt_of_lt_of_le hDigit hRadix)
      rw [bytesOf_concat_digit _ (Nat.lt_of_lt_of_le hDigit hRadix), List.forall_mem_append,
        List.forall_mem_singleton]
      exact ⟨ih, _, hFace, hDigit⟩

theorem value_eq (h : Spells radix text n) (hRadix : radix ≤ 16) :
    value radix (bytesOf text) = n := by
  induction h with
  | nil => rfl
  | digit _ hDigit ih =>
      have hFace := faceValue?_digitChar (Nat.lt_of_lt_of_le hDigit hRadix)
      rw [bytesOf_concat_digit _ (Nat.lt_of_lt_of_le hDigit hRadix), value_concat_digit hFace, ih]

theorem digits_ne_nil (h : Spells radix text n) (hRadix : radix ≤ 16) (hText : text ≠ []) :
    digits (bytesOf text) ≠ [] := by
  cases h with
  | nil => exact absurd rfl hText
  | digit _ hDigit =>
      have hFace := faceValue?_digitChar (Nat.lt_of_lt_of_le hDigit hRadix)
      rw [bytesOf_concat_digit _ (Nat.lt_of_lt_of_le hDigit hRadix), digits_concat, hFace]
      simp

end Spells

/-! ### Reading a numeral -/

/-- A numeral whose number fits the width is read to that number, and is too wide exactly
when the number has more than 128 bits. -/
theorem parse_of_spells (hRadix : radix = 2 ∨ radix = 10 ∨ radix = 16)
    (hSpells : Spells radix text n) (hText : text ≠ []) (hFits : n < 2 ^ width) :
    parse (String.ofList text) radix width =
      if n < 2 ^ 128 then .ok n else .error .tooWide := by
  have hSixteen : radix ≤ 16 := by omega
  have hDigits := hSpells.isDigit hSixteen
  have hValue := hSpells.value_eq hSixteen
  rw [parse_ofList, parseBytes, if_pos hRadix]
  by_cases hNarrow : n < 2 ^ 128
  · have hCap : n ≤ 2 ^ min width 128 - 1 := by
      have hBoth : n < 2 ^ min width 128 := by
        rcases Nat.le_total width 128 with h | h
        · rwa [Nat.min_eq_left h]
        · rwa [Nat.min_eq_right h]
      omega
    have hPassed : Passed radix width (bytesOf text) :=
      passed_iff.mpr ⟨fun byte hByte => .inr (hDigits byte hByte), hValue.le.trans hCap⟩
    rw [if_pos hNarrow, scan_eq_ok_iff]
    exact ⟨hPassed, hSpells.digits_ne_nil hSixteen hText, hValue.symm⟩
  · have hMin : min width 128 = 128 := by
      apply Nat.min_eq_right
      by_contra hShort
      have hPow : 2 ^ width ≤ 2 ^ 128 := Nat.pow_le_pow_right (by decide) (by omega)
      omega
    rw [if_neg hNarrow, scan_eq_error_iff]
    rcases passed_or_firstProblem radix width (bytesOf text) with hPassed | ⟨problem, hFirst⟩
    · obtain ⟨-, hCap⟩ := passed_iff.mp hPassed
      rw [hValue, hMin] at hCap
      omega
    · obtain ⟨before, byte, after, hSplit, -, hEnds⟩ := id hFirst
      have hByte : IsDigit radix byte := hDigits byte (by rw [hSplit]; simp)
      cases hEnds with
      | invalidDigit _ hNot => exact absurd hByte hNot
      | tooWide _ _ => exact .inl hFirst
      | overflow _ hPast hShort =>
          rw [hMin] at hPast
          omega

end Literal

namespace Bits

variable {w : Nat}

theorem spells_binDigits (a : Bits w) : Literal.Spells 2 a.binDigits a.toNat := by
  have hDigits : a.binDigits = bitDigits w a.toNat := by
    rw [binDigits_eq, bitDigits]
    simp only [bit_eq_testBit]
  rw [hDigits]
  exact Literal.spells_bitDigits a.toNat_lt

/-- A text of a width, a mark and digits, as a string. -/
theorem ofList_numeral (width : List Char) (mark : String) (digits : List Char) :
    String.ofList (width ++ mark.toList ++ digits) =
      String.ofList width ++ mark ++ String.ofList digits := by
  rw [String.ofList_append, String.ofList_append, String.ofList_toList]

/-- The binary text of a vector has as many digits as the vector has bits. After their
prefix the binary, hexadecimal and decimal styles print digits that are read back, in their
radix and the width of the vector, to its number, or rejected as too wide when the number
has more than 128 bits. -/
theorem parse_printed (a : Bits w) (hWidth : 0 < w) :
    let width := String.ofList (decimal w)
    let decString := String.ofList a.decDigits
    let result : Except Literal.Problem Nat :=
      if a.toNat < 2 ^ 128 then .ok a.toNat else .error .tooWide
    (a.binString.length = w ∧ ∀ c ∈ a.binString.toList, c = '0' ∨ c = '1') ∧
      (a.format .bin = width ++ "'b" ++ a.binString ∧ Literal.parse a.binString 2 w = result) ∧
      (a.format .hex = width ++ "'x" ++ a.hexString ∧ Literal.parse a.hexString 16 w = result) ∧
      (a.format .dec = width ++ "'d" ++ decString ∧ Literal.parse decString 10 w = result) := by
  intro width decString result
  have hBin : a.binDigits ≠ [] := by
    intro hNone
    have hLength := a.length_binDigits
    rw [hNone] at hLength
    exact absurd hLength hWidth.ne
  refine ⟨⟨?_, ?_⟩, ⟨?_, ?_⟩, ⟨?_, ?_⟩, ?_, ?_⟩
  · rw [binString, String.length_ofList, length_binDigits]
  · intro c hc
    rw [binString, String.toList_ofList] at hc
    exact eq_of_mem_binDigits hc
  · exact ofList_numeral _ _ _
  · exact Literal.parse_of_spells (.inl rfl) a.spells_binDigits hBin a.toNat_lt
  · exact ofList_numeral _ _ _
  · exact Literal.parse_of_spells (.inr (.inr rfl)) (Literal.spells_toDigits (by decide) _)
      Nat.toDigits_ne_nil a.toNat_lt
  · exact ofList_numeral _ _ _
  · exact Literal.parse_of_spells (.inr (.inl rfl)) (Literal.spells_toDigits (by decide) _)
      Nat.toDigits_ne_nil a.toNat_lt

/-- A byte is read back from its two hexadecimal digits; `2 ^ 128` has a width of 129 and is
too wide in every radix. -/
theorem parse_printed_past_128 :
    let byte : Bits 8 := ofNat 8 42
    let past : Bits 129 := ofNat 129 (2 ^ 128)
    (0 < 8 ∧ byte.hexString = "2a" ∧ byte.format .hex = "8'x2a" ∧
        Literal.parse "2a" 16 8 = .ok 42) ∧
      0 < 129 ∧ past.binString.length = 129 ∧
        Literal.parse past.binString 2 129 = .error .tooWide ∧
        Literal.parse past.hexString 16 129 = .error .tooWide := by
  intro byte past
  have hByte : (0 : Nat) < 8 := by decide
  have hPast : (0 : Nat) < 129 := by decide
  obtain ⟨-, -, ⟨hText, hRead⟩, -⟩ := byte.parse_printed hByte
  obtain ⟨⟨hLength, -⟩, ⟨-, hBin⟩, ⟨-, hHex⟩, -⟩ := past.parse_printed hPast
  have hNumber : byte.toNat = 42 := toNat_ofNat 8 42
  have hDigits : byte.hexString = "2a" := by
    rw [hexString, hexDigits, hNumber]
    rfl
  have hLarge : ¬past.toNat < 2 ^ 128 := by
    rw [toNat_ofNat]
    decide
  rw [hDigits] at hText hRead
  rw [if_neg hLarge] at hBin hHex
  rw [hNumber] at hRead
  exact ⟨⟨hByte, hDigits, hText, hRead⟩, hPast, hLength, hBin, hHex⟩

end Bits

end AtomicRules
