import AtomicRules.Bits.Literal
import Mathlib.Data.List.Induction
import Mathlib.Data.Nat.Digits.Defs

/-!
# What a literal may be

A literal is a run of digits of its radix and of underscores whose value fits
its width. This module says so without the reader: the face value of a byte is
its place in the row of sixteen digits, the value of a run of bytes is the
positional value of their face values, and a byte ends the reading when it is
no digit of the radix or when the value up to and with it is too large.

The reader carries one number from byte to byte. After a prefix without a
problem that number is the value of the prefix (`soFar`), so each of its checks
is the question whether the next byte ends the reading, and the first byte that
does decides.

## Main results

* `scan_of_ends`, `scan_of_not_ends` — one byte: rejected for its problem, or
  taken into the value.
* `scan_passed` — a prefix without a problem is read to its value.
* `passed_iff` — no byte ends the reading exactly when all bytes are digits or
  underscores and the whole value fits.
* `parseBytes_exact` — a literal is rejected with the problem of the first byte
  that has one, with `empty` when there is none and no digit, and is otherwise
  read to its exact value.
-/

namespace AtomicRules.Literal

/-! ## Bytes and their value -/

/-- The sixteen digits by their value. -/
def figures : List Char :=
  ['0', '1', '2', '3', '4', '5', '6', '7', '8', '9', 'a', 'b', 'c', 'd', 'e', 'f']

/-- The place of a byte's letter, in either case, in the row of the figures. -/
def faceValue? (byte : UInt8) : Option Nat :=
  figures.idxOf? (Char.ofUInt8 byte).toLower

/-- The byte is one of the first `radix` digits. -/
def IsDigit (radix : Nat) (byte : UInt8) : Prop :=
  ∃ digit ∈ faceValue? byte, digit < radix

instance (radix : Nat) (byte : UInt8) : Decidable (IsDigit radix byte) := by
  unfold IsDigit; infer_instance

/-- The face values of a run of bytes, from the left. -/
def digits (bytes : List UInt8) : List Nat :=
  bytes.filterMap faceValue?

/-- The positional value of a run of bytes. -/
def value (radix : Nat) (bytes : List UInt8) : Nat :=
  Nat.ofDigits radix (digits bytes).reverse

theorem digit?_eq_faceValue? (byte : UInt8) : digit? byte = faceValue? byte := by
  have hAll : ∀ n : Fin 256, digit? (UInt8.ofNat n) = faceValue? (UInt8.ofNat n) := by
    decide +kernel
  simpa using hAll ⟨byte.toNat, byte.toNat_lt⟩

theorem underscore_eq : underscore = '_'.toUInt8 := rfl

theorem faceValue?_underscore : faceValue? '_'.toUInt8 = none := by decide

theorem not_isDigit_underscore (radix : Nat) : ¬IsDigit radix '_'.toUInt8 := by
  rintro ⟨digit, hDigit, -⟩
  rw [faceValue?_underscore] at hDigit
  cases hDigit

theorem digits_concat (before : List UInt8) (byte : UInt8) :
    digits (before ++ [byte]) = digits before ++ (faceValue? byte).toList := by
  cases h : faceValue? byte <;> simp [digits, h]

theorem value_concat_digit {byte : UInt8} {digit : Nat} (hByte : faceValue? byte = some digit)
    (radix : Nat) (before : List UInt8) :
    value radix (before ++ [byte]) = value radix before * radix + digit := by
  rw [value, digits_concat, hByte, Option.toList_some, List.reverse_append,
    List.reverse_singleton, List.singleton_append, Nat.ofDigits_cons, ← value, Nat.mul_comm,
    Nat.add_comm]

theorem digits_concat_underscore (before : List UInt8) :
    digits (before ++ ['_'.toUInt8]) = digits before := by
  rw [digits_concat, faceValue?_underscore, Option.toList_none, List.append_nil]

theorem value_concat_underscore (radix : Nat) (before : List UInt8) :
    value radix (before ++ ['_'.toUInt8]) = value radix before := by
  rw [value, digits_concat_underscore, value]

/-- One more digit never lowers the value. -/
theorem value_le_concat {radix : Nat} {byte : UInt8} (hByte : IsDigit radix byte)
    (before : List UInt8) : value radix before ≤ value radix (before ++ [byte]) := by
  obtain ⟨digit, hDigit, hRadix⟩ := hByte
  rw [value_concat_digit hDigit]
  calc
    value radix before ≤ value radix before * radix := Nat.le_mul_of_pos_right _ (by omega)
    _ ≤ value radix before * radix + digit := Nat.le_add_right _ _

/-! ## Where a reading ends -/

/-- The byte after `before` ends the reading in a problem. -/
inductive Ends (radix width : Nat) (before : List UInt8) (byte : UInt8) : Problem → Prop
  | invalidDigit (hOther : byte ≠ '_'.toUInt8) (hDigit : ¬IsDigit radix byte) :
      Ends radix width before byte .invalidDigit
  | tooWide (hDigit : IsDigit radix byte) (hWide : 2 ^ 128 ≤ value radix (before ++ [byte])) :
      Ends radix width before byte .tooWide
  | overflow (hDigit : IsDigit radix byte)
      (hPast : 2 ^ min width 128 - 1 < value radix (before ++ [byte]))
      (hNarrow : value radix (before ++ [byte]) < 2 ^ 128) :
      Ends radix width before byte .overflow

/-- No byte ends the reading. -/
def Passed (radix width : Nat) (bytes : List UInt8) : Prop :=
  ∀ before byte after problem,
    bytes = before ++ byte :: after → ¬Ends radix width before byte problem

/-- The first byte that ends the reading does so in `problem`. -/
def FirstProblem (radix width : Nat) (bytes : List UInt8) (problem : Problem) : Prop :=
  ∃ before byte after, bytes = before ++ byte :: after ∧
    Passed radix width before ∧ Ends radix width before byte problem

/-- The greatest value of a width is a 128-bit number. -/
theorem greatest_lt (width : Nat) : 2 ^ min width 128 - 1 < 2 ^ 128 := by
  have hCap : 2 ^ min width 128 ≤ 2 ^ 128 :=
    Nat.pow_le_pow_right (by decide) (Nat.min_le_right width 128)
  omega

theorem not_ends_iff {radix width : Nat} {before : List UInt8} {byte : UInt8} :
    (∀ problem, ¬Ends radix width before byte problem) ↔
      byte = '_'.toUInt8 ∨
        IsDigit radix byte ∧ value radix (before ++ [byte]) ≤ 2 ^ min width 128 - 1 := by
  have hCap := greatest_lt width
  constructor
  · intro hNone
    by_cases hOther : byte = '_'.toUInt8
    · exact .inl hOther
    · have hDigit : IsDigit radix byte := by
        by_contra hDigit
        exact hNone _ (.invalidDigit hOther hDigit)
      have hNarrow : value radix (before ++ [byte]) < 2 ^ 128 := by
        by_contra hWide
        exact hNone _ (.tooWide hDigit (by omega))
      refine .inr ⟨hDigit, ?_⟩
      by_contra hPast
      exact hNone _ (.overflow hDigit (by omega) hNarrow)
  · rintro (rfl | ⟨hDigit, hFits⟩) problem hEnds
    · cases hEnds with
      | invalidDigit hOther _ => exact hOther rfl
      | tooWide hDigit _ => exact not_isDigit_underscore radix hDigit
      | overflow hDigit _ _ => exact not_isDigit_underscore radix hDigit
    · cases hEnds with
      | invalidDigit _ hNot => exact hNot hDigit
      | tooWide _ hWide => omega
      | overflow _ hPast _ => omega

theorem passed_nil (radix width : Nat) : Passed radix width [] := by
  intro before byte after problem hSplit
  simp at hSplit

theorem passed_concat_iff {radix width : Nat} {before : List UInt8} {byte : UInt8} :
    Passed radix width (before ++ [byte]) ↔
      Passed radix width before ∧ ∀ problem, ¬Ends radix width before byte problem := by
  constructor
  · intro hPassed
    constructor
    · intro front middle back problem hSplit
      exact hPassed front middle (back ++ [byte]) problem (by rw [hSplit]; simp)
    · intro problem
      exact hPassed before byte [] problem rfl
  · rintro ⟨hBefore, hByte⟩ front middle back problem hSplit
    -- the byte that ends the reading is the last one, or it stands in the prefix
    rcases List.eq_nil_or_concat back with rfl | ⟨back, last, rfl⟩
    · obtain ⟨rfl, hSame⟩ := List.append_inj' hSplit rfl
      cases hSame
      exact hByte problem
    · rw [List.concat_eq_append, ← List.cons_append, ← List.append_assoc] at hSplit
      obtain ⟨rfl, -⟩ := List.append_inj' hSplit rfl
      exact hBefore front middle back problem rfl

/-- The bytes that pass are the digits and underscores whose value fits. -/
theorem passed_iff {radix width : Nat} {bytes : List UInt8} :
    Passed radix width bytes ↔
      (∀ byte ∈ bytes, byte = '_'.toUInt8 ∨ IsDigit radix byte) ∧
        value radix bytes ≤ 2 ^ min width 128 - 1 := by
  induction bytes using List.reverseRecOn with
  | nil => simp [passed_nil, value, digits]
  | append_singleton before byte ih =>
      rw [passed_concat_iff, ih, not_ends_iff, List.forall_mem_append, List.forall_mem_singleton]
      constructor
      · rintro ⟨⟨hBefore, hValue⟩, rfl | ⟨hDigit, hFits⟩⟩
        · exact ⟨⟨hBefore, .inl rfl⟩, by rwa [value_concat_underscore]⟩
        · exact ⟨⟨hBefore, .inr hDigit⟩, hFits⟩
      · rintro ⟨⟨hBefore, rfl | hDigit⟩, hFits⟩
        · rw [value_concat_underscore] at hFits
          exact ⟨⟨hBefore, hFits⟩, .inl rfl⟩
        · exact ⟨⟨hBefore, (value_le_concat hDigit before).trans hFits⟩, .inr ⟨hDigit, hFits⟩⟩

/-- Every run of bytes passes, or has a first byte that ends its reading. -/
theorem passed_or_firstProblem (radix width : Nat) (bytes : List UInt8) :
    Passed radix width bytes ∨ ∃ problem, FirstProblem radix width bytes problem := by
  induction bytes using List.reverseRecOn with
  | nil => exact .inl (passed_nil radix width)
  | append_singleton before byte ih =>
      rcases ih with hPassed | ⟨problem, front, middle, back, rfl, hFront, hEnds⟩
      · by_cases hByte : ∃ problem, Ends radix width before byte problem
        · obtain ⟨problem, hEnds⟩ := hByte
          exact .inr ⟨problem, before, byte, [], rfl, hPassed, hEnds⟩
        · exact .inl (passed_concat_iff.mpr ⟨hPassed, not_exists.mp hByte⟩)
      · exact .inr ⟨problem, front, middle, back ++ [byte], by simp, hFront, hEnds⟩

/-! ## The reader -/

theorem maxValue_eq (width : Nat) : maxValue width = 2 ^ min width 128 - 1 := by
  unfold maxValue
  split
  · rw [Nat.min_eq_right ‹_›]
  · rw [Nat.min_eq_left (by omega)]

/-- What the reader carries after a prefix without a problem. -/
def soFar (radix : Nat) (before : List UInt8) : Option Nat :=
  if digits before = [] then none else some (value radix before)

theorem soFar_getD (radix : Nat) (before : List UInt8) :
    (soFar radix before).getD 0 = value radix before := by
  unfold soFar
  split
  · rw [value, ‹digits before = []›]
    rfl
  · rfl

theorem soFar_concat_underscore (radix : Nat) (before : List UInt8) :
    soFar radix (before ++ ['_'.toUInt8]) = soFar radix before := by
  rw [soFar, digits_concat_underscore, value_concat_underscore, soFar]

theorem soFar_concat_digit {radix : Nat} {byte : UInt8} (hByte : IsDigit radix byte)
    (before : List UInt8) :
    soFar radix (before ++ [byte]) = some (value radix (before ++ [byte])) := by
  obtain ⟨digit, hDigit, -⟩ := hByte
  rw [Option.mem_def] at hDigit
  rw [soFar, if_neg]
  rw [digits_concat, hDigit]
  simp

theorem scan_digit {radix : Nat} {byte : UInt8} (hByte : IsDigit radix byte) (max : Nat)
    (before rest : List UInt8) :
    scan radix max (byte :: rest) (soFar radix before) =
      if 2 ^ 128 ≤ value radix (before ++ [byte]) then .error .tooWide
      else if max < value radix (before ++ [byte]) then .error .overflow
      else scan radix max rest (soFar radix (before ++ [byte])) := by
  have hOther : byte ≠ '_'.toUInt8 := by
    rintro rfl
    exact not_isDigit_underscore radix hByte
  rw [soFar_concat_digit hByte]
  obtain ⟨digit, hDigit, hRadix⟩ := hByte
  rw [scan, underscore_eq, if_neg hOther, digit?_eq_faceValue?, hDigit]
  simp only [append_eq, if_neg (Nat.not_le.mpr hRadix), soFar_getD, ← value_concat_digit hDigit]
  by_cases hWide : 2 ^ 128 ≤ value radix (before ++ [byte])
  · simp only [if_pos hWide]
  · by_cases hPast : max < value radix (before ++ [byte])
    · simp only [if_neg hWide, if_pos hPast]
    · simp only [if_neg hWide, if_neg hPast]

theorem scan_of_ends {radix width : Nat} {before : List UInt8} {byte : UInt8} {problem : Problem}
    (hEnds : Ends radix width before byte problem) (rest : List UInt8) :
    scan radix (maxValue width) (byte :: rest) (soFar radix before) = .error problem := by
  cases hEnds with
  | invalidDigit hOther hDigit =>
      rw [scan, underscore_eq, if_neg hOther, digit?_eq_faceValue?]
      cases hByte : faceValue? byte with
      | none => rfl
      | some digit =>
          have hRadix : radix ≤ digit := by
            by_contra hRadix
            exact hDigit ⟨digit, hByte, by omega⟩
          simp only [append_eq, if_pos hRadix]
  | tooWide hDigit hWide => rw [scan_digit hDigit, if_pos hWide]
  | overflow hDigit hPast hNarrow =>
      rw [scan_digit hDigit, if_neg (by omega), maxValue_eq, if_pos hPast]

theorem scan_of_not_ends {radix width : Nat} {before : List UInt8} {byte : UInt8}
    (hNone : ∀ problem, ¬Ends radix width before byte problem) (rest : List UInt8) :
    scan radix (maxValue width) (byte :: rest) (soFar radix before) =
      scan radix (maxValue width) rest (soFar radix (before ++ [byte])) := by
  have hCap := greatest_lt width
  rcases not_ends_iff.mp hNone with rfl | ⟨hDigit, hFits⟩
  · rw [soFar_concat_underscore, scan, underscore_eq, if_pos rfl]
  · rw [scan_digit hDigit, if_neg (by omega), maxValue_eq, if_neg (by omega)]

/-- The reader gets past a prefix without a problem, with the prefix's value. -/
theorem scan_passed {radix width : Nat} {before : List UInt8}
    (hPassed : Passed radix width before) (rest : List UInt8) :
    scan radix (maxValue width) (before ++ rest) none =
      scan radix (maxValue width) rest (soFar radix before) := by
  -- from the end of the prefix: a byte is judged by what stands before it
  induction before using List.reverseRecOn generalizing rest with
  | nil => rfl
  | append_singleton before byte ih =>
      obtain ⟨hBefore, hByte⟩ := passed_concat_iff.mp hPassed
      rw [List.append_assoc, ih hBefore, List.singleton_append, scan_of_not_ends hByte]

theorem scan_of_passed {radix width : Nat} {bytes : List UInt8}
    (hPassed : Passed radix width bytes) :
    scan radix (maxValue width) bytes none =
      if digits bytes = [] then .error .empty else .ok (value radix bytes) := by
  have hRead := scan_passed hPassed []
  rw [List.append_nil] at hRead
  rw [hRead, soFar]
  split <;> rfl

theorem scan_of_firstProblem {radix width : Nat} {bytes : List UInt8} {problem : Problem}
    (hFirst : FirstProblem radix width bytes problem) :
    scan radix (maxValue width) bytes none = .error problem := by
  obtain ⟨before, byte, after, rfl, hPassed, hEnds⟩ := hFirst
  rw [scan_passed hPassed, scan_of_ends hEnds]

theorem FirstProblem.unique {radix width : Nat} {bytes : List UInt8} {first second : Problem}
    (hFirst : FirstProblem radix width bytes first)
    (hSecond : FirstProblem radix width bytes second) : first = second := by
  have hSame := (scan_of_firstProblem hFirst).symm.trans (scan_of_firstProblem hSecond)
  injection hSame

theorem FirstProblem.not_passed {radix width : Nat} {bytes : List UInt8} {problem : Problem}
    (hFirst : FirstProblem radix width bytes problem) : ¬Passed radix width bytes := by
  intro hPassed
  obtain ⟨before, byte, after, hSplit, -, hEnds⟩ := hFirst
  exact hPassed before byte after problem hSplit hEnds

/-! ## The literals that are read -/

theorem scan_eq_error_iff (radix width : Nat) (bytes : List UInt8) (problem : Problem) :
    scan radix (maxValue width) bytes none = .error problem ↔
      FirstProblem radix width bytes problem ∨
        Passed radix width bytes ∧ digits bytes = [] ∧ problem = .empty := by
  rcases passed_or_firstProblem radix width bytes with hPassed | ⟨first, hFirst⟩
  · have hNoFirst : ¬FirstProblem radix width bytes problem := fun hFirst =>
      hFirst.not_passed hPassed
    rw [scan_of_passed hPassed]
    by_cases hDigits : digits bytes = []
    · simp [hDigits, hPassed, hNoFirst, eq_comm]
    · simp [hDigits, hNoFirst]
  · rw [scan_of_firstProblem hFirst]
    constructor
    · rintro ⟨⟩
      exact .inl hFirst
    · rintro (hOther | ⟨hPassed, -⟩)
      · rw [hFirst.unique hOther]
      · exact absurd hPassed hFirst.not_passed

theorem scan_eq_ok_iff (radix width : Nat) (bytes : List UInt8) (number : Nat) :
    scan radix (maxValue width) bytes none = .ok number ↔
      Passed radix width bytes ∧ digits bytes ≠ [] ∧ number = value radix bytes := by
  rcases passed_or_firstProblem radix width bytes with hPassed | ⟨first, hFirst⟩
  · rw [scan_of_passed hPassed]
    by_cases hDigits : digits bytes = []
    · simp [hDigits]
    · simp [hDigits, hPassed, eq_comm]
  · rw [scan_of_firstProblem hFirst]
    simp [hFirst.not_passed]

/-- A literal in one of the three radices is rejected with the problem of the
first byte that ends its reading, as empty when no byte does and none is a
digit, and is otherwise read to its positional value. -/
theorem parseBytes_exact (bytes : List UInt8) (radix width : Nat) :
    (¬(radix = 2 ∨ radix = 10 ∨ radix = 16) →
      parseBytes bytes radix width = .error (.unsupportedRadix radix)) ∧
    (radix = 2 ∨ radix = 10 ∨ radix = 16 →
      (∀ problem, parseBytes bytes radix width = .error problem ↔
        FirstProblem radix width bytes problem ∨
          Passed radix width bytes ∧ digits bytes = [] ∧ problem = .empty) ∧
      ∀ number, parseBytes bytes radix width = .ok number ↔
        Passed radix width bytes ∧ digits bytes ≠ [] ∧ number = value radix bytes) ∧
    ∀ text : String, text.toUTF8.data.toList = bytes →
      parse text radix width = parseBytes bytes radix width := by
  refine ⟨fun hRadix => parseBytes_unsupported hRadix bytes width, fun hRadix => ?_, ?_⟩
  · rw [parseBytes, if_pos hRadix]
    exact ⟨scan_eq_error_iff radix width bytes, scan_eq_ok_iff radix width bytes⟩
  · rintro text rfl
    rfl

/-- Radix 8 is refused; `F_f` is 255 in either case; the bad letter of `10g`
is not reached at width 4. -/
theorem parseBytes_exact_hex :
    (¬(8 = 2 ∨ 8 = 10 ∨ 8 = 16) ∧ parse "7" 8 8 = .error (.unsupportedRadix 8)) ∧
    (16 = 2 ∨ 16 = 10 ∨ 16 = 16) ∧
      parse "F_f" 16 8 = .ok 255 ∧ parse "10g" 16 4 = .error .overflow := by
  have hOctal : ¬(8 = 2 ∨ 8 = 10 ∨ 8 = 16) := by decide
  have hHex : 16 = 2 ∨ 16 = 10 ∨ 16 = 16 := by decide
  refine ⟨⟨hOctal, ?_⟩, hHex, ?_, ?_⟩
  · have hExact := parseBytes_exact [55] 8 8
    rw [hExact.2.2 "7" rfl, hExact.1 hOctal]
  · have hExact := parseBytes_exact [70, 95, 102] 16 8
    have hPassed : Passed 16 8 [70, 95, 102] := by
      rw [passed_iff, List.forall_mem_cons, List.forall_mem_cons, List.forall_mem_singleton]
      decide
    rw [hExact.2.2 "F_f" rfl]
    exact ((hExact.2.1 hHex).2 255).mpr ⟨hPassed, by decide, by decide⟩
  · have hExact := parseBytes_exact [49, 48, 103] 16 4
    have hPassed : Passed 16 4 [49] := by
      rw [passed_iff, List.forall_mem_singleton]
      decide
    have hEnds : Ends 16 4 [49] 48 .overflow := .overflow (by decide) (by decide) (by decide)
    rw [hExact.2.2 "10g" rfl]
    exact ((hExact.2.1 hHex).1 .overflow).mpr (.inl ⟨[49], 48, [103], rfl, hPassed, hEnds⟩)

end AtomicRules.Literal
