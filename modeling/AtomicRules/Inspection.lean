import AtomicRules.Bits.Text
import AtomicRules.Character.Extending
import AtomicRules.Character.Invisible
import AtomicRules.Character.Unassigned

/-!
# Inspected forms

The inspected form of a value shows how it is built. A named group has its
entries in braces, or is the name alone when it has none; a list has its items
in brackets; a text stands in quotes.

In a quoted text the quote and the backslash follow a backslash, and a character
that would not be seen where it stands is written as an escape: by a letter if it
has one, by its number otherwise. Every other character stands for itself.

## Main results

* `escapeChar_of_seen` — a character that is seen where it stands is not changed.
* `escapeChar_of_ascii` — a visible ASCII character is not, apart from the quote
  and the backslash.
-/

namespace AtomicRules.Inspection

/-- One entry of a group. -/
def entry (name value : String) : String := name ++ ": " ++ value

/-- A named group of entries. -/
def group (name : String) (entries : List String) : String :=
  if entries.isEmpty then name
  else name ++ " \x7b " ++ ", ".intercalate entries ++ " \x7d"

/-- A list of items. -/
def listing (items : List String) : String := "[" ++ ", ".intercalate items ++ "]"

/-- The character would not be seen where it stands. -/
def isUnseen (c : Char) : Bool :=
  Character.isInvisible c || Character.isUnassigned c || Character.isExtending c

/-- The letter that stands for a character in an escape. -/
def escapeLetter? (c : Char) : Option Char :=
  match c with
  | '"' => some '"'
  | '\\' => some '\\'
  | '\n' => some 'n'
  | '\r' => some 'r'
  | '\t' => some 't'
  | '\x00' => some '0'
  | _ => none

/-- One character of a quoted text. -/
def escapeChar (c : Char) : List Char :=
  match escapeLetter? c with
  | some letter => ['\\', letter]
  | none => if isUnseen c then "\\u\x7b".toList ++ hexadecimal c.toNat ++ ['\x7d'] else [c]

theorem escapeChar_of_seen {c : Char} (hletter : escapeLetter? c = none)
    (hseen : isUnseen c = false) : escapeChar c = [c] := by
  simp [escapeChar, hletter, hseen]

theorem isUnseen_eq_false_of_ascii {c : Char} (hlow : 32 ≤ c.toNat) (hhigh : c.toNat ≤ 126) :
    isUnseen c = false := by
  simp [isUnseen, Character.isInvisible_eq_false_of_ascii hlow hhigh,
    Character.isUnassigned_eq_false_of_ascii hlow hhigh,
    Character.isExtending_eq_false_of_ascii hlow hhigh]

theorem escapeChar_of_ascii {c : Char} (hlow : 32 ≤ c.toNat) (hhigh : c.toNat ≤ 126)
    (hletter : escapeLetter? c = none) : escapeChar c = [c] :=
  escapeChar_of_seen hletter (isUnseen_eq_false_of_ascii hlow hhigh)

/-- A text in quotes. -/
def quoted (text : String) : String :=
  String.ofList ('"' :: text.toList.flatMap escapeChar ++ ['"'])

end AtomicRules.Inspection
