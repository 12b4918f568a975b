import AtomicRules.Character.Ranges

/-!
# Characters without a visible form

Nothing agreed upon is seen of these characters. They are the control and format
characters, the separators other than the blank and the characters for private
use, that is the general categories Cc, Cf, Zs, Zl, Zp and Co of Unicode 17, and
the fillers of Hangul, which are letters to be ignored where they cannot be drawn.

## Main results

* `isInvisible_eq_false_of_ascii` — no visible ASCII character is among them, and
  the blank is not.
-/

namespace AtomicRules.Character

/-- The ranges of the characters without a visible form. -/
def invisibleRanges : Ranges :=
  [(0x0, 0x1F), (0x7F, 0xA0), (0xAD, 0xAD), (0x600, 0x605), (0x61C, 0x61C), (0x6DD, 0x6DD),
   (0x70F, 0x70F), (0x890, 0x891), (0x8E2, 0x8E2), (0x115F, 0x1160), (0x1680, 0x1680),
   (0x180E, 0x180E), (0x2000, 0x200F), (0x2028, 0x202F), (0x205F, 0x2064), (0x2066, 0x206F),
   (0x3000, 0x3000), (0x3164, 0x3164), (0xE000, 0xF8FF), (0xFEFF, 0xFEFF), (0xFFA0, 0xFFA0),
   (0xFFF9, 0xFFFB), (0x110BD, 0x110BD), (0x110CD, 0x110CD), (0x13430, 0x1343F),
   (0x1BCA0, 0x1BCA3), (0x1D173, 0x1D17A), (0xE0001, 0xE0001), (0xE0020, 0xE007F),
   (0xF0000, 0xFFFFD), (0x100000, 0x10FFFD)]

/-- The character has no visible form. -/
def isInvisible (c : Char) : Bool := invisibleRanges.holds c

theorem isInvisible_eq_false_of_ascii {c : Char} (hlow : 32 ≤ c.toNat) (hhigh : c.toNat ≤ 126) :
    isInvisible c = false :=
  have apart : invisibleRanges.apartFrom 32 126 = true := by decide +kernel
  Ranges.holds_eq_false_of_apart apart hlow hhigh

end AtomicRules.Character
