/-!
# Ranges of code points

A property of characters is given as a list of closed ranges of code points,
ascending and apart. Surrogates are no characters and stand in no list.

## Main results

* `Ranges.holds_eq_false_of_apart` — a property does not hold in an interval
  that no range meets.
-/

namespace AtomicRules.Character

/-- Closed ranges of code points, by their first and their last one. -/
abbrev Ranges := List (Nat × Nat)

namespace Ranges

/-- A character lies in one of the ranges. -/
def holds (ranges : Ranges) (c : Char) : Bool :=
  ranges.any fun range => range.1 ≤ c.toNat && c.toNat ≤ range.2

/-- Every range lies below an interval or above it. -/
def apartFrom (ranges : Ranges) (low high : Nat) : Bool :=
  ranges.all fun range => range.2 < low || high < range.1

theorem holds_eq_false_of_apart {ranges : Ranges} {low high : Nat}
    (h : ranges.apartFrom low high = true) {c : Char} (hlow : low ≤ c.toNat)
    (hhigh : c.toNat ≤ high) : ranges.holds c = false := by
  unfold holds
  rw [List.any_eq_false]
  intro range hrange
  have hapart := List.all_eq_true.1 h range hrange
  simp only [Bool.or_eq_true, decide_eq_true_eq] at hapart
  simp only [Bool.and_eq_true, decide_eq_true_eq]
  omega

end Ranges

end AtomicRules.Character
