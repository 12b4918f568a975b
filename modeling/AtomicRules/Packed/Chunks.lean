import AtomicRules.Bits.Text

/-!
# Chunks of a packed vector

A packer collects chunks into a vector of `w` bits, the first chunk highest; an
unpacker takes them out again in the same order. Both check what they are
asked for: a chunk that would not fit, a vector handed over before it is full
and a chunk past the end are refused, and a refused request changes nothing.

These checks are debug assertions, and the build that makes debug assertions is
the one described here. A build without them refuses nothing.

## Main results

* `Packer.push_eq_ok` — a chunk that fits is taken and adds its width.
* `Unpacker.pop_eq_ok` — a chunk that is left can be taken.
-/

namespace AtomicRules

/-- Why a chunk or a vector is refused. -/
inductive ChunkFault where
  | overflows (width : Nat)
  | unfilled (width : Nat)
  | exhausted (width : Nat)
  deriving DecidableEq, Repr

/-- The wording of a refusal. -/
def ChunkFault.message : ChunkFault → String
  | overflows width => "packed chunks overflow " ++ String.ofList (decimal width) ++ " bits"
  | unfilled width => "packed chunks do not fill " ++ String.ofList (decimal width) ++ " bits"
  | exhausted width =>
      "unpacking past the end of a " ++ String.ofList (decimal width) ++ "-bit vector"

variable {w n : Nat}

/-! ### Packing -/

/-- The chunks taken so far, in the low `filled` bits. -/
structure Packer (w : Nat) where
  acc : Bits w
  filled : Nat

namespace Packer

/-- No chunk taken yet. -/
def empty (w : Nat) : Packer w := ⟨Bits.zero w, 0⟩

/-- Takes a chunk below the ones before it. -/
def push (p : Packer w) (chunk : Bits n) : Except ChunkFault (Packer w) :=
  if p.filled + n ≤ w then .ok ⟨p.acc <<< n ||| chunk.resize w, p.filled + n⟩
  else .error (.overflows w)

/-- Hands over the vector once every bit is filled. -/
def finish (p : Packer w) : Except ChunkFault (Bits w) :=
  if p.filled = w then .ok p.acc else .error (.unfilled w)

theorem push_eq_ok {p : Packer w} (h : p.filled + n ≤ w) (chunk : Bits n) :
    p.push chunk = .ok ⟨p.acc <<< n ||| chunk.resize w, p.filled + n⟩ :=
  if_pos h

theorem finish_eq_ok {p : Packer w} (h : p.filled = w) : p.finish = .ok p.acc := if_pos h

end Packer

/-! ### Unpacking -/

/-- A vector of which the low `remaining` bits are still to be taken. -/
structure Unpacker (w : Nat) where
  source : Bits w
  remaining : Nat

namespace Unpacker

/-- Nothing taken yet. -/
def ofBits (source : Bits w) : Unpacker w := ⟨source, w⟩

/-- Takes the next `n` bits. -/
def pop (n : Nat) (u : Unpacker w) : Except ChunkFault (Bits n × Unpacker w) :=
  if n ≤ u.remaining then
    .ok ((u.source >>> (u.remaining - n)).resize n, ⟨u.source, u.remaining - n⟩)
  else .error (.exhausted w)

theorem pop_eq_ok {u : Unpacker w} (h : n ≤ u.remaining) :
    u.pop n = .ok ((u.source >>> (u.remaining - n)).resize n, ⟨u.source, u.remaining - n⟩) :=
  if_pos h

end Unpacker

end AtomicRules
