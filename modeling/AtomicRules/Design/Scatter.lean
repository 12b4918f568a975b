import AtomicRules.Scheduler

/-!
# Scatter

Values routed through a wire to a register that is known at run time only.
`produce` steps a linear congruential generator and puts its value on the wire;
`scatter` forwards the wire to the register under the cursor, so its footprint
is journaled; `total` sums the even and the odd registers as they were at the
start of the cycle; `jam` drives the wire when it has been read already, and is
refused in every cycle.
-/

namespace AtomicRules.Scatter

/-- The generator, the wire, the cursor, the four targets and the sums. -/
def file : RegisterFile :=
  [{ name := ⟨"seed", by decide⟩, kind := .plain, ty := .bits 8,
     initial := (Bits.ofNat128 8 1 : Bits 8) },
   { name := ⟨"value", by decide⟩, kind := .wire, ty := .bits 8, initial := Bits.zero 8 },
   { name := ⟨"cursor", by decide⟩, kind := .plain, ty := .bits 2, initial := Bits.zero 2 },
   { name := ⟨"r0", by decide⟩, kind := .plain, ty := .bits 8, initial := Bits.zero 8 },
   { name := ⟨"r1", by decide⟩, kind := .plain, ty := .bits 8, initial := Bits.zero 8 },
   { name := ⟨"r2", by decide⟩, kind := .plain, ty := .bits 8, initial := Bits.zero 8 },
   { name := ⟨"r3", by decide⟩, kind := .plain, ty := .bits 8, initial := Bits.zero 8 },
   { name := ⟨"totals", by decide⟩, kind := .plain, ty := .array (.bits 10) 2,
     initial := #v[Bits.zero 10, Bits.zero 10] }]

/-- The state of the generator. -/
def seed : file.Reg := ⟨0, by decide⟩

/-- The wire. -/
def value : file.Reg := ⟨1, by decide⟩

/-- The number of the next target. -/
def cursor : file.Reg := ⟨2, by decide⟩

/-- The first target. -/
def r0 : file.Reg := ⟨3, by decide⟩

/-- The second target. -/
def r1 : file.Reg := ⟨4, by decide⟩

/-- The third target. -/
def r2 : file.Reg := ⟨5, by decide⟩

/-- The fourth target. -/
def r3 : file.Reg := ⟨6, by decide⟩

/-- The sum of the even targets and the sum of the odd ones. -/
def totals : file.Reg := ⟨7, by decide⟩

/-- Writes the target of a given number. -/
def store (target : Bits 2) (entry : Bits 8) : Action file Unit :=
  match target.low64 with
  | 0 => Action.write0 r0 entry
  | 1 => Action.write0 r1 entry
  | 2 => Action.write0 r2 entry
  | _ => Action.write0 r3 entry

/-- Drives the wire with the generator and steps it. -/
def produce : Action file Unit := do
  let now : Bits 8 ← Action.read0 seed
  Action.write0 value now
  Action.write0 seed (now.lsl 2 + now + Bits.ofNat128 8 1)

/-- Forwards the wire to the target under the cursor. -/
def scatter : Action file Unit := do
  let target : Bits 2 ← Action.read0 cursor
  let entry : Bits 8 ← Action.read1 value
  store target entry
  Action.write0 cursor (target + Bits.ofNat128 2 1)

/-- Sums the targets from the start of the cycle. -/
def total : Action file Unit := do
  let a : Bits 8 ← Action.read0 r0
  let b : Bits 8 ← Action.read0 r2
  let c : Bits 8 ← Action.read0 r1
  let d : Bits 8 ← Action.read0 r3
  Action.write0 totals #v[a.zext 10 + b.zext 10, c.zext 10 + d.zext 10]

/-- Drives the wire after it was read. -/
def jam : Action file Unit := Action.write0 value (Bits.ones 8)

/-- The rules in priority order. -/
def rules : List (Rule file) :=
  [{ name := "produce", footprint := .whole, body := produce },
   { name := "scatter", footprint := .dynamic, body := scatter },
   { name := "total", footprint := .whole, body := total },
   { name := "jam", footprint := .whole, body := jam }]

end AtomicRules.Scatter
