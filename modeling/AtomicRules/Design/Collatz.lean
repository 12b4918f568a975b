import AtomicRules.Scheduler

/-!
# Collatz

One round of the Collatz sequence in a cycle, forwarded through an ephemeral
history register. `divide` halves an even value through the first write port;
`multiply` reads what is there then and applies `3x + 1` through the last port
when it is odd and not one. So a cycle can do both steps. `count` counts the
cycles that do not start at one.
-/

namespace AtomicRules.Collatz

/-- The running value and the number of steps. -/
def file : RegisterFile :=
  [{ name := ⟨"x", by decide⟩, kind := .ehr, ty := .bits 32,
     initial := (Bits.ofNat128 32 27 : Bits 32) },
   { name := ⟨"steps", by decide⟩, kind := .plain, ty := .bits 16,
     initial := (Bits.zero 16 : Bits 16) }]

/-- The running value. -/
def x : file.Reg := ⟨0, by decide⟩

/-- The number of steps. -/
def steps : file.Reg := ⟨1, by decide⟩

/-- The value at which the sequence ends. -/
def isOne (value : Bits 32) : Bool := value == Bits.ofNat128 32 1

/-- Counts a cycle that does not start at one. -/
def count : Action file Unit := do
  let value : Bits 32 ← Action.read0 x
  if isOne value then pure ()
  else do
    let before : Bits 16 ← Action.read0 steps
    Action.write0 steps (before + Bits.ofNat128 16 1)

/-- Halves an even value. -/
def divide : Action file Unit := do
  let value : Bits 32 ← Action.read0 x
  if value.bit 0 then pure () else Action.write0 x (value.lsr 1)

/-- Applies `3x + 1` to an odd value other than one. -/
def multiply : Action file Unit := do
  let value : Bits 32 ← Action.read1 x
  if value.bit 0 && !isOne value then
    Action.write1 x (value.lsl 1 + value + Bits.ofNat128 32 1)
  else pure ()

/-- The rules in priority order. -/
def rules : List (Rule file) :=
  [{ name := "count", footprint := .whole, body := count },
   { name := "divide", footprint := .whole, body := divide },
   { name := "multiply", footprint := .whole, body := multiply }]

end AtomicRules.Collatz
