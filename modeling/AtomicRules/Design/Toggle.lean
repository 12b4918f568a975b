import AtomicRules.Scheduler

/-!
# Toggle

Two rules that fight over one plain flag. `set` writes one. `flip` writes the
complement of the value from the start of the cycle, and is refused in every
cycle, because a plain register takes one write and `set` comes first.
-/

namespace AtomicRules.Toggle

/-- One flag. -/
def file : RegisterFile :=
  [{ name := ⟨"flag", by decide⟩, kind := .plain, ty := .bits 1,
     initial := (Bits.ofNat128 1 0 : Bits 1) }]

/-- The flag. -/
def flag : file.Reg := ⟨0, by decide⟩

/-- Writes one. -/
def set : Action file Unit := Action.write0 flag (Bits.ofNat128 1 1)

/-- Writes the complement of the value from the start of the cycle. -/
def flip : Action file Unit := do
  let value : Bits 1 ← Action.read0 flag
  Action.write0 flag (~~~value : Bits 1)

/-- The rules in priority order. -/
def rules : List (Rule file) :=
  [{ name := "set", footprint := .whole, body := set },
   { name := "flip", footprint := .whole, body := flip }]

end AtomicRules.Toggle
