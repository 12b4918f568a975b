import AtomicRules.Inspection
import AtomicRules.Register.Port

/-!
# Conflict sets

A conflict set remembers which ports of a register were used in the running
cycle. `read0` leaves no mark, so three flags are enough for every kind.

Whether an access is granted depends on two sets. Reads look at the committed
set, that is at what earlier rules did; writes look at the tentative set, which
also has what the running rule did. A port the kind does not have is never
granted.

## Main results

* `ConflictSet.marked_mark_self`, `ConflictSet.marked_mark_of_ne` — marking a
  port sets its flag and no other.
* `RegisterKind.mem_ports_of_grants` — only ports of the kind are granted.
-/

namespace AtomicRules

/-- The ports used in the running cycle. -/
structure ConflictSet where
  read1 : Bool := false
  write0 : Bool := false
  write1 : Bool := false
  deriving DecidableEq, Repr

namespace ConflictSet

/-- No port used. -/
def clear : ConflictSet := {}

/-- The flag of a port. `read0` has none. -/
def marked (set : ConflictSet) : Port → Bool
  | .read0 => false
  | .write0 => set.write0
  | .read1 => set.read1
  | .write1 => set.write1

/-- Sets the flag of a port. `read0` has none. -/
def mark (set : ConflictSet) : Port → ConflictSet
  | .read0 => set
  | .write0 => { set with write0 := true }
  | .read1 => { set with read1 := true }
  | .write1 => { set with write1 := true }

theorem ext_marked {a b : ConflictSet} (h : ∀ port, a.marked port = b.marked port) : a = b := by
  have h0 := h .write0
  have h1 := h .read1
  have h2 := h .write1
  cases a
  cases b
  simp_all [marked]

@[simp] theorem marked_clear (port : Port) : clear.marked port = false := by
  cases port <;> rfl

theorem marked_mark_self {port : Port} (h : port ≠ .read0) (set : ConflictSet) :
    (set.mark port).marked port = true := by
  cases port <;> simp_all [mark, marked]

theorem marked_mark_of_ne {port other : Port} (h : other ≠ port) (set : ConflictSet) :
    (set.mark port).marked other = set.marked other := by
  cases port <;> cases other <;> simp_all [mark, marked]

/-- The ports with a flag, in the order flags are listed. -/
def listed : List Port := [.read1, .write0, .write1]

/-- The ports whose flags are set, in the order flags are listed. -/
def flags (set : ConflictSet) : List Port := listed.filter set.marked

end ConflictSet

/-- Whether an access through a port is granted, given the committed and the
tentative set of the register. -/
def RegisterKind.grants : RegisterKind → Port → ConflictSet → ConflictSet → Bool
  | .plain, .read0, _, _ => true
  | .plain, .write0, _, tentative => !tentative.write0
  | .wire, .read1, _, _ => true
  | .wire, .write0, _, tentative => !(tentative.read1 || tentative.write0)
  | .ehr, .read0, committed, _ => !(committed.write0 || committed.write1)
  | .ehr, .read1, committed, _ => !committed.write1
  | .ehr, .write0, _, tentative =>
      !(tentative.read1 || tentative.write0 || tentative.write1)
  | .ehr, .write1, _, tentative => !tentative.write1
  | _, _, _, _ => false

theorem RegisterKind.mem_ports_of_grants {kind : RegisterKind} {port : Port}
    {committed tentative : ConflictSet} (h : kind.grants port committed tentative = true) :
    port ∈ kind.ports := by
  cases kind <;> cases port <;> simp_all [grants, ports]

/-! ### Text -/

/-- The short name of a flag. -/
def Port.flag : Port → String
  | .read0 => "r0"
  | .write0 => "w0"
  | .read1 => "r1"
  | .write1 => "w1"

/-- The name of the conflict set of a kind. -/
def RegisterKind.conflictSetName : RegisterKind → String
  | .plain => "PlainRwSet"
  | .wire => "WireRwSet"
  | .ehr => "EhrRwSet"

/-- The flags a kind can have, with their values. -/
def ConflictSet.inspect (set : ConflictSet) (kind : RegisterKind) : String :=
  Inspection.group kind.conflictSetName
    ((ConflictSet.listed.filter (kind.ports.contains ·)).map fun port =>
      Inspection.entry port.flag (toString (set.marked port)))

end AtomicRules
