/-!
# Ports and register kinds

A rule reaches a register through one of four ports, which act in one order
within a cycle: `read0`, `write0`, `read1`, `write1`. The kind of a register
says which of them it has. A plain register is read as it was at the start of
the cycle and written at most once; a wire is written and then read; an
ephemeral history register has all four ports.
-/

namespace AtomicRules

/-- A way to reach a register, in the order the ports act within a cycle. -/
inductive Port where
  | read0
  | write0
  | read1
  | write1
  deriving DecidableEq, Repr

/-- The name of a port. -/
def Port.name : Port → String
  | read0 => "read0"
  | write0 => "write0"
  | read1 => "read1"
  | write1 => "write1"

instance : ToString Port := ⟨Port.name⟩

/-- The place of a port in the order of the cycle. -/
def Port.rank : Port → Nat
  | read0 => 0
  | write0 => 1
  | read1 => 2
  | write1 => 3

/-- The port writes. -/
def Port.isWrite : Port → Bool
  | write0 | write1 => true
  | read0 | read1 => false

/-- What a register is for. -/
inductive RegisterKind where
  /-- One write port and reads that are not tracked. -/
  | plain
  /-- A write and then a read within the cycle. -/
  | wire
  /-- Two ordered pairs of read and write ports. -/
  | ehr
  deriving DecidableEq, Repr

/-- The name of a kind. -/
def RegisterKind.name : RegisterKind → String
  | plain => "plain"
  | wire => "wire"
  | ehr => "ehr"

instance : ToString RegisterKind := ⟨RegisterKind.name⟩

/-- The ports of a kind, in the order they act. -/
def RegisterKind.ports : RegisterKind → List Port
  | plain => [.read0, .write0]
  | wire => [.write0, .read1]
  | ehr => [.read0, .write0, .read1, .write1]

end AtomicRules
