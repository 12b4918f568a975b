import AtomicRules.Log.Basic

/-!
# Journals

A journal is the append-only list of the accesses a rule attempted. An entry
names a register and a port and no value: what the register held before the
rule is in the committed log, what it holds after it in the tentative log. So
copying the journaled registers one way commits the rule, and the other way
undoes it.

## Main results

* `Journal.entries_push` — a new entry is the last one.
-/

namespace AtomicRules

variable {file : RegisterFile}

/-- One attempted access. -/
structure JournalEntry (file : RegisterFile) where
  reg : file.Reg
  port : Port
  deriving DecidableEq

/-- The attempted accesses of a rule, the newest first. -/
structure Journal (file : RegisterFile) where
  newestFirst : List (JournalEntry file)
  deriving DecidableEq

namespace Journal

/-- No access yet. -/
def empty : Journal file := ⟨[]⟩

/-- Appends an access. -/
def push (journal : Journal file) (reg : file.Reg) (port : Port) : Journal file :=
  ⟨⟨reg, port⟩ :: journal.newestFirst⟩

/-- Forgets every access. -/
def clear (_journal : Journal file) : Journal file := empty

/-- The accesses, the oldest first. -/
def entries (journal : Journal file) : List (JournalEntry file) := journal.newestFirst.reverse

/-- Number of accesses. -/
def size (journal : Journal file) : Nat := journal.newestFirst.length

/-- There is no access. -/
def isEmpty (journal : Journal file) : Bool := journal.newestFirst.isEmpty

/-- Brings every journaled register over, the oldest access first. -/
def replay (journal : Journal file) (target source : Log file) : Log file :=
  target.copyRegisters source (journal.entries.map JournalEntry.reg)

/-- Brings every journaled register over, the newest access first. -/
def unwind (journal : Journal file) (target source : Log file) : Log file :=
  target.copyRegisters source (journal.newestFirst.map JournalEntry.reg)

@[simp] theorem entries_push (journal : Journal file) (reg : file.Reg) (port : Port) :
    (journal.push reg port).entries = journal.entries ++ [⟨reg, port⟩] := by
  simp [push, entries]

end Journal

end AtomicRules
