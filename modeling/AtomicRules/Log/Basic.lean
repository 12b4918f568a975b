import AtomicRules.Register.ConflictSet
import AtomicRules.Register.File

/-!
# Logs

A log is one view of the whole register file: the value and the conflict set of
every register. The scheduler keeps two of them, the committed log and the
tentative log of the running rule, and moves registers from one to the other.

## Main results

* `Log.ext_get` — logs are equal when they agree on the value and the set of
  every register.
* `Log.get_copyRegister_self`, `Log.get_copyRegister_of_ne` — copying a register
  brings over its value and its set and leaves the others alone.
* `Log.value_setValue_self`, `Log.conflict_mark_self` and their neighbours — what
  is read after a write or a mark.
-/

namespace AtomicRules

/-- The value of every register. -/
abbrev State (file : RegisterFile) := Row (fun register => register.ty.Val) file

/-- The conflict set of every register. -/
abbrev Conflicts (file : RegisterFile) := Row (fun _ => ConflictSet) file

variable {file : RegisterFile}

/-- The values a register file starts from. -/
def State.initial (file : RegisterFile) : State file := Row.ofEach Register.initial file

/-- No port of any register used. -/
def Conflicts.clear (file : RegisterFile) : Conflicts file :=
  Row.ofEach (fun _ => ConflictSet.clear) file

/-- Values and conflict sets of a register file. -/
structure Log (file : RegisterFile) where
  state : State file
  conflicts : Conflicts file
  deriving DecidableEq

namespace Log

/-- Values with no port used. -/
def ofState (state : State file) : Log file := ⟨state, Conflicts.clear file⟩

/-- The initial values with no port used. -/
def initial (file : RegisterFile) : Log file := ofState (State.initial file)

/-- Clears every conflict set. -/
def clearConflicts (log : Log file) : Log file := ofState log.state

/-- The value of a register. -/
def value (log : Log file) (reg : file.Reg) : file.Val reg := log.state.get reg

/-- The conflict set of a register. -/
def conflict (log : Log file) (reg : file.Reg) : ConflictSet := log.conflicts.get reg

/-- Sets the value of a register. -/
def setValue (log : Log file) (reg : file.Reg) (value : file.Val reg) : Log file :=
  { log with state := log.state.set reg value }

/-- Sets the flag of a port of a register. -/
def mark (log : Log file) (reg : file.Reg) (port : Port) : Log file :=
  { log with conflicts := log.conflicts.set reg ((log.conflict reg).mark port) }

/-- Brings one register over from another log. -/
def copyRegister (target source : Log file) (reg : file.Reg) : Log file :=
  ⟨target.state.set reg (source.value reg), target.conflicts.set reg (source.conflict reg)⟩

/-- Brings the whole file over from another log. -/
def copyAll (_target source : Log file) : Log file := source

/-- Brings a list of registers over, one after the other. -/
def copyRegisters (target source : Log file) (regs : List file.Reg) : Log file :=
  regs.foldl (fun target reg => target.copyRegister source reg) target

theorem ext_get {a b : Log file}
    (h : ∀ reg, a.value reg = b.value reg ∧ a.conflict reg = b.conflict reg) : a = b := by
  cases a
  cases b
  congr
  · exact Row.ext_get fun reg => (h reg).1
  · exact Row.ext_get fun reg => (h reg).2

theorem get_copyRegister_self (target source : Log file) (reg : file.Reg) :
    (target.copyRegister source reg).value reg = source.value reg ∧
      (target.copyRegister source reg).conflict reg = source.conflict reg :=
  ⟨Row.get_set_self _ _ _, Row.get_set_self _ _ _⟩

theorem get_copyRegister_of_ne (target source : Log file) {reg other : file.Reg}
    (h : other ≠ reg) :
    (target.copyRegister source reg).value other = target.value other ∧
      (target.copyRegister source reg).conflict other = target.conflict other :=
  ⟨Row.get_set_of_ne _ h _, Row.get_set_of_ne _ h _⟩

/-! ### Reading after a change -/

@[simp] theorem value_ofState (state : State file) (reg : file.Reg) :
    (ofState state).value reg = state.get reg := rfl

@[simp] theorem conflict_ofState (state : State file) (reg : file.Reg) :
    (ofState state).conflict reg = ConflictSet.clear :=
  Row.get_ofEach _ _

@[simp] theorem value_setValue_self (log : Log file) (reg : file.Reg) (value : file.Val reg) :
    (log.setValue reg value).value reg = value :=
  Row.get_set_self _ _ _

theorem value_setValue_of_ne (log : Log file) {reg other : file.Reg} (h : other ≠ reg)
    (value : file.Val reg) : (log.setValue reg value).value other = log.value other :=
  Row.get_set_of_ne _ h _

@[simp] theorem conflict_setValue (log : Log file) (reg other : file.Reg)
    (value : file.Val reg) : (log.setValue reg value).conflict other = log.conflict other := rfl

@[simp] theorem value_mark (log : Log file) (reg other : file.Reg) (port : Port) :
    (log.mark reg port).value other = log.value other := rfl

@[simp] theorem conflict_mark_self (log : Log file) (reg : file.Reg) (port : Port) :
    (log.mark reg port).conflict reg = (log.conflict reg).mark port :=
  Row.get_set_self _ _ _

theorem conflict_mark_of_ne (log : Log file) {reg other : file.Reg} (h : other ≠ reg)
    (port : Port) : (log.mark reg port).conflict other = log.conflict other :=
  Row.get_set_of_ne _ h _

/-! ### Text -/

/-- The log with every value and every flag. -/
def inspect (log : Log file) : String :=
  let state := log.state.toList fun register value =>
    Inspection.entry register.name.text (register.ty.inspect value)
  let conflicts := log.conflicts.toList fun register set =>
    Inspection.entry register.name.text (set.inspect register.kind)
  Inspection.group "Log" [Inspection.entry "state" (Inspection.group "State" state),
    Inspection.entry "rwset" (Inspection.group "Conflicts" conflicts)]

end Log

end AtomicRules
