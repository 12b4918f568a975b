import AtomicRules.Log.Journal

/-!
# Accesses

An access names a register and a port and, when it writes, the value. It is
attempted against three things: the values at the start of the cycle, the
committed log and the tentative log. Either it is refused, and nothing has
changed, or it is granted, and the tentative log has the mark of the port and
the written value.

`read0` answers the value from the start of the cycle and leaves no mark;
`read1` answers the value of the tentative log.

## Main results

* `Access.attempt_of_refused` — a refused access changes nothing and names its
  register and port.
* `Access.attempt_of_granted` — a granted access answers and changes what its
  port says.
* `Access.isOk_attempt`, `Access.granted_of_attempt_eq_ok` — no other access is
  answered.
* `Access.conflict_apply_self`, `Access.get_apply_of_ne` — a granted access marks
  its port, and leaves the other registers alone.
-/

namespace AtomicRules

/-- A refused access. -/
structure Conflict where
  register : String
  port : Port
  deriving DecidableEq, Repr

/-- The wording of a refusal. -/
def Conflict.message (conflict : Conflict) : String :=
  conflict.port.name ++ " on \x60" ++ conflict.register ++
    "\x60 conflicts with an earlier access this cycle"

variable {file : RegisterFile}

/-- One access to one register. -/
inductive Access (file : RegisterFile) where
  | read0 (reg : file.Reg)
  | write0 (reg : file.Reg) (value : file.Val reg)
  | read1 (reg : file.Reg)
  | write1 (reg : file.Reg) (value : file.Val reg)

namespace Access

/-- The register of an access. -/
def reg : Access file → file.Reg
  | read0 reg => reg
  | write0 reg _ => reg
  | read1 reg => reg
  | write1 reg _ => reg

/-- The port of an access. -/
def port : Access file → Port
  | read0 _ => .read0
  | write0 _ _ => .write0
  | read1 _ => .read1
  | write1 _ _ => .write1

/-- What a granted access answers: a read its value, a write nothing. -/
abbrev Answer : Access file → Type
  | read0 reg => file.Val reg
  | write0 _ _ => Unit
  | read1 reg => file.Val reg
  | write1 _ _ => Unit

/-- The refusal of an access. -/
def refusal (access : Access file) : Conflict :=
  ⟨(file.nameOf access.reg).text, access.port⟩

/-- The access is granted by the two logs. -/
def granted (access : Access file) (committed tentative : Log file) : Bool :=
  (file.kindOf access.reg).grants access.port (committed.conflict access.reg)
    (tentative.conflict access.reg)

/-- What a granted access answers. -/
def answer (start : State file) (tentative : Log file) : (access : Access file) → access.Answer
  | read0 reg => start.get reg
  | write0 _ _ => ()
  | read1 reg => tentative.value reg
  | write1 _ _ => ()

/-- The tentative log after a granted access. -/
def apply (tentative : Log file) : Access file → Log file
  | read0 _ => tentative
  | write0 reg value => (tentative.mark reg .write0).setValue reg value
  | read1 reg => tentative.mark reg .read1
  | write1 reg value => (tentative.mark reg .write1).setValue reg value

/-- Attempts an access: its answer, and the tentative log after it. -/
def attempt (start : State file) (committed tentative : Log file) (access : Access file) :
    Except Conflict access.Answer × Log file :=
  if access.granted committed tentative then
    (.ok (access.answer start tentative), access.apply tentative)
  else (.error access.refusal, tentative)

theorem attempt_of_granted {start : State file} {committed tentative : Log file}
    {access : Access file} (h : access.granted committed tentative = true) :
    access.attempt start committed tentative =
      (.ok (access.answer start tentative), access.apply tentative) :=
  if_pos h

theorem attempt_of_refused {start : State file} {committed tentative : Log file}
    {access : Access file} (h : access.granted committed tentative = false) :
    access.attempt start committed tentative = (.error access.refusal, tentative) :=
  if_neg (by simp [h])

/-- An attempt is answered exactly when the access is granted. -/
theorem isOk_attempt (access : Access file) (start : State file)
    (committed tentative : Log file) :
    (access.attempt start committed tentative).1.isOk = access.granted committed tentative := by
  cases hGranted : access.granted committed tentative with
  | true =>
      rw [attempt_of_granted hGranted]
      rfl
  | false =>
      rw [attempt_of_refused hGranted]
      rfl

/-- Only a granted access is answered, and with its own answer. -/
theorem granted_of_attempt_eq_ok {access : Access file} {start : State file}
    {committed tentative : Log file} {given : access.Answer}
    (h : (access.attempt start committed tentative).1 = .ok given) :
    access.granted committed tentative = true ∧ given = access.answer start tentative := by
  cases hGranted : access.granted committed tentative with
  | true =>
      rw [attempt_of_granted hGranted] at h
      exact ⟨rfl, (Except.ok.inj h).symm⟩
  | false =>
      rw [attempt_of_refused hGranted] at h
      cases h

/-- A granted access marks its port on its register; for `read0` the mark is none. -/
theorem conflict_apply_self (tentative : Log file) (access : Access file) :
    (access.apply tentative).conflict access.reg =
      (tentative.conflict access.reg).mark access.port := by
  cases access with
  | read0 reg => rfl
  | read1 reg => exact Log.conflict_mark_self _ _ _
  | write0 reg value => exact Log.conflict_mark_self _ _ _
  | write1 reg value => exact Log.conflict_mark_self _ _ _

theorem get_apply_of_ne (tentative : Log file) (access : Access file) {other : file.Reg}
    (h : other ≠ access.reg) :
    (access.apply tentative).value other = tentative.value other ∧
      (access.apply tentative).conflict other = tentative.conflict other := by
  cases access with
  | read0 reg => exact ⟨rfl, rfl⟩
  | read1 reg => exact ⟨rfl, Log.conflict_mark_of_ne _ h _⟩
  | write0 reg value =>
      exact ⟨Log.value_setValue_of_ne _ h _, Log.conflict_mark_of_ne _ h _⟩
  | write1 reg value =>
      exact ⟨Log.value_setValue_of_ne _ h _, Log.conflict_mark_of_ne _ h _⟩

/-- Only a write of a register changes its value. -/
theorem value_apply_of_not_write (tentative : Log file) {access : Access file}
    {other : file.Reg} (h : ¬ (access.reg = other ∧ access.port.isWrite = true)) :
    (access.apply tentative).value other = tentative.value other := by
  by_cases hReg : other = access.reg
  · subst hReg
    cases access with
    | read0 reg => rfl
    | read1 reg => rfl
    | write0 reg value => exact absurd ⟨rfl, rfl⟩ h
    | write1 reg value => exact absurd ⟨rfl, rfl⟩ h
  · exact (get_apply_of_ne tentative access hReg).1

end Access

/-! ### Events -/

/-- An attempted access with its outcome. -/
structure Event (file : RegisterFile) where
  access : Access file
  outcome : Except Conflict access.Answer

/-- A value in packed form, as hexadecimal digits. -/
def RegisterFile.packedHex (file : RegisterFile) (reg : file.Reg) (value : file.Val reg) :
    String :=
  ((file.decl reg).ty.pack value).hexString

/-- One line about an event: the port, the register and, for a read, the value
in packed form. -/
def Event.describe : Event file → String
  | ⟨_, .error conflict⟩ => conflict.message
  | ⟨.read0 reg, .ok value⟩ =>
      "read0 " ++ (file.nameOf reg).text ++ " = " ++ file.packedHex reg value
  | ⟨.read1 reg, .ok value⟩ =>
      "read1 " ++ (file.nameOf reg).text ++ " = " ++ file.packedHex reg value
  | ⟨.write0 reg _, .ok _⟩ => "write0 " ++ (file.nameOf reg).text
  | ⟨.write1 reg _, .ok _⟩ => "write1 " ++ (file.nameOf reg).text

end AtomicRules
