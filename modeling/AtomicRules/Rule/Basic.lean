import AtomicRules.Rule.Action

/-!
# Rules

A rule is an action with a name and a footprint. When a rule fires, its action
runs against the tentative log; at the end the tentative log is merged into the
committed one, or restored from it when the action ended in conflict.

The footprint says how much is copied for that: the whole file, a list of
registers declared in advance, or the registers found in the journal. A rule
that declared its registers must keep to them; the first access outside the
list stops the simulation, whether or not it would have been granted. That check
is a debug assertion, and the build that makes debug assertions is the one
described here. Without it a stray access would go ahead, and its register would
be neither committed nor restored with the others.

## Main results

* `Footprint.track_whole`, `Footprint.track_dynamic` — only a declared list can
  refuse to track an access.
-/

namespace AtomicRules

variable {file : RegisterFile} {α : Type}

/-- How the effects of a rule are committed or undone. -/
inductive Footprint (file : RegisterFile) where
  /-- The whole file is copied. -/
  | whole
  /-- The rule touches these registers only. -/
  | declared (regs : List file.Reg)
  /-- Every access is journaled. -/
  | dynamic
  deriving DecidableEq

/-- An access outside the registers that a rule declared. -/
structure FootprintViolation where
  register : String
  port : Port
  deriving DecidableEq, Repr

/-- The wording of a violation. -/
def FootprintViolation.message (violation : FootprintViolation) : String :=
  violation.register ++ " accessed through " ++ violation.port.name ++
    " outside the rule's declared footprint"

/-- Takes note of an access before it is attempted. -/
def Footprint.track (footprint : Footprint file) (journal : Journal file)
    (access : Access file) : Except FootprintViolation (Journal file) :=
  match footprint with
  | .whole => .ok journal
  | .declared regs =>
      if regs.contains access.reg then .ok journal
      else .error ⟨(file.nameOf access.reg).text, access.port⟩
  | .dynamic => .ok (journal.push access.reg access.port)

@[simp] theorem Footprint.track_whole (journal : Journal file) (access : Access file) :
    Footprint.whole.track journal access = .ok journal := rfl

@[simp] theorem Footprint.track_dynamic (journal : Journal file) (access : Access file) :
    Footprint.dynamic.track journal access = .ok (journal.push access.reg access.port) := rfl

/-! ### Running an action -/

/-- How far an action got: how it ended, what it left and what it did. -/
structure Run (file : RegisterFile) (α : Type) where
  outcome : Except FootprintViolation (Except Conflict α)
  tentative : Log file
  journal : Journal file
  events : List (Event file)

/-- Runs an action from a tentative log and a journal. -/
def Action.run (start : State file) (committed : Log file) (footprint : Footprint file) :
    Action file α → Log file → Journal file → Run file α
  | .done value, tentative, journal => ⟨.ok (.ok value), tentative, journal, []⟩
  | .fail conflict, tentative, journal => ⟨.ok (.error conflict), tentative, journal, []⟩
  | .access a next, tentative, journal =>
      match footprint.track journal a with
      | .error violation => ⟨.error violation, tentative, journal, []⟩
      | .ok journal =>
          let (answer, tentative) := a.attempt start committed tentative
          let rest := (next answer).run start committed footprint tentative journal
          { rest with events := ⟨a, answer⟩ :: rest.events }

/-! ### Firing -/

/-- A named atomic rule. -/
structure Rule (file : RegisterFile) where
  name : String
  footprint : Footprint file
  body : Action file Unit

/-- The two logs of a cycle and the journal of the last rule. -/
structure Workspace (file : RegisterFile) where
  committed : Log file
  tentative : Log file
  journal : Journal file

namespace Footprint

/-- Brings the registers of the footprint from the tentative log into the
committed one. -/
def commit (footprint : Footprint file) (work : Workspace file) : Workspace file :=
  let committed := match footprint with
    | .whole => work.committed.copyAll work.tentative
    | .declared regs => work.committed.copyRegisters work.tentative regs
    | .dynamic => work.journal.replay work.committed work.tentative
  { work with committed }

/-- Brings the registers of the footprint back from the committed log into the
tentative one. -/
def undo (footprint : Footprint file) (work : Workspace file) : Workspace file :=
  let tentative := match footprint with
    | .whole => work.tentative.copyAll work.committed
    | .declared regs => work.tentative.copyRegisters work.committed regs
    | .dynamic => work.journal.unwind work.tentative work.committed
  { work with tentative }

end Footprint

/-- What became of a rule that fired. -/
structure Firing (file : RegisterFile) where
  rule : String
  outcome : Except FootprintViolation (Except Conflict Unit)
  events : List (Event file)

/-- Fires a rule: runs its body, then commits or undoes what it did. After a
violation of the footprint neither happens. -/
def Rule.fire (rule : Rule file) (start : State file) (work : Workspace file) :
    Firing file × Workspace file :=
  let run := rule.body.run start work.committed rule.footprint work.tentative work.journal.clear
  let left : Workspace file := ⟨work.committed, run.tentative, run.journal⟩
  let after := match run.outcome with
    | .ok (.ok ()) => rule.footprint.commit left
    | .ok (.error _) => rule.footprint.undo left
    | .error _ => left
  (⟨rule.name, run.outcome, run.events⟩, after)

end AtomicRules
