import AtomicRules.Design.Collatz
import AtomicRules.Design.Scatter
import AtomicRules.Design.Toggle
import AtomicRules.Simulation.Basic

/-!
# The built-in designs

Every design that can be run by name. A run by configuration writes the final
values when no trace was asked for; a traced run writes nothing but its trace.
-/

namespace AtomicRules

/-- The designs that can be run by name. -/
inductive DesignName where
  | toggle
  | collatz
  | scatter
  deriving DecidableEq, Repr

namespace DesignName

/-- The designs under the names they are called by. -/
def choices : List (String × DesignName) :=
  [("toggle", toggle), ("collatz", collatz), ("scatter", scatter)]

/-- The registers of a design. -/
def file : DesignName → RegisterFile
  | toggle => Toggle.file
  | collatz => Collatz.file
  | scatter => Scatter.file

/-- The rules of a design. -/
def rules : (design : DesignName) → List (Rule design.file)
  | toggle => Toggle.rules
  | collatz => Collatz.rules
  | scatter => Scatter.rules

end DesignName

/-- What a run by configuration leaves: how it ended, the text written and the
trace file. -/
structure Session where
  outcome : Except Halt Unit
  out : Writer
  destination : Destination

/-- Runs rules from the initial values and dumps the final ones unless there is
a trace. -/
def Session.ofRules {file : RegisterFile} (rules : List (Rule file)) (config : RunConfig)
    (out : Writer) (destination : Destination) : Session :=
  let run := (Simulation.ofRules rules).execute config destination
  match run.outcome, config.trace with
  | .ok (), none =>
      match run.simulation.dump out with
      | (.ok (), out) => ⟨.ok (), out, run.sink⟩
      | (.error error, out) => ⟨.error (.failed error), out, run.sink⟩
  | outcome, _ => ⟨outcome, out, run.sink⟩

/-- Runs a built-in design. -/
def DesignName.execute (design : DesignName) (config : RunConfig) (out : Writer)
    (destination : Destination) : Session :=
  Session.ofRules design.rules config out destination

end AtomicRules
