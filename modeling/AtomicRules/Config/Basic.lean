import AtomicRules.Trace.Failure

/-!
# Run configuration

A configuration says how many cycles to run and, if a trace is wanted, where it
goes, how many cycles lie between two samples and what a cycle lasts. It is
checked before a run: a period of zero cycles is refused.

## Main results

* `RunConfig.validate_eq_ok_iff` — exactly a trace period of zero is refused.
-/

namespace AtomicRules

/-- Cycles run when no number is given. -/
def defaultCycles : Nat := 1000

/-- Cycles between two samples when no number is given. -/
def defaultTracePeriod : Nat := 1

/-- The duration of a cycle when none is given. -/
def defaultTimescale : String := "1 ps"

/-- Where a trace goes, and how it is taken. -/
structure TraceConfig where
  path : String
  period : Nat := defaultTracePeriod
  timescale : String := defaultTimescale
  deriving DecidableEq, Repr

/-- How a simulation is run. -/
structure RunConfig where
  cycles : Nat := defaultCycles
  trace : Option TraceConfig := none
  deriving DecidableEq, Repr

/-- Checks a configuration before a run. -/
def RunConfig.validate (config : RunConfig) : Except Failure Unit :=
  match config.trace with
  | some trace => if trace.period = 0 then .error .zeroTracePeriod else .ok ()
  | none => .ok ()

theorem RunConfig.validate_eq_ok_iff {config : RunConfig} :
    config.validate = .ok () ↔ ∀ trace, config.trace = some trace → trace.period ≠ 0 := by
  unfold validate
  split
  · split <;> simp_all
  · simp_all

end AtomicRules
