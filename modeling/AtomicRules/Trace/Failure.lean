import AtomicRules.Rule.Basic

/-!
# Failures of a simulation

A run can fail at its output: the trace file cannot be created, a writer does
not take its bytes, or the trace was asked for with a period of zero cycles.
Apart from that, a rule that leaves its declared footprint halts the run.
-/

namespace AtomicRules

/-- Why a device did not do what was asked of it. Of the many reasons that an operating
system gives, the two are told apart that a path can give when a file is created; `other`
stands for all the rest, a full device for one. -/
inductive DeviceError where
  | notFound
  | isADirectory
  | other
  deriving DecidableEq, Repr

/-- The name of a device error. -/
def DeviceError.name : DeviceError → String
  | notFound => "NotFound"
  | isADirectory => "IsADirectory"
  | other => "Other"

/-- Why a simulation failed. -/
inductive Failure where
  | traceCreate (path : String) (cause : DeviceError)
  | output (cause : DeviceError)
  | zeroTracePeriod
  deriving DecidableEq, Repr

namespace Failure

/-- The wording of a failure. -/
def message : Failure → String
  | traceCreate path _ => "cannot create trace file \x60" ++ path ++ "\x60"
  | output _ => "failed to write simulation output"
  | zeroTracePeriod => "trace period must be at least one cycle"

/-- The device error behind a failure, if there is one. -/
def cause? : Failure → Option DeviceError
  | traceCreate _ cause => some cause
  | output cause => some cause
  | zeroTracePeriod => none

end Failure

/-- What ends a run before its time. -/
inductive Halt where
  | failed (error : Failure)
  | violated (violation : FootprintViolation)
  deriving DecidableEq, Repr

end AtomicRules
