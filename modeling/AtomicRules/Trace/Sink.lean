import AtomicRules.Trace.Failure

/-!
# Trace sinks

A sink consumes a trace: one call that starts it with the traced registers, one
call for every sample, one call that closes it. Each call can fail, and answers
the state the sink is left in whether it failed or not.

`Sink.recorder` is the sink that never fails and remembers its calls.
-/

namespace AtomicRules

/-- What is said once, before any sample. -/
structure TraceHeader where
  /-- The producer and its version. -/
  version : String
  /-- The duration of one cycle. -/
  timescale : String
  deriving DecidableEq, Repr

/-- The producer named in every header. -/
def producer : String := "rulesim 0.1.0"

/-- A header of this producer. -/
def TraceHeader.ofTimescale (timescale : String) : TraceHeader := ⟨producer, timescale⟩

/-- A traced register. -/
structure TracedRegister where
  name : String
  width : Nat
  deriving DecidableEq, Repr

/-- The value of a traced register at one time, as its binary digits. -/
structure TracedValue where
  name : String
  width : Nat
  bits : String
  deriving DecidableEq, Repr

/-- A consumer of traces with state `σ`. -/
structure Sink (σ : Type) where
  start : TraceHeader → List TracedRegister → σ → Except DeviceError Unit × σ
  sample : Nat → List TracedValue → σ → Except DeviceError Unit × σ
  finish : Nat → σ → Except DeviceError Unit × σ

/-- One call of a sink. -/
inductive SinkCall where
  | start (header : TraceHeader) (vars : List TracedRegister)
  | sample (cycle : Nat) (values : List TracedValue)
  | finish (cycle : Nat)
  deriving DecidableEq, Repr

/-- Makes one call. -/
def Sink.call {σ : Type} (sink : Sink σ) : SinkCall → σ → Except DeviceError Unit × σ
  | .start header vars => sink.start header vars
  | .sample cycle values => sink.sample cycle values
  | .finish cycle => sink.finish cycle

/-- The sink that remembers its calls, the newest first. -/
def Sink.recorder : Sink (List SinkCall) where
  start header vars calls := (.ok (), .start header vars :: calls)
  sample cycle values calls := (.ok (), .sample cycle values :: calls)
  finish cycle calls := (.ok (), .finish cycle :: calls)

@[simp] theorem Sink.call_recorder (call : SinkCall) (calls : List SinkCall) :
    Sink.recorder.call call calls = (.ok (), call :: calls) := by
  cases call <;> rfl

end AtomicRules
