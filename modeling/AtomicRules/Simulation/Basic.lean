import AtomicRules.Config.Basic
import AtomicRules.Scheduler
import AtomicRules.Trace.Destination
import AtomicRules.Trace.Vcd

/-!
# Simulations

A simulation owns the committed log from cycle to cycle and counts the cycles.
It runs silently, or with a trace: the sink is told the registers, then in every
`period`-th cycle the values before that cycle, and at the end the number of the
cycle that was not run any more.

A sink that fails stops the simulation between two cycles. What was simulated
until then stays, so the remaining cycles can still be run.

A trace to a path creates the file before anything else. A run by configuration
checks the configuration first.

## Main results

* `Simulation.run_zero`, `Simulation.run_succ` — a run is one cycle after the
  other until one of them halts.
* `Simulation.trace_zero_period` — a trace with a period of zero does nothing.
-/

namespace AtomicRules

variable {file : RegisterFile} {σ : Type}

/-- The committed log, the scheduler and the number of cycles completed. -/
structure Simulation (file : RegisterFile) where
  log : Log file
  scheduler : Scheduler file
  cycle : Nat

/-- A result together with the simulation it leaves. -/
abbrev Simulation.After (file : RegisterFile) (ε α : Type) := Except ε α × Simulation file

namespace Simulation

/-- A simulation that starts from given values. -/
def ofState (state : State file) (rules : List (Rule file)) : Simulation file :=
  ⟨Log.ofState state, Scheduler.ofRules rules, 0⟩

/-- A simulation that starts from the initial values. -/
def ofRules (rules : List (Rule file)) : Simulation file :=
  ofState (State.initial file) rules

/-- The committed values. -/
def state (sim : Simulation file) : State file := sim.log.state

/-- Every rule by name with its statistics, in priority order. -/
def stats (sim : Simulation file) : List (String × RuleStats) :=
  sim.scheduler.entries.map fun entry => (entry.rule.name, entry.stats)

/-! ### Running -/

/-- The cycle that would be run next. -/
def next (sim : Simulation file) : Cycle file := sim.scheduler.runCycle sim.log

/-- Runs one cycle. The cycle counts when it was run to its end. -/
def step (sim : Simulation file) : After file FootprintViolation CycleReport :=
  let cycle := sim.next
  match cycle.outcome with
  | .ok report => (.ok report, ⟨cycle.log, cycle.scheduler, sim.cycle + 1⟩)
  | .error violation => (.error violation, ⟨cycle.log, cycle.scheduler, sim.cycle⟩)

/-- Runs a number of cycles. -/
def run : Nat → Simulation file → After file FootprintViolation Unit
  | 0, sim => (.ok (), sim)
  | cycles + 1, sim =>
      match sim.step with
      | (.ok _, sim) => run cycles sim
      | (.error violation, sim) => (.error violation, sim)

@[simp] theorem run_zero (sim : Simulation file) : run 0 sim = (.ok (), sim) := rfl

theorem run_succ (cycles : Nat) (sim : Simulation file) :
    run (cycles + 1) sim =
      match sim.step with
      | (.ok _, sim) => run cycles sim
      | (.error violation, sim) => (.error violation, sim) := rfl

/-! ### Tracing -/

/-- The registers as a trace declares them. -/
def tracedRegisters (file : RegisterFile) : List TracedRegister :=
  file.map fun register => ⟨register.name.text, register.ty.width⟩

/-- The committed values as a trace samples them, each by its packed form. A register that
can be held in memory has far fewer than `2 ^ 32` bits, so there always is one. -/
def tracedValues (sim : Simulation file) : List TracedValue :=
  sim.log.state.toList fun register value =>
    ⟨register.name.text, register.ty.width, (register.ty.pack value).binString⟩

/-- A result together with the simulation and the sink it leaves. -/
structure Traced (file : RegisterFile) (σ : Type) where
  outcome : Except Halt Unit
  simulation : Simulation file
  sink : σ

/-- Runs the cycles of a trace, sampling when the offset is a multiple of the
period, and closes the trace. -/
def traceCycles (sink : Sink σ) (period : Nat) :
    Nat → Nat → Simulation file → σ → Traced file σ
  | 0, _, sim, state =>
      match sink.finish sim.cycle state with
      | (.ok (), state) => ⟨.ok (), sim, state⟩
      | (.error cause, state) => ⟨.error (.failed (.output cause)), sim, state⟩
  | cycles + 1, offset, sim, state =>
      let sampled :=
        if offset % period = 0 then sink.sample sim.cycle sim.tracedValues state
        else (.ok (), state)
      match sampled with
      | (.error cause, state) => ⟨.error (.failed (.output cause)), sim, state⟩
      | (.ok (), state) =>
          match sim.step with
          | (.error violation, sim) => ⟨.error (.violated violation), sim, state⟩
          | (.ok _, sim) => traceCycles sink period cycles (offset + 1) sim state

/-- Runs a number of cycles with a trace. -/
def trace (sim : Simulation file) (sink : Sink σ) (state : σ) (header : TraceHeader)
    (cycles period : Nat) : Traced file σ :=
  if period = 0 then ⟨.error (.failed .zeroTracePeriod), sim, state⟩
  else
    match sink.start header (tracedRegisters file) state with
    | (.error cause, state) => ⟨.error (.failed (.output cause)), sim, state⟩
    | (.ok (), state) => traceCycles sink period cycles 0 sim state

theorem trace_zero_period (sim : Simulation file) (sink : Sink σ) (state : σ)
    (header : TraceHeader) (cycles : Nat) :
    sim.trace sink state header cycles 0 = ⟨.error (.failed .zeroTracePeriod), sim, state⟩ :=
  if_pos rfl

/-- Runs with a trace into the file at a path, which is created first. -/
def traceToFile (sim : Simulation file) (path : String) (destination : Destination)
    (header : TraceHeader) (cycles period : Nat) : Traced file Destination :=
  match destination.create with
  | .error cause => ⟨.error (.failed (.traceCreate path cause)), sim, destination⟩
  | .ok destination =>
      let traced := sim.trace Vcd.sink Writer.unbounded header cycles period
      ⟨traced.outcome, traced.simulation,
        { destination with content := some traced.sink.written }⟩

/-- Runs with a trace into the file at a path, with the default timescale. -/
def traceToPath (sim : Simulation file) (path : String) (destination : Destination)
    (cycles period : Nat) : Traced file Destination :=
  sim.traceToFile path destination (TraceHeader.ofTimescale defaultTimescale) cycles period

/-- Runs as a configuration says: with a trace when it names a file, silently
otherwise. -/
def execute (sim : Simulation file) (config : RunConfig) (destination : Destination) :
    Traced file Destination :=
  match config.validate with
  | .error error => ⟨.error (.failed error), sim, destination⟩
  | .ok () =>
      match config.trace with
      | some trace =>
          sim.traceToFile trace.path destination (TraceHeader.ofTimescale trace.timescale)
            config.cycles trace.period
      | none =>
          match sim.run config.cycles with
          | (.ok (), sim) => ⟨.ok (), sim, destination⟩
          | (.error violation, sim) => ⟨.error (.violated violation), sim, destination⟩

/-! ### Dumping -/

/-- One line for each register. -/
def dumpLines (state : State file) : List String :=
  state.toList fun register value =>
    register.name.text ++ " = " ++ register.ty.repr {} value ++ "\n"

/-- Writes texts one after the other until one is not taken. -/
def writeAll : List String → Writer → Except DeviceError Unit × Writer
  | [], writer => (.ok (), writer)
  | text :: rest, writer =>
      match writer.write text with
      | (.ok (), writer) => writeAll rest writer
      | failed => failed

/-- Writes every register with its value on a line of its own. -/
def dump (sim : Simulation file) (writer : Writer) : Except Failure Unit × Writer :=
  match writeAll (dumpLines sim.state) writer with
  | (.ok (), writer) => (.ok (), writer)
  | (.error cause, writer) => (.error (.output cause), writer)

end Simulation

/-! ### From the initial values -/

/-- The values after a number of cycles from the initial ones. -/
def stateAfter (rules : List (Rule file)) (cycles : Nat) :
    Except FootprintViolation (State file) :=
  match (Simulation.ofRules rules).run cycles with
  | (.ok (), sim) => .ok sim.state
  | (.error violation, _) => .error violation

/-- Traces every one of a number of cycles from the initial values. -/
def traceFromInitial (rules : List (Rule file)) (path : String) (destination : Destination)
    (cycles : Nat) : Simulation.Traced file Destination :=
  (Simulation.ofRules rules).traceToPath path destination cycles 1

end AtomicRules
