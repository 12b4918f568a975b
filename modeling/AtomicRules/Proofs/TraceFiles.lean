import AtomicRules.Design.Toggle
import AtomicRules.Simulation.Basic

/-!
# Traces into files

There are two ways to trace into a file: by its path, and by a configuration that names it.
Both create the file, trace into it and close it. The configuration is checked first, and a
period of zero cycles is refused there; by its path the file is created first, and the
period is not looked at until the file is there.

What is said here does not depend on how files are kept. A `FileStore` may refuse to create
a file for any reason, may take or fail any call of the trace, and may do anything to its
files when it creates or closes one; a destination is one such store.

## Main results

* `Simulation.traceToPath_eq_in`, `Simulation.execute_eq_in` — the two ways, on destinations
  as on stores.
* `Simulation.executeIn_zero_period` — by configuration, nothing is touched when the period
  is zero.
* `Simulation.traceToPath_agrees_iff` — exactly when the two ways are the same.
-/

namespace AtomicRules

/-- Anything that keeps files. Creating one by its path fails or opens it for the calls of a
trace, and closing it leaves behind what they have made of it. -/
structure FileStore (ω σ : Type) where
  create : String → ω → Except DeviceError σ × ω
  sink : Sink σ
  close : σ → ω → ω

/-- A destination keeps one file, whatever its path, and takes every call. -/
def Destination.store : FileStore Destination Writer where
  create _ destination :=
    match destination.create with
    | .error cause => (.error cause, destination)
    | .ok created => (.ok Writer.unbounded, created)
  sink := Vcd.sink
  close writer destination := { destination with content := some writer.written }

namespace Simulation

variable {file : RegisterFile} {ω σ : Type}

/-! ### Stores -/

/-- Runs with a trace into the file at a path of a store, which is created first. -/
def traceToFileIn (store : FileStore ω σ) (sim : Simulation file) (path : String) (world : ω)
    (header : TraceHeader) (cycles period : Nat) : Traced file ω :=
  match store.create path world with
  | (.error cause, world) => ⟨.error (.failed (.traceCreate path cause)), sim, world⟩
  | (.ok state, world) =>
      let traced := sim.trace store.sink state header cycles period
      ⟨traced.outcome, traced.simulation, store.close traced.sink world⟩

/-- Runs with a trace into the file at a path of a store, with the default timescale. -/
def traceToPathIn (store : FileStore ω σ) (sim : Simulation file) (path : String) (world : ω)
    (cycles period : Nat) : Traced file ω :=
  sim.traceToFileIn store path world (TraceHeader.ofTimescale defaultTimescale) cycles period

/-- Runs as a configuration says, with the trace in a store. -/
def executeIn (store : FileStore ω σ) (sim : Simulation file) (config : RunConfig)
    (world : ω) : Traced file ω :=
  match config.validate with
  | .error error => ⟨.error (.failed error), sim, world⟩
  | .ok () =>
      match config.trace with
      | some trace =>
          sim.traceToFileIn store trace.path world (TraceHeader.ofTimescale trace.timescale)
            config.cycles trace.period
      | none =>
          match sim.run config.cycles with
          | (.ok (), sim) => ⟨.ok (), sim, world⟩
          | (.error violation, sim) => ⟨.error (.violated violation), sim, world⟩

theorem traceToFile_eq_in (sim : Simulation file) (path : String) (destination : Destination)
    (header : TraceHeader) (cycles period : Nat) :
    sim.traceToFile path destination header cycles period =
      sim.traceToFileIn Destination.store path destination header cycles period := by
  simp only [traceToFile, traceToFileIn, Destination.store]
  cases destination.create with
  | error cause => rfl
  | ok created => rfl

theorem traceToPath_eq_in (sim : Simulation file) (path : String) (destination : Destination)
    (cycles period : Nat) :
    sim.traceToPath path destination cycles period =
      sim.traceToPathIn Destination.store path destination cycles period :=
  sim.traceToFile_eq_in path destination _ cycles period

theorem execute_eq_in (sim : Simulation file) (config : RunConfig) (destination : Destination) :
    sim.execute config destination = sim.executeIn Destination.store config destination := by
  unfold execute executeIn
  cases config.validate with
  | error error => rfl
  | ok =>
      cases config.trace with
      | some trace =>
          exact sim.traceToFile_eq_in trace.path destination _ config.cycles trace.period
      | none => rfl

/-! ### A period of zero cycles -/

/-- The refusal of the period comes from the check, before the store is asked for anything. -/
theorem executeIn_zero_period (store : FileStore ω σ) (sim : Simulation file) (path : String)
    (world : ω) (cycles : Nat) :
    sim.executeIn store { cycles, trace := some { path, period := 0 } } world
      = ⟨.error (.failed .zeroTracePeriod), sim, world⟩ := rfl

/-- The refusal of the period comes from the trace, when the file has been created. -/
theorem traceToPathIn_zero_period (store : FileStore ω σ) (sim : Simulation file)
    (path : String) (world : ω) (cycles : Nat) :
    sim.traceToPathIn store path world cycles 0 =
      match store.create path world with
      | (.error cause, world) => ⟨.error (.failed (.traceCreate path cause)), sim, world⟩
      | (.ok state, world) =>
          ⟨.error (.failed .zeroTracePeriod), sim, store.close state world⟩ := by
  simp only [traceToPathIn, traceToFileIn, trace_zero_period]

/-! ### The two ways -/

theorem traceToPathIn_eq_executeIn {period : Nat} (h : 0 < period) (store : FileStore ω σ)
    (sim : Simulation file) (path : String) (world : ω) (cycles : Nat) :
    sim.traceToPathIn store path world cycles period
      = sim.executeIn store { cycles, trace := some { path, period } } world := by
  have hValid : RunConfig.validate { cycles, trace := some { path, period } } = .ok () := by
    rw [RunConfig.validate_eq_ok_iff]
    rintro trace ⟨⟩
    exact Nat.ne_of_gt h
  rw [executeIn, hValid]
  rfl

/-- With a period of zero cycles the two ways are the same when creating the file succeeds
and leaves no mark. -/
theorem zero_period_agrees_iff (store : FileStore ω σ) (sim : Simulation file) (path : String)
    (world : ω) (cycles : Nat) :
    sim.traceToPathIn store path world cycles 0
        = sim.executeIn store { cycles, trace := some { path, period := 0 } } world ↔
      ∃ state created, store.create path world = (.ok state, created) ∧
        store.close state created = world := by
  rw [traceToPathIn_zero_period, executeIn_zero_period]
  cases store.create path world with
  | mk result created =>
      cases result with
      | error cause =>
          refine ⟨fun h => ?_, ?_⟩
          · cases congrArg Traced.outcome h
          · rintro ⟨_, _, hCreated, -⟩
            cases hCreated
      | ok state =>
          refine ⟨fun h => ⟨state, created, rfl, congrArg Traced.sink h⟩, ?_⟩
          rintro ⟨_, _, hCreated, hClosed⟩
          cases hCreated
          exact congrArg (Traced.mk _ sim) hClosed

theorem agrees_iff (store : FileStore ω σ) (sim : Simulation file) (path : String) (world : ω)
    (cycles period : Nat) :
    sim.traceToPathIn store path world cycles period
        = sim.executeIn store { cycles, trace := some { path, period } } world ↔
      0 < period ∨ ∃ state created, store.create path world = (.ok state, created) ∧
        store.close state created = world := by
  rcases Nat.eq_zero_or_pos period with rfl | hPeriod
  · simp only [zero_period_agrees_iff, Nat.lt_irrefl, false_or]
  · exact iff_of_true (traceToPathIn_eq_executeIn hPeriod store sim path world cycles)
      (Or.inl hPeriod)

/-- Creating the file of a destination leaves no mark on a file that is empty. -/
theorem created_unmarked_iff (path : String) (destination : Destination) :
    (∃ state created, Destination.store.create path destination = (.ok state, created) ∧
        Destination.store.close state created = destination) ↔
      destination.refusal = none ∧ destination.content = some ByteArray.empty := by
  obtain ⟨refusal, content⟩ := destination
  cases refusal with
  | some cause =>
      refine ⟨?_, fun h => ?_⟩
      · rintro ⟨_, _, hCreated, -⟩
        cases hCreated
      · cases h.1
  | none =>
      refine ⟨?_, ?_⟩
      · rintro ⟨_, _, hCreated, hClosed⟩
        cases hCreated
        exact ⟨rfl, (congrArg Destination.content hClosed).symm⟩
      · rintro ⟨-, hContent⟩
        exact ⟨Writer.unbounded, _, rfl, congrArg (Destination.mk none) hContent.symm⟩

/-- By its path and by a configuration, a trace into a file has the same result, leaves the
same simulation and does the same to the files, for every period that is not zero. A period
of zero cycles is refused by configuration with nothing touched. By the path it is refused
when the file has been created, and not at all when the file cannot be created: that is
what is reported then. So with a period of zero the two are the same exactly when creating
the file leaves no mark, and on a destination when the file is there and empty. -/
theorem traceToPath_agrees_iff (sim : Simulation file) (path : String) (cycles period : Nat) :
    (∀ (store : FileStore ω σ) (world : ω),
        (sim.traceToPathIn store path world cycles period
            = sim.executeIn store { cycles, trace := some { path, period } } world ↔
          0 < period ∨ ∃ state created, store.create path world = (.ok state, created) ∧
            store.close state created = world) ∧
          sim.executeIn store { cycles, trace := some { path, period := 0 } } world
            = ⟨.error (.failed .zeroTracePeriod), sim, world⟩ ∧
          sim.traceToPathIn store path world cycles 0 =
            match store.create path world with
            | (.error cause, world) => ⟨.error (.failed (.traceCreate path cause)), sim, world⟩
            | (.ok state, world) =>
                ⟨.error (.failed .zeroTracePeriod), sim, store.close state world⟩) ∧
      ∀ destination : Destination,
        sim.traceToPath path destination cycles period
            = sim.traceToPathIn Destination.store path destination cycles period ∧
          (∀ config, sim.execute config destination
            = sim.executeIn Destination.store config destination) ∧
          (sim.traceToPath path destination cycles period
              = sim.execute { cycles, trace := some { path, period } } destination ↔
            0 < period ∨
              destination.refusal = none ∧ destination.content = some ByteArray.empty) := by
  refine ⟨fun store world => ⟨?_, ?_, ?_⟩, fun destination => ⟨?_, ?_, ?_⟩⟩
  · exact agrees_iff store sim path world cycles period
  · exact executeIn_zero_period store sim path world cycles
  · exact traceToPathIn_zero_period store sim path world cycles
  · exact sim.traceToPath_eq_in path destination cycles period
  · exact fun config => sim.execute_eq_in config destination
  · rw [traceToPath_eq_in, execute_eq_in, agrees_iff, created_unmarked_iff]

end Simulation

namespace Toggle

/-- A trace of three cycles with a period of zero. By its path it leaves an empty file where
there was none, empties the one that was there, and says of a directory that is missing
what it does not say by configuration. -/
theorem zero_period_marks_file :
    let sim := Simulation.ofRules rules
    let config : RunConfig := { cycles := 3, trace := some { path := "out.vcd", period := 0 } }
    let refused := Except.error (Halt.failed .zeroTracePeriod)
    let absent : Destination := {}
    let full : Destination := { content := some "#0\n".toUTF8 }
    let blocked : Destination := { refusal := some .notFound }
    sim.traceToPath "out.vcd" absent 3 0
        = ⟨refused, sim, { content := some ByteArray.empty }⟩ ∧
      sim.execute config absent = ⟨refused, sim, absent⟩ ∧
      sim.traceToPath "out.vcd" absent 3 0 ≠ sim.execute config absent ∧
      sim.traceToPath "out.vcd" full 3 0 = ⟨refused, sim, { content := some ByteArray.empty }⟩ ∧
      sim.execute config full = ⟨refused, sim, full⟩ ∧
      sim.traceToPath "out.vcd" blocked 3 0
        = ⟨.error (.failed (.traceCreate "out.vcd" .notFound)), sim, blocked⟩ ∧
      sim.execute config blocked = ⟨refused, sim, blocked⟩ := by
  refine ⟨rfl, rfl, fun h => ?_, rfl, rfl, rfl, rfl⟩
  have hContent : some ByteArray.empty = (none : Option ByteArray) :=
    congrArg (fun traced => traced.sink.content) h
  cases hContent

end Toggle

end AtomicRules
