import AtomicRules.Proofs.BinaryDigits
import AtomicRules.Proofs.Memoryless

/-!
# What a trace samples

A trace runs the cycles of a simulation and talks to a sink in between. What it says is
fixed before it says any of it: the sink has no way to change what is simulated, it can
only end it. So the trace is taken apart here. `schedule` has the calls in their order,
each with the simulation in which it is made, and every one of these simulations is a run
from the first one. `playback` makes such calls one after the other and stops at the first
that fails, in the simulation beside it.

The samples are made in the cycles whose distance from the first is a multiple of the
period, one for every period begun. What is sampled of a register are the bits of its
packed value, as many as its width.

## Main results

* `Simulation.tracedValues_eq` — the sampled values, digit by digit.
* `Simulation.trace_eq_playback` — a trace is the playback of its schedule, for every sink.
* `Simulation.schedule_eq` — the schedule: one sample for every period that is reached.
* `Simulation.trace_of_run` — a sink that takes its calls is told all of them, and the
  simulation is left as by a run.
-/

namespace AtomicRules

section Sampling

variable {file : RegisterFile} {σ : Type}

/-! ### Sampled values -/

/-- The entries of a row, register by register. -/
theorem Row.toList_eq_map {α : Register → Type} {γ : Type}
    (f : (register : Register) → α register → γ) : {file : RegisterFile} → (row : Row α file) →
    row.toList f = file.regs.map fun reg => f (file.decl reg) (row.get reg)
  | [], _ => rfl
  | register :: rest, row => by
      have hRegs : RegisterFile.regs (register :: rest)
          = (0 : Fin (rest.length + 1)) :: (RegisterFile.regs rest).map Fin.succ :=
        List.finRange_succ
      rw [hRegs, List.map_cons, List.map_map, toList, toList_eq_map f row.2]
      rfl

/-- The name, the width and the binary digits of the packed value of every register, in
declaration order. -/
def sampledValues (state : State file) : List TracedValue :=
  file.regs.map fun reg =>
    let ty := (file.decl reg).ty
    ⟨(file.nameOf reg).text, ty.width, String.ofList ((List.range ty.width).map fun place =>
      bitDigit ((ty.pack (state.get reg)).bit (ty.width - 1 - place)))⟩

theorem Simulation.tracedValues_eq (sim : Simulation file) :
    sim.tracedValues = sampledValues sim.state := by
  rw [tracedValues, Row.toList_eq_map]
  apply List.map_congr_left
  intro reg _
  rw [Bits.binString, Bits.binDigits_eq]
  rfl

/-! ### Sinks -/

/-- Makes calls one after the other until one fails. -/
def Sink.feed (sink : Sink σ) : List SinkCall → σ → Except DeviceError Unit × σ
  | [], state => (.ok (), state)
  | call :: rest, state =>
      match sink.call call state with
      | (.ok (), state) => sink.feed rest state
      | failed => failed

/-! ### Cycles sampled -/

section Periods

variable {period : Nat} (hPeriod : 0 < period)

include hPeriod

/-- Up to a multiple of the period, all periods begun are complete. -/
theorem periods_of_multiple {n : Nat} (h : n % period = 0) :
    (n + period - 1) / period = n / period := by
  have hSplit := Nat.div_add_mod' n period
  exact Nat.div_eq_of_lt_le (by omega) (by rw [Nat.succ_mul]; omega)

/-- Anywhere else one more period is begun than complete. -/
theorem periods_of_not_multiple {n : Nat} (h : n % period ≠ 0) :
    (n + period - 1) / period = n / period + 1 := by
  have hSplit := Nat.div_add_mod' n period
  have hRest := Nat.mod_lt n hPeriod
  exact Nat.div_eq_of_lt_le (by rw [Nat.succ_mul]; omega)
    (by rw [Nat.succ_mul, Nat.succ_mul]; omega)

theorem periods_succ (n : Nat) : (n + 1 + period - 1) / period = n / period + 1 := by
  rw [Nat.add_right_comm, Nat.add_sub_cancel, Nat.add_div_right n hPeriod]

/-- The multiples of a period below `n`: one for every period begun. -/
theorem filter_range_multiples (n : Nat) :
    (List.range n).filter (fun j => j % period = 0)
      = (List.range ((n + period - 1) / period)).map (· * period) := by
  induction n with
  | zero =>
      have hNone : (0 + period - 1) / period = 0 := Nat.div_eq_of_lt (by omega)
      rw [hNone]
      rfl
  | succ n ih =>
      rw [List.range_succ, List.filter_append, ih, periods_succ hPeriod]
      by_cases h : n % period = 0
      · have hMultiple : n / period * period = n := by
          have hSplit := Nat.div_add_mod' n period
          omega
        rw [periods_of_multiple hPeriod h, List.range_succ, List.map_append, List.map_singleton,
          hMultiple]
        simp [h]
      · rw [periods_of_not_multiple hPeriod h]
        simp [h]

/-- A period is begun when its first cycle is one of the cycles. -/
theorem lt_periods_iff {n k : Nat} : k < (n + period - 1) / period ↔ k * period < n := by
  rw [Nat.lt_iff_add_one_le, Nat.le_div_iff_mul_le hPeriod, Nat.succ_mul]
  omega

end Periods

namespace Simulation

/-! ### Runs -/

theorem run_succ_of_step {sim later : Simulation file} {report : CycleReport}
    (h : sim.step = (.ok report, later)) (n : Nat) : run (n + 1) sim = run n later := by
  rw [run_succ, h]

theorem run_succ_of_stop {sim stopped : Simulation file} {violation : FootprintViolation}
    (h : sim.step = (.error violation, stopped)) (n : Nat) :
    run (n + 1) sim = (.error violation, stopped) := by
  rw [run_succ, h]

theorem eq_ok_of_isOk {ε : Type} {result : Except ε Unit} (h : result.isOk = true) :
    result = .ok () := by
  cases result with
  | ok => rfl
  | error => cases h

/-- A run from where another one ended. -/
theorem run_of_run_add {m n : Nat} {sim : Simulation file} (h : (run m sim).1 = .ok ()) :
    run n (run m sim).2 = run (m + n) sim := by
  rw [run_add]
  cases hRun : run m sim with
  | mk outcome later =>
      rw [hRun] at h
      obtain rfl : outcome = .ok () := h
      rfl

/-- Every part of a completed run is completed. -/
theorem run_fst_eq_ok_of_le {m n : Nat} {sim : Simulation file} (hle : m ≤ n)
    (h : (run n sim).1 = .ok ()) : (run m sim).1 = .ok () := by
  rw [← Nat.add_sub_cancel' hle, run_add] at h
  cases hRun : run m sim with
  | mk outcome later =>
      rw [hRun] at h
      cases outcome with
      | ok => rfl
      | error violation => exact h

/-- A completed run reaches the first cycle of every period that is begun. -/
theorem reached_of_completed {period n k : Nat} (hPeriod : 0 < period) {sim : Simulation file}
    (h : (run n sim).1 = .ok ()) (hBegun : k < (n + period - 1) / period) :
    (run (k * period) sim).1 = .ok () := by
  have hBelow : k * period < n := (lt_periods_iff hPeriod).mp hBegun
  exact run_fst_eq_ok_of_le (Nat.le_of_lt hBelow) h

/-- A period is reached after those before it. -/
theorem reached_before {period i k : Nat} {sim : Simulation file}
    (h : (run (k * period) sim).1 = .ok ()) (hle : i ≤ k) :
    (run (i * period) sim).1 = .ok () :=
  run_fst_eq_ok_of_le (Nat.mul_le_mul_right period hle) h

theorem cycle_run {n : Nat} {sim : Simulation file} (h : (run n sim).1 = .ok ()) :
    (run n sim).2.cycle = sim.cycle + n :=
  (ahead_of_run (Prod.ext h rfl)).cycle_eq

/-! ### Playback -/

/-- Makes calls one after the other, each of them in the simulation beside it. The first
call that fails ends it there. -/
def playback (sink : Sink σ) (outcome : Except Halt Unit) (last : Simulation file) :
    List (SinkCall × Simulation file) → σ → Traced file σ
  | [], state => ⟨outcome, last, state⟩
  | (call, sim) :: rest, state =>
      match sink.call call state with
      | (.ok (), state) => playback sink outcome last rest state
      | (.error cause, state) => ⟨.error (.failed (.output cause)), sim, state⟩

/-- Calls that are taken hand the sink on to the calls after them. -/
theorem playback_append_of_feed {sink : Sink σ} {outcome : Except Halt Unit}
    {last : Simulation file} {before : List (SinkCall × Simulation file)} {state taken : σ}
    (h : sink.feed (before.map Prod.fst) state = (.ok (), taken))
    (rest : List (SinkCall × Simulation file)) :
    playback sink outcome last (before ++ rest) state
      = playback sink outcome last rest taken := by
  induction before generalizing state with
  | nil =>
      obtain rfl : state = taken := congrArg Prod.snd h
      rfl
  | cons first before ih =>
      obtain ⟨call, sim⟩ := first
      simp only [List.map_cons, Sink.feed] at h
      simp only [List.cons_append, playback]
      cases hCall : sink.call call state with
      | mk result after =>
          rw [hCall] at h
          cases result with
          | ok => exact ih h
          | error cause => cases h

/-! ### The schedule of a trace -/

/-- What is sampled of a simulation. -/
def sampling (sim : Simulation file) : SinkCall × Simulation file :=
  (.sample sim.cycle sim.tracedValues, sim)

/-- The sample of a cycle, when its number is due. -/
def samplingAt (period offset : Nat) (sim : Simulation file) :
    List (SinkCall × Simulation file) :=
  if offset % period = 0 then [sampling sim] else []

/-- The calls of a number of cycles, the first of which has the number `offset`. -/
def cycleCalls (period : Nat) :
    Nat → Nat → Simulation file → List (SinkCall × Simulation file)
  | 0, _, sim => [(.finish sim.cycle, sim)]
  | n + 1, offset, sim =>
      samplingAt period offset sim ++
        match sim.step with
        | (.ok _, later) => cycleCalls period n (offset + 1) later
        | (.error _, _) => []

/-- The calls of a trace. -/
def schedule (header : TraceHeader) (n period : Nat) (sim : Simulation file) :
    List (SinkCall × Simulation file) :=
  (.start header (tracedRegisters file), sim) :: cycleCalls period n 0 sim

theorem traceCycles_eq_playback (sink : Sink σ) (period n offset : Nat) (sim : Simulation file)
    (state : σ) :
    traceCycles sink period n offset sim state =
      playback sink ((run n sim).1.mapError .violated) (run n sim).2
        (cycleCalls period n offset sim) state := by
  induction n generalizing offset sim state with
  | zero =>
      simp only [traceCycles, cycleCalls, playback, Sink.call]
      cases sink.finish sim.cycle state with
      | mk result after =>
          cases result with
          | ok => rfl
          | error cause => rfl
  | succ n ih =>
      simp only [traceCycles, cycleCalls, samplingAt, run_succ]
      cases sim.step with
      | mk stepped later =>
          by_cases hSample : offset % period = 0
          · simp only [if_pos hSample, List.singleton_append, sampling, playback, Sink.call]
            cases sink.sample sim.cycle sim.tracedValues state with
            | mk result after =>
                cases result with
                | error cause => rfl
                | ok =>
                    cases stepped with
                    | ok report => exact ih (offset + 1) later after
                    | error violation => rfl
          · simp only [if_neg hSample, List.nil_append]
            cases stepped with
            | ok report => exact ih (offset + 1) later state
            | error violation => rfl

/-- A trace makes the calls of its schedule, and its outcome is that of the run when all of
them are taken. -/
theorem trace_eq_playback {period : Nat} (hPeriod : 0 < period) (sim : Simulation file)
    (sink : Sink σ) (state : σ) (header : TraceHeader) (n : Nat) :
    sim.trace sink state header n period =
      playback sink ((run n sim).1.mapError .violated) (run n sim).2
        (schedule header n period sim) state := by
  rw [trace, if_neg (Nat.ne_of_gt hPeriod)]
  simp only [schedule, playback, Sink.call]
  cases sink.start header (tracedRegisters file) state with
  | mk result after =>
      cases result with
      | ok => exact traceCycles_eq_playback sink period n 0 sim after
      | error cause => rfl

/-! ### The calls, one by one -/

/-- The samples of `n` cycles, when the first of them has the number `offset`. -/
def samplesFrom (period offset n : Nat) (sim : Simulation file) :
    List (SinkCall × Simulation file) :=
  ((List.range n).filter fun j => (offset + j) % period = 0 ∧ (run j sim).1.isOk).map
    fun j => sampling (run j sim).2

/-- The call that closes a trace of `n` cycles, unless a violation has ended it. -/
def closing (n : Nat) (sim : Simulation file) : List (SinkCall × Simulation file) :=
  if (run n sim).1.isOk then [(.finish (run n sim).2.cycle, (run n sim).2)] else []

/-- The sample of the first cycle comes before those of the others. -/
theorem samplesFrom_succ (period offset n : Nat) (sim : Simulation file) :
    samplesFrom period offset (n + 1) sim =
      samplingAt period offset sim ++
        ((List.range n).filter fun j =>
          (offset + 1 + j) % period = 0 ∧ (run (j + 1) sim).1.isOk).map
          fun j => sampling (run (j + 1) sim).2 := by
  have hLater : (fun j => decide ((offset + j) % period = 0 ∧ (run j sim).1.isOk)) ∘ Nat.succ
      = fun j => decide ((offset + 1 + j) % period = 0 ∧ (run (j + 1) sim).1.isOk) := by
    funext j
    rw [Function.comp_apply, Nat.succ_eq_add_one, ← Nat.add_assoc, Nat.add_right_comm]
  unfold samplesFrom samplingAt
  rw [List.range_succ_eq_map, List.filter_cons, List.filter_map, hLater]
  by_cases hFirst : offset % period = 0
  · rw [if_pos (by simpa using ⟨hFirst, rfl⟩), if_pos hFirst, List.map_cons, List.map_map]
    rfl
  · rw [if_neg (by simp [hFirst]), if_neg hFirst, List.map_map]
    rfl

theorem samplesFrom_succ_of_step {sim later : Simulation file} {report : CycleReport}
    (h : sim.step = (.ok report, later)) (period offset n : Nat) :
    samplesFrom period offset (n + 1) sim =
      samplingAt period offset sim ++ samplesFrom period (offset + 1) n later := by
  rw [samplesFrom_succ, samplesFrom]
  simp only [run_succ_of_step h]

theorem samplesFrom_succ_of_stop {sim stopped : Simulation file} {violation : FootprintViolation}
    (h : sim.step = (.error violation, stopped)) (period offset n : Nat) :
    samplesFrom period offset (n + 1) sim = samplingAt period offset sim := by
  have hNone : ∀ j, (run (j + 1) sim).1.isOk = false := by
    intro j
    rw [run_succ_of_stop h]
    rfl
  rw [samplesFrom_succ]
  simp [hNone]

theorem cycleCalls_eq (period n offset : Nat) (sim : Simulation file) :
    cycleCalls period n offset sim = samplesFrom period offset n sim ++ closing n sim := by
  induction n generalizing offset sim with
  | zero => rfl
  | succ n ih =>
      unfold cycleCalls closing
      cases hStep : sim.step with
      | mk result later =>
          cases result with
          | ok report =>
              rw [samplesFrom_succ_of_step hStep, run_succ_of_step hStep, List.append_assoc]
              exact congrArg (samplingAt period offset sim ++ ·) (ih (offset + 1) later)
          | error violation =>
              rw [samplesFrom_succ_of_stop hStep, run_succ_of_stop hStep]
              rfl

/-- The cycles of a run that are sampled, as far as the run gets. -/
theorem samplesFrom_zero {period : Nat} (hPeriod : 0 < period) (n : Nat)
    (sim : Simulation file) :
    samplesFrom period 0 n sim =
      ((List.range ((n + period - 1) / period)).filter
        fun k => (run (k * period) sim).1.isOk).map fun k => sampling (run (k * period) sim).2 := by
  have hDue : (fun j => decide ((0 + j) % period = 0 ∧ (run j sim).1.isOk))
      = fun j => (run j sim).1.isOk && decide (j % period = 0) := by
    funext j
    rw [Nat.zero_add, Bool.decide_and, Bool.decide_eq_true, Bool.and_comm]
  rw [samplesFrom, hDue, ← List.filter_filter, filter_range_multiples hPeriod, List.filter_map,
    List.map_map]
  rfl

theorem schedule_eq {period : Nat} (hPeriod : 0 < period) (header : TraceHeader) (n : Nat)
    (sim : Simulation file) :
    schedule header n period sim =
      (.start header (tracedRegisters file), sim) ::
        (((List.range ((n + period - 1) / period)).filter
          fun k => (run (k * period) sim).1.isOk).map
            fun k => sampling (run (k * period) sim).2) ++ closing n sim := by
  rw [schedule, cycleCalls_eq, samplesFrom_zero hPeriod]
  rfl

/-- What is sampled in cycles that are reached. -/
theorem map_fst_samplings {period : Nat} {sim : Simulation file} {ks : List Nat}
    (h : ∀ k ∈ ks, (run (k * period) sim).1 = .ok ()) :
    (ks.map fun k => sampling (run (k * period) sim).2).map Prod.fst =
      ks.map fun k => SinkCall.sample (sim.cycle + k * period)
        (sampledValues (run (k * period) sim).2.state) := by
  rw [List.map_map]
  apply List.map_congr_left
  intro k hk
  rw [Function.comp_apply, sampling, cycle_run (h k hk), tracedValues_eq]

/-- What is said before the sample of the period with a given number: the start, and a
sample for every period before that one. -/
def toldBefore (header : TraceHeader) (period k : Nat) (sim : Simulation file) : List SinkCall :=
  .start header (tracedRegisters file) ::
    (List.range k).map fun i =>
      .sample (sim.cycle + i * period) (sampledValues (run (i * period) sim).2.state)

/-- The calls before the sample of a period, with their simulations. -/
def scheduledBefore (header : TraceHeader) (period k : Nat) (sim : Simulation file) :
    List (SinkCall × Simulation file) :=
  (.start header (tracedRegisters file), sim) ::
    (List.range k).map fun i => sampling (run (i * period) sim).2

theorem map_fst_scheduledBefore {period k : Nat} {sim : Simulation file} (header : TraceHeader)
    (h : ∀ i < k, (run (i * period) sim).1 = .ok ()) :
    (scheduledBefore header period k sim).map Prod.fst = toldBefore header period k sim := by
  rw [scheduledBefore, List.map_cons, map_fst_samplings]
  · rfl
  · intro i hi
    exact h i (List.mem_range.mp hi)

/-- A run that is completed reaches every cycle that is sampled. -/
theorem schedule_of_completed {period n : Nat} (hPeriod : 0 < period) (header : TraceHeader)
    {sim : Simulation file} (h : (run n sim).1 = .ok ()) :
    schedule header n period sim =
      scheduledBefore header period ((n + period - 1) / period) sim ++
        [(.finish (sim.cycle + n), (run n sim).2)] := by
  have hReached : (List.range ((n + period - 1) / period)).filter
      (fun k => (run (k * period) sim).1.isOk) = List.range ((n + period - 1) / period) := by
    rw [List.filter_eq_self]
    intro k hk
    rw [reached_of_completed hPeriod h (List.mem_range.mp hk)]
    rfl
  rw [schedule_eq hPeriod, hReached, closing, h, cycle_run h]
  rfl

/-! ### What a trace tells its sink -/

/-- When all calls are taken, the outcome is the one that was to be reached. -/
theorem playback_of_feed {sink : Sink σ} {outcome : Except Halt Unit} {last : Simulation file}
    {calls : List (SinkCall × Simulation file)} {state told : σ}
    (h : sink.feed (calls.map Prod.fst) state = (.ok (), told)) :
    playback sink outcome last calls state = ⟨outcome, last, told⟩ := by
  have hEnd : playback sink outcome last (calls ++ []) state = playback sink outcome last [] told :=
    playback_append_of_feed h []
  rw [List.append_nil] at hEnd
  exact hEnd

/-- A trace leaves the simulation as a run does, and a sink that takes its calls is told
what happens. It is told every register with its width, in declaration order. Then it is
told, for every period begun, the number of the first cycle of that period and the values
before that cycle, with as many digits as a register has bits. At last it is told the
number of the cycle that was not run any more. A violation ends the trace where it ends
the run: the sink has then been told the periods that the run has reached, and no end. -/
theorem trace_of_run {period : Nat} (hPeriod : 0 < period) (sim : Simulation file)
    (sink : Sink σ) (state told : σ) (header : TraceHeader) (n : Nat) :
    ((run n sim).1 = .ok () →
        sink.feed
            (.start header (file.map fun register => ⟨register.name.text, register.ty.width⟩) ::
              ((List.range ((n + period - 1) / period)).map fun k =>
                .sample (sim.cycle + k * period)
                  (sampledValues (run (k * period) sim).2.state)) ++
              [.finish (sim.cycle + n)]) state = (.ok (), told) →
          sim.trace sink state header n period = ⟨.ok (), (run n sim).2, told⟩) ∧
      ∀ violation, (run n sim).1 = .error violation →
        sink.feed
            (.start header (file.map fun register => ⟨register.name.text, register.ty.width⟩) ::
              ((List.range ((n + period - 1) / period)).filter
                fun k => (run (k * period) sim).1.isOk).map fun k =>
                  .sample (sim.cycle + k * period)
                    (sampledValues (run (k * period) sim).2.state)) state = (.ok (), told) →
          sim.trace sink state header n period =
            ⟨.error (.violated violation), (run n sim).2, told⟩ := by
  refine ⟨?_, ?_⟩
  · intro hRun hFeed
    rw [trace_eq_playback hPeriod, hRun]
    apply playback_of_feed
    rw [schedule_of_completed hPeriod header hRun, List.map_append, map_fst_scheduledBefore]
    · exact hFeed
    · intro k hBegun
      exact reached_of_completed hPeriod hRun hBegun
  · intro violation hRun hFeed
    rw [trace_eq_playback hPeriod, hRun]
    apply playback_of_feed
    have hOpen : closing n sim = [] := by
      rw [closing, hRun]
      rfl
    rw [schedule_eq hPeriod, hOpen, List.append_nil, List.map_cons, map_fst_samplings]
    · exact hFeed
    · intro k hk
      exact eq_ok_of_isOk (List.mem_filter.mp hk).2

end Simulation

end Sampling

namespace Collatz

/-- The sample of values, for a cycle with a given number. -/
def sampleOf (cycle : Nat) (x steps : String) : SinkCall :=
  .sample cycle [⟨"x", 32, x⟩, ⟨"steps", 16, steps⟩]

/-- Three cycles from 6, after one from 12, with a sample in every second cycle: the second
period is begun and not completed. From 12 the third of five cycles is stopped at 3. -/
theorem trace_of_run_twelve :
    let header := TraceHeader.ofTimescale "1 ps"
    let declared : SinkCall := .start header [⟨"x", 32⟩, ⟨"steps", 16⟩]
    let six := (Simulation.run 1 (Simulation.ofState twelve rules)).2
    let brittle := Simulation.ofState twelve fragile
    (Simulation.run 3 six).1 = .ok () ∧
      six.trace Sink.recorder [] header 3 2 =
        ⟨.ok (), (Simulation.run 3 six).2,
          [.finish 4,
            sampleOf 3 "00000000000000000000000000010000" "0000000000000011",
            sampleOf 1 "00000000000000000000000000000110" "0000000000000001", declared]⟩ ∧
      brittle.trace Sink.recorder [] header 5 2 =
        ⟨.error (.violated ⟨"steps", .read0⟩), (Simulation.run 5 brittle).2,
          [sampleOf 2 "00000000000000000000000000000011" "0000000000000000",
            sampleOf 0 "00000000000000000000000000001100" "0000000000000000", declared]⟩ := by
  refine ⟨rfl, ?_, ?_⟩
  · exact (Simulation.trace_of_run (by decide) _ Sink.recorder [] _ _ 3).1 rfl rfl
  · exact (Simulation.trace_of_run (by decide) _ Sink.recorder [] _ _ 5).2 _ rfl rfl

end Collatz

end AtomicRules
