import AtomicRules.Design.Toggle
import AtomicRules.Proofs.Sampling

/-!
# Traces that are cut short

A sink that fails ends a trace between two cycles. All calls before the one that failed
have been taken, no call is made after it, and what is left is the simulation of that call:
a run of whole cycles, which another run can go on from.

A dump is written record by record, and a writer may give up in the middle of one. A
`Device` stands for any such writer: of the bytes of a text it takes all, or it fails and
has taken some of the first. Because what a trace says does not depend on its sink, the
bytes taken are then the first ones of the text that a writer without a bound would hold.

## Main results

* `Simulation.trace_of_failure` — a trace whose sink fails at one of its calls.
* `Simulation.resumes_of_output_failed` — what a trace that failed has left to be run.
* `Device.written_feed` — what a device holds after calls, taken or not.
* `Simulation.trace_interrupted` — the start, every sample and the end as the call that
  fails, and dumps to writers of every size.
-/

namespace AtomicRules

section Interruptions

variable {file : RegisterFile} {σ τ : Type}

/-! ### The call that fails -/

namespace Simulation

/-- Nothing is said after a call that fails. -/
theorem playback_of_failure {sink : Sink σ} {outcome : Except Halt Unit}
    {last here : Simulation file} {before after : List (SinkCall × Simulation file)}
    {call : SinkCall} {cause : DeviceError} {state taken left : σ}
    (hTaken : sink.feed (before.map Prod.fst) state = (.ok (), taken))
    (hFails : sink.call call taken = (.error cause, left)) :
    playback sink outcome last (before ++ (call, here) :: after) state
      = ⟨.error (.failed (.output cause)), here, left⟩ := by
  rw [playback_append_of_feed hTaken, playback, hFails]

theorem trace_of_failure {period : Nat} (hPeriod : 0 < period) {sim here : Simulation file}
    {sink : Sink σ} {header : TraceHeader} {n : Nat}
    {before after : List (SinkCall × Simulation file)} {call : SinkCall}
    (hSchedule : schedule header n period sim = before ++ (call, here) :: after)
    {cause : DeviceError} {state taken left : σ}
    (hTaken : sink.feed (before.map Prod.fst) state = (.ok (), taken))
    (hFails : sink.call call taken = (.error cause, left)) :
    sim.trace sink state header n period = ⟨.error (.failed (.output cause)), here, left⟩ := by
  rw [trace_eq_playback hPeriod, hSchedule]
  exact playback_of_failure hTaken hFails

/-- A period that is reached has its place in the schedule. -/
theorem exists_schedule_of_reached {period n k : Nat} (hPeriod : 0 < period)
    (header : TraceHeader) {sim : Simulation file} (hBelow : k * period < n)
    (hReached : (run (k * period) sim).1 = .ok ()) :
    ∃ after, schedule header n period sim =
      scheduledBefore header period k sim ++ sampling (run (k * period) sim).2 :: after := by
  obtain ⟨others, hOthers⟩ : ∃ others, (n + period - 1) / period = k + 1 + others :=
    Nat.exists_eq_add_of_le ((lt_periods_iff hPeriod).mpr hBelow)
  have hFirst : (List.range (k + 1)).filter (fun i => (run (i * period) sim).1.isOk)
      = List.range (k + 1) := by
    rw [List.filter_eq_self]
    intro i hi
    rw [reached_before hReached (Nat.le_of_lt_succ (List.mem_range.mp hi))]
    rfl
  rw [schedule_eq hPeriod, hOthers, List.range_add, List.filter_append, hFirst, List.range_succ,
    List.map_append, List.map_append, List.map_singleton, scheduledBefore]
  simp only [List.cons_append, List.append_assoc]
  exact ⟨_, rfl⟩

/-- Every call of a schedule is made in a simulation that a completed run has reached. -/
theorem reached_of_mem_schedule {period n : Nat} (hPeriod : 0 < period) {header : TraceHeader}
    {sim : Simulation file} {entry : SinkCall × Simulation file}
    (h : entry ∈ schedule header n period sim) :
    ∃ m ≤ n, (run m sim).1 = .ok () ∧ entry.2 = (run m sim).2 := by
  rw [schedule_eq hPeriod, List.mem_append, List.mem_cons] at h
  obtain (rfl | hSample) | hEnd := h
  · exact ⟨0, Nat.zero_le n, rfl, rfl⟩
  · obtain ⟨k, hk, rfl⟩ := List.mem_map.mp hSample
    obtain ⟨hBegun, hReached⟩ := List.mem_filter.mp hk
    have hBelow : k * period < n := (lt_periods_iff hPeriod).mp (List.mem_range.mp hBegun)
    exact ⟨k * period, Nat.le_of_lt hBelow, eq_ok_of_isOk hReached, rfl⟩
  · unfold closing at hEnd
    split at hEnd
    · obtain rfl := List.mem_singleton.mp hEnd
      exact ⟨n, Nat.le_refl n, eq_ok_of_isOk ‹_›, rfl⟩
    · cases hEnd

/-- A playback that fails does so in the simulation of one of its calls. -/
theorem exists_call_of_failed {sink : Sink σ} {outcome : Except Halt Unit}
    {last : Simulation file} {calls : List (SinkCall × Simulation file)} {state : σ}
    {failure : Failure} (hOutcome : outcome ≠ .error (.failed failure))
    (h : (playback sink outcome last calls state).outcome = .error (.failed failure)) :
    ∃ entry ∈ calls, (playback sink outcome last calls state).simulation = entry.2 := by
  induction calls generalizing state with
  | nil => exact absurd h hOutcome
  | cons first rest ih =>
      obtain ⟨call, here⟩ := first
      unfold playback at h ⊢
      cases hCall : sink.call call state with
      | mk result after =>
          rw [hCall] at h
          cases result with
          | error cause => exact ⟨_, List.mem_cons_self, rfl⟩
          | ok =>
              obtain ⟨entry, hMem, hSimulation⟩ := ih h
              exact ⟨entry, List.mem_cons_of_mem _ hMem, hSimulation⟩

/-- Whichever call its sink does not take, a trace stops after a number of whole cycles, and
a run of the other cycles ends as a run of all of them. -/
theorem resumes_of_output_failed {sim : Simulation file} {sink : Sink σ} {state : σ}
    {header : TraceHeader} {n period : Nat} {cause : DeviceError}
    (h : (sim.trace sink state header n period).outcome = .error (.failed (.output cause))) :
    ∃ m ≤ n, (sim.trace sink state header n period).simulation = (run m sim).2 ∧
      run (n - m) (sim.trace sink state header n period).simulation = run n sim := by
  by_cases hZero : period = 0
  · rw [hZero, trace_zero_period] at h
    cases h
  · have hPeriod : 0 < period := Nat.pos_of_ne_zero hZero
    rw [trace_eq_playback hPeriod] at h ⊢
    have hRun : (run n sim).1.mapError Halt.violated ≠ .error (.failed (.output cause)) := by
      cases (run n sim).1 with
      | ok =>
          intro hFailed
          cases hFailed
      | error violation =>
          intro hFailed
          cases hFailed
    obtain ⟨entry, hMem, hSimulation⟩ := exists_call_of_failed hRun h
    obtain ⟨m, hLe, hReached, hEntry⟩ := reached_of_mem_schedule hPeriod hMem
    refine ⟨m, hLe, hSimulation.trans hEntry, ?_⟩
    rw [hSimulation, hEntry, run_of_run_add hReached, Nat.add_sub_cancel' hLe]

end Simulation

/-! ### Devices -/

/-- Anything that takes the bytes of texts. It takes all of them, or it fails and has taken
some of the first. Whether it is offered a text at once or piece by piece makes no
difference to that. -/
structure Device (σ : Type) where
  write : String → σ → Except DeviceError Unit × σ
  /-- The bytes taken so far. -/
  written : σ → ByteArray
  written_of_ok : ∀ {text : String} {state after : σ}, write text state = (.ok (), after) →
    written after = written state ++ text.toUTF8
  written_of_error : ∀ {text : String} {state after : σ} {cause : DeviceError},
    write text state = (.error cause, after) →
      ∃ taken missing, text.toUTF8 = taken ++ missing ∧
        written after = written state ++ taken

namespace Vcd

/-- The sink that writes the text of its calls on a device. A call is one write here, while
a dump is written line by line and flushed when it is closed. The device stands for both:
its `write` can take a text piece by piece and fail at any byte of it, or fail when it has
taken the whole text, as a flush does. Bytes held in a buffer count as taken. -/
def sinkOn (device : Device σ) : Sink σ where
  start header vars := device.write (headerText header vars)
  sample cycle values := device.write (sampleText cycle values)
  finish cycle := device.write (stamp cycle)

theorem sinkOn_call (device : Device σ) (call : SinkCall) (state : σ) :
    (sinkOn device).call call state = device.write (callText call) state := by
  cases call <;> rfl

/-- The bytes of the texts of calls. -/
def bytes : List SinkCall → ByteArray
  | [] => ByteArray.empty
  | call :: rest => (callText call).toUTF8 ++ bytes rest

end Vcd

/-- What calls leave on a device, whether it takes them all or fails, are the first of
their bytes. -/
theorem Device.written_feed (device : Device σ) (calls : List SinkCall) (state : σ) :
    ∃ missing, device.written ((Vcd.sinkOn device).feed calls state).2 ++ missing
      = device.written state ++ Vcd.bytes calls := by
  induction calls generalizing state with
  | nil => exact ⟨ByteArray.empty, rfl⟩
  | cons call rest ih =>
      simp only [Sink.feed, Vcd.sinkOn_call, Vcd.bytes]
      cases hWrite : device.write (Vcd.callText call) state with
      | mk result after =>
          cases result with
          | ok =>
              obtain ⟨missing, hWritten⟩ := ih after
              refine ⟨missing, ?_⟩
              rw [hWritten, device.written_of_ok hWrite, ByteArray.append_assoc]
          | error cause =>
              obtain ⟨taken, missing, hText, hWritten⟩ := device.written_of_error hWrite
              refine ⟨missing ++ Vcd.bytes rest, ?_⟩
              rw [hWritten, hText]
              simp only [ByteArray.append_assoc]

/-! ### Writers -/

theorem extract_of_size_le {bytes : ByteArray} {limit : Nat} (h : bytes.size ≤ limit) :
    bytes.extract 0 limit = bytes := by
  have hBeyond : bytes.extract bytes.size limit = ByteArray.empty := by
    rw [ByteArray.extract_eq_empty_iff]
    exact Nat.min_le_right limit bytes.size
  have hWhole : bytes.extract 0 bytes.size ++ bytes.extract bytes.size limit
      = bytes.extract 0 limit := by
    rw [ByteArray.extract_append_extract, Nat.zero_min, Nat.max_eq_right h]
  rw [← hWhole, hBeyond, ByteArray.append_empty, ByteArray.extract_zero_size]

/-- The first bytes of a row of bytes in two parts. -/
theorem extract_append_of_size_le {bytes others : ByteArray} {limit : Nat}
    (h : bytes.size ≤ limit) :
    (bytes ++ others).extract 0 limit = bytes ++ others.extract 0 (limit - bytes.size) := by
  rw [ByteArray.extract_append, extract_of_size_le h, Nat.zero_sub]

theorem extract_append_of_le_size {bytes others : ByteArray} {limit : Nat}
    (h : limit ≤ bytes.size) :
    (bytes ++ others).extract 0 limit = bytes.extract 0 limit := by
  rw [ByteArray.extract_append, Nat.zero_sub, Nat.sub_eq_zero_of_le h, ByteArray.extract_same,
    ByteArray.append_empty]

namespace Writer

theorem write_of_lt {held : ByteArray} {room : Nat} {text : String}
    (h : room < text.toUTF8.size) :
    write ⟨held, some room⟩ text
      = (.error .other, ⟨held ++ text.toUTF8.extract 0 room, some 0⟩) :=
  if_neg (Nat.not_le_of_lt h)

theorem written_of_ok {text : String} {writer after : Writer}
    (h : writer.write text = (.ok (), after)) :
    after.written = writer.written ++ text.toUTF8 := by
  obtain ⟨held, room⟩ := writer
  cases room with
  | none =>
      cases h
      rfl
  | some room =>
      by_cases hFits : text.toUTF8.size ≤ room
      · rw [write_of_le rfl hFits] at h
        cases h
        rfl
      · rw [write_of_lt (Nat.lt_of_not_le hFits)] at h
        cases h

theorem written_of_error {text : String} {writer after : Writer} {cause : DeviceError}
    (h : writer.write text = (.error cause, after)) :
    ∃ taken missing, text.toUTF8 = taken ++ missing ∧ after.written = writer.written ++ taken := by
  obtain ⟨held, room⟩ := writer
  cases room with
  | none => cases h
  | some room =>
      by_cases hFits : text.toUTF8.size ≤ room
      · rw [write_of_le rfl hFits] at h
        cases h
      · have hShort : room < text.toUTF8.size := Nat.lt_of_not_le hFits
        rw [write_of_lt hShort] at h
        cases h
        refine ⟨text.toUTF8.extract 0 room, text.toUTF8.extract room text.toUTF8.size, ?_, rfl⟩
        rw [ByteArray.extract_append_extract, Nat.zero_min, Nat.max_eq_right (Nat.le_of_lt hShort),
          ByteArray.extract_zero_size]

/-- Writers are devices. -/
def device : Device Writer where
  write text writer := writer.write text
  written := Writer.written
  written_of_ok := written_of_ok
  written_of_error := written_of_error

end Writer

/-- The dumps of the program are those on writers. -/
theorem Vcd.sink_eq_sinkOn : Vcd.sink = Vcd.sinkOn Writer.device := rfl

/-- A writer without a bound takes the bytes of all calls. -/
theorem Vcd.feed_unbounded (calls : List SinkCall) (held : ByteArray) :
    Vcd.sink.feed calls ⟨held, none⟩ = (.ok (), ⟨held ++ Vcd.bytes calls, none⟩) := by
  induction calls generalizing held with
  | nil =>
      rw [Vcd.bytes, ByteArray.append_empty]
      rfl
  | cons call rest ih =>
      rw [Sink.feed, Vcd.sink_call, Writer.write_of_unbounded rfl]
      rw [Vcd.bytes, ← ByteArray.append_assoc]
      exact ih (held ++ (Vcd.callText call).toUTF8)

/-- A writer with room for a number of bytes takes the first of the bytes of calls, as many
as it has room for. -/
theorem Vcd.written_feed_room (calls : List SinkCall) (held : ByteArray) (room : Nat) :
    (Vcd.sink.feed calls ⟨held, some room⟩).2.written
      = held ++ (Vcd.bytes calls).extract 0 room := by
  induction calls generalizing held room with
  | nil =>
      rw [Vcd.bytes, extract_of_size_le (Nat.zero_le room), ByteArray.append_empty]
      rfl
  | cons call rest ih =>
      rw [Sink.feed, Vcd.sink_call, Vcd.bytes]
      by_cases hFits : (Vcd.callText call).toUTF8.size ≤ room
      · rw [Writer.write_of_le rfl hFits, extract_append_of_size_le hFits,
          ← ByteArray.append_assoc]
        exact ih (held ++ (Vcd.callText call).toUTF8) (room - (Vcd.callText call).toUTF8.size)
      · have hShort : room < (Vcd.callText call).toUTF8.size := Nat.lt_of_not_le hFits
        rw [Writer.write_of_lt hShort, extract_append_of_le_size (Nat.le_of_lt hShort)]

namespace Simulation

/-- A trace leaves its sink as its calls leave it. -/
theorem playback_sink (sink : Sink σ) (outcome : Except Halt Unit) (last : Simulation file)
    (calls : List (SinkCall × Simulation file)) (state : σ) :
    (playback sink outcome last calls state).sink = (sink.feed (calls.map Prod.fst) state).2 := by
  induction calls generalizing state with
  | nil => rfl
  | cons first rest ih =>
      obtain ⟨call, sim⟩ := first
      simp only [playback, List.map_cons, Sink.feed]
      cases sink.call call state with
      | mk result after =>
          cases result with
          | ok => exact ih after
          | error cause => rfl

theorem trace_sink {period : Nat} (hPeriod : 0 < period) (sim : Simulation file) (sink : Sink σ)
    (state : σ) (header : TraceHeader) (n : Nat) :
    (sim.trace sink state header n period).sink
      = (sink.feed ((schedule header n period sim).map Prod.fst) state).2 := by
  rw [trace_eq_playback hPeriod, playback_sink]

/-- A dump on a device holds the first bytes of the dump without a bound. -/
theorem written_trace_sinkOn {period : Nat} (hPeriod : 0 < period) (sim : Simulation file)
    (device : Device σ) (state : σ) (header : TraceHeader) (n : Nat) :
    ∃ missing,
      device.written (sim.trace (Vcd.sinkOn device) state header n period).sink ++ missing
        = device.written state ++
            (sim.trace Vcd.sink Writer.unbounded header n period).sink.written := by
  rw [trace_sink hPeriod, trace_sink hPeriod, Writer.unbounded, Vcd.feed_unbounded,
    ByteArray.empty_append]
  exact device.written_feed ((schedule header n period sim).map Prod.fst) state

theorem written_trace_bounded {period : Nat} (hPeriod : 0 < period) (sim : Simulation file)
    (header : TraceHeader) (n limit : Nat) :
    (sim.trace Vcd.sink (Writer.bounded limit) header n period).sink.written
      = (sim.trace Vcd.sink Writer.unbounded header n period).sink.written.extract 0 limit := by
  rw [trace_sink hPeriod, trace_sink hPeriod, Writer.unbounded, Vcd.feed_unbounded,
    Writer.bounded, Vcd.written_feed_room, ByteArray.empty_append, ByteArray.empty_append]

/-- A trace with a period of zero cycles is refused, with nothing said and nothing run. Any
other trace ends at the first call that its sink does not take: with the error of that
call, with the sink as that call has left it, and with the simulation of a number of whole
cycles. These are none when the start fails, `k * period` when the sample of period `k`
fails, and all of them when the end fails, and a run of the other cycles ends as a run of
all would have. What a dump has then put on a device are the first bytes of the dump without
a bound, and a writer with room for `limit` bytes has the first `limit` of them. -/
theorem trace_interrupted (sim : Simulation file) (sink : Sink σ) (state : σ)
    (device : Device τ) (held : τ) (header : TraceHeader) (n : Nat) :
    sim.trace sink state header n 0 = ⟨.error (.failed .zeroTracePeriod), sim, state⟩ ∧
      ∀ period, 0 < period →
        (∀ cause left, sink.start header (tracedRegisters file) state = (.error cause, left) →
          sim.trace sink state header n period =
            ⟨.error (.failed (.output cause)), (run 0 sim).2, left⟩) ∧
        (∀ k cause taken left, k * period < n → (run (k * period) sim).1 = .ok () →
          sink.feed (toldBefore header period k sim) state = (.ok (), taken) →
          sink.sample (sim.cycle + k * period)
            (sampledValues (run (k * period) sim).2.state) taken = (.error cause, left) →
          sim.trace sink state header n period =
              ⟨.error (.failed (.output cause)), (run (k * period) sim).2, left⟩ ∧
            run (n - k * period) (run (k * period) sim).2 = run n sim) ∧
        (∀ cause taken left, (run n sim).1 = .ok () →
          sink.feed (toldBefore header period ((n + period - 1) / period) sim) state
            = (.ok (), taken) →
          sink.finish (sim.cycle + n) taken = (.error cause, left) →
          sim.trace sink state header n period =
            ⟨.error (.failed (.output cause)), (run n sim).2, left⟩) ∧
        (∃ missing,
          device.written (sim.trace (Vcd.sinkOn device) held header n period).sink ++ missing
            = device.written held ++
                (sim.trace Vcd.sink Writer.unbounded header n period).sink.written) ∧
        ∀ limit,
          (sim.trace Vcd.sink (Writer.bounded limit) header n period).sink.written
            = (sim.trace Vcd.sink Writer.unbounded header n period).sink.written.extract 0
                limit := by
  refine ⟨sim.trace_zero_period sink state header n, fun period hPeriod => ⟨?_, ?_, ?_, ?_, ?_⟩⟩
  · intro cause left hFails
    exact trace_of_failure hPeriod (List.nil_append _).symm rfl hFails
  · intro k cause taken left hBelow hReached hTaken hFails
    obtain ⟨after, hSchedule⟩ := exists_schedule_of_reached hPeriod header hBelow hReached
    have hBefore : ∀ i < k, (run (i * period) sim).1 = .ok () := by
      intro i hi
      exact reached_before hReached (Nat.le_of_lt hi)
    rw [← map_fst_scheduledBefore header hBefore] at hTaken
    rw [← tracedValues_eq, ← cycle_run hReached] at hFails
    refine ⟨trace_of_failure hPeriod hSchedule hTaken hFails, ?_⟩
    rw [run_of_run_add hReached, Nat.add_sub_cancel' (Nat.le_of_lt hBelow)]
  · intro cause taken left hRun hTaken hFails
    have hBefore : ∀ i < (n + period - 1) / period, (run (i * period) sim).1 = .ok () := by
      intro i hi
      exact reached_of_completed hPeriod hRun hi
    rw [← map_fst_scheduledBefore header hBefore] at hTaken
    exact trace_of_failure hPeriod (schedule_of_completed hPeriod header hRun) hTaken hFails
  · exact written_trace_sinkOn hPeriod sim device held header n
  · exact written_trace_bounded hPeriod sim header n

end Simulation

end Interruptions

/-- The sink that takes a number of calls and fails from then on. It remembers all calls
that are made, the newest first. -/
def Sink.patient : Sink (Nat × List SinkCall) where
  start header vars := meet (.start header vars)
  sample cycle values := meet (.sample cycle values)
  finish cycle := meet (.finish cycle)
where
  /-- Takes a call while there is patience left. -/
  meet (call : SinkCall) : Nat × List SinkCall → Except DeviceError Unit × (Nat × List SinkCall)
    | (0, calls) => (.error .other, (0, call :: calls))
    | (left + 1, calls) => (.ok (), (left, call :: calls))

namespace Toggle

/-- The sample of the flag, for a cycle with a given number. -/
def sampleOf (cycle : Nat) (flag : String) : SinkCall := .sample cycle [⟨"flag", 1, flag⟩]

/-- Three cycles with a sample in every second one are four calls. The start fails, or the
second sample, or the end. A dump to a writer of 152 bytes stops in the middle of the second
sample. -/
theorem trace_interrupted_toggle :
    let header := TraceHeader.ofTimescale "1 ps"
    let declared : SinkCall := .start header [⟨"flag", 1⟩]
    let sim := Simulation.ofRules rules
    let short := (sim.trace Vcd.sink (Writer.bounded 152) header 3 2).sink.written
    sim.trace Sink.patient (0, []) header 3 0 =
        ⟨.error (.failed .zeroTracePeriod), sim, (0, [])⟩ ∧
      sim.trace Sink.patient (0, []) header 3 2 =
        ⟨.error (.failed (.output .other)), (Simulation.run 0 sim).2, (0, [declared])⟩ ∧
      (sim.trace Sink.patient (2, []) header 3 2 =
          ⟨.error (.failed (.output .other)), (Simulation.run 2 sim).2,
            (0, [sampleOf 2 "1", sampleOf 0 "0", declared])⟩ ∧
        Simulation.run 1 (Simulation.run 2 sim).2 = Simulation.run 3 sim) ∧
      sim.trace Sink.patient (3, []) header 3 2 =
        ⟨.error (.failed (.output .other)), (Simulation.run 3 sim).2,
          (0, [.finish 3, sampleOf 2 "1", sampleOf 0 "0", declared])⟩ ∧
      short = (sim.trace Vcd.sink Writer.unbounded header 3 2).sink.written.extract 0 152 ∧
      short =
        ("$version rulesim 0.1.0 $end\n$timescale 1 ps $end\n$scope module top $end\n" ++
          "$var reg 1 flag flag $end\n$upscope $end\n$enddefinitions $end\n" ++
          "#0\nb0 flag\n#2\nb1 fl").toUTF8 := by
  have hOf (patience : Nat) := Simulation.trace_interrupted (Simulation.ofRules rules)
    Sink.patient (patience, []) Writer.device Writer.unbounded (TraceHeader.ofTimescale "1 ps") 3
  obtain ⟨hZero, hImpatient⟩ := hOf 0
  obtain ⟨hStart, -, -, -, hBounded⟩ := hImpatient 2 (by decide)
  obtain ⟨-, hSample, -⟩ := (hOf 2).2 2 (by decide)
  obtain ⟨-, -, hFinish, -⟩ := (hOf 3).2 2 (by decide)
  refine ⟨hZero, hStart _ _ rfl, ?_, hFinish _ _ _ rfl rfl rfl, hBounded 152, ?_⟩
  · exact hSample 1 _ _ _ (by decide) rfl rfl rfl
  · apply ByteArray.ext
    apply Array.ext'
    decide +kernel

end Toggle

end AtomicRules
