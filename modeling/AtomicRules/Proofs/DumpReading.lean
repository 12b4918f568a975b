import AtomicRules.Design.Toggle
import AtomicRules.Proofs.Interruptions

/-!
# Reading a dump

Below its header a dump is lines, and the first character of a line says what it is: a
number sign stands in front of a cycle number, a `b` in front of the digits of a value. The
digits end at a space, and neither they nor a name hold a line break. So the lines can be
read back, from the last to the first: a stamp takes all values that were read since the
stamp below it.

The reading gives the samples of the trace and its end, whatever the registers are. So
dumps of one text with one header come from traces that sampled the same. The header is set
apart, because its version and timescale are free texts, and these can hold line breaks and
number signs.

## Main results

* `Vcd.read_body` — reading gives back what was written.
* `Simulation.pairwise_stamps` — the stamps of a trace, with its end, are strictly increasing.
* `Simulation.dump_determines_samples` — equal dumps come from equal samples.
-/

namespace AtomicRules

section DumpReading

variable {file : RegisterFile} {σ τ : Type}

/-! ### The reader -/

namespace Vcd

/-- A stamp with the values below it, each by its digits and its name. -/
structure Record where
  cycle : Nat
  values : List (List Char × List Char)
  deriving DecidableEq, Repr

/-- The digits and the name in the line of a value. -/
def readValue (line : List Char) : List Char × List Char :=
  (line.takeWhile (· ≠ ' '), (line.dropWhile (· ≠ ' ')).tail)

/-- Reads one more line in front of others. Of these, the values above the first stamp and
the records from there on are known. -/
def readLine (line : List Char) (below : List (List Char × List Char) × List Record) :
    List (List Char × List Char) × List Record :=
  match line with
  | '#' :: digits => ([], ⟨Nat.ofDigitChars 10 digits 0, below.1⟩ :: below.2)
  | 'b' :: value => (readValue value :: below.1, below.2)
  | _ => below

/-- Reads all lines of a text. -/
def readLines (text : List Char) : List (List Char × List Char) × List Record :=
  (text.splitOn '\n').foldr readLine ([], [])

/-- The records of a dump, given the text below its header. -/
def read (text : String) : List Record := (readLines text.toList).2

/-! ### Reading what was written -/

theorem readLines_cons {line : List Char} (h : '\n' ∉ line) (rest : List Char) :
    readLines (line ++ '\n' :: rest) = readLine line (readLines rest) := by
  rw [readLines, List.splitOn_append_cons_self_of_not_mem h]
  rfl

theorem newline_not_mem_decimal (n : Nat) : '\n' ∉ decimal n := by
  intro h
  have hDigit : '\n'.isDigit = true := Nat.isDigit_of_mem_toDigits (by decide) (by decide) h
  exact absurd hDigit (by decide)

theorem readLines_stamp (cycle : Nat) (rest : List Char) :
    readLines ((stamp cycle).toList ++ rest) =
      ([], ⟨cycle, (readLines rest).1⟩ :: (readLines rest).2) := by
  have hText : (stamp cycle).toList ++ rest = ('#' :: decimal cycle) ++ '\n' :: rest := by
    simp [stamp]
  have hLine : '\n' ∉ '#' :: decimal cycle := by
    simp [newline_not_mem_decimal]
  rw [hText, readLines_cons hLine, readLine, decimal,
    Nat.ofDigitChars_toDigits (by decide) (by decide)]

/-- The line of a value can be read when its digits end at the first space and the line at
the first line break. -/
structure Readable (value : TracedValue) : Prop where
  space_not_mem_bits : ' ' ∉ value.bits.toList
  newline_not_mem_bits : '\n' ∉ value.bits.toList
  newline_not_mem_name : '\n' ∉ value.name.toList

theorem readValue_append {digits : List Char} (h : ' ' ∉ digits) (name : List Char) :
    readValue (digits ++ ' ' :: name) = (digits, name) := by
  have hDigits : ∀ c ∈ digits, (c ≠ ' ' : Bool) = true := by
    intro c hc
    rw [decide_eq_true_iff]
    rintro rfl
    exact h hc
  rw [readValue, List.takeWhile_append_of_pos hDigits, List.dropWhile_append_of_pos hDigits]
  simp

theorem readLines_valueLine {value : TracedValue} (h : Readable value) (rest : List Char) :
    readLines ((valueLine value).toList ++ rest) =
      ((value.bits.toList, value.name.toList) :: (readLines rest).1, (readLines rest).2) := by
  have hText : (valueLine value).toList ++ rest
      = ('b' :: (value.bits.toList ++ ' ' :: value.name.toList)) ++ '\n' :: rest := by
    simp [valueLine]
  have hLine : '\n' ∉ 'b' :: (value.bits.toList ++ ' ' :: value.name.toList) := by
    simp [h.newline_not_mem_bits, h.newline_not_mem_name]
  rw [hText, readLines_cons hLine, readLine, readValue_append h.space_not_mem_bits]

theorem readLines_valueLines {values : List TracedValue} (h : ∀ value ∈ values, Readable value)
    (rest : List Char) :
    readLines ((String.join (values.map valueLine)).toList ++ rest) =
      (values.map (fun value => (value.bits.toList, value.name.toList)) ++ (readLines rest).1,
        (readLines rest).2) := by
  induction values with
  | nil => rfl
  | cons value others ih =>
      obtain ⟨hFirst, hOthers⟩ := List.forall_mem_cons.mp h
      rw [List.map_cons, String.join_cons, String.toList_append, List.append_assoc,
        readLines_valueLine hFirst, ih hOthers]
      rfl

/-- What reading gives of a sample: the values of registers with bits. -/
def recordOf (sample : Nat × List TracedValue) : Record :=
  ⟨sample.1, (sample.2.filter (0 < ·.width)).map fun value =>
    (value.bits.toList, value.name.toList)⟩

/-- The text of samples, one after the other. -/
def body (samples : List (Nat × List TracedValue)) : String :=
  String.join (samples.map fun sample => sampleText sample.1 sample.2)

theorem readLines_body {samples : List (Nat × List TracedValue)}
    (h : ∀ sample ∈ samples, ∀ value ∈ sample.2, Readable value) :
    readLines (body samples).toList = ([], samples.map recordOf) := by
  induction samples with
  | nil => rfl
  | cons sample others ih =>
      obtain ⟨hFirst, hOthers⟩ := List.forall_mem_cons.mp h
      have hTraced : ∀ value ∈ sample.2.filter (0 < ·.width), Readable value := by
        intro value hValue
        exact hFirst value (List.mem_filter.mp hValue).1
      have hRest : readLines (String.join
          (others.map fun sample => sampleText sample.1 sample.2)).toList
            = ([], others.map recordOf) := ih hOthers
      rw [body, List.map_cons, String.join_cons, String.toList_append, sampleText,
        String.toList_append, List.append_assoc, readLines_stamp, readLines_valueLines hTraced,
        hRest, List.append_nil]
      rfl

/-- Reading the text of samples gives the samples. -/
theorem read_body {samples : List (Nat × List TracedValue)}
    (h : ∀ sample ∈ samples, ∀ value ∈ sample.2, Readable value) :
    read (body samples) = samples.map recordOf := by
  rw [read, readLines_body h]

example :
    let values : List TracedValue := [⟨"flag", 1, "1"⟩, ⟨"none", 0, ""⟩, ⟨"count", 4, "0110"⟩]
    body [(0, values), (1, [])] = "#0\nb1 flag\nb0110 count\n#1\n" ∧
      read "#0\nb1 flag\nb0110 count\n#1\n" =
        [⟨0, [("1".toList, "flag".toList), ("0110".toList, "count".toList)]⟩, ⟨1, []⟩] := by
  decide +kernel

/-! ### The bytes of a dump -/

theorem bytes_eq_join (calls : List SinkCall) :
    bytes calls = (String.join (calls.map callText)).toUTF8 := by
  induction calls with
  | nil => rfl
  | cons call rest ih =>
      rw [bytes, ih, List.map_cons, String.join_cons]
      exact String.toByteArray_append.symm

/-- A stamp is a sample without values. -/
theorem stamp_eq_sampleText (cycle : Nat) : stamp cycle = sampleText cycle [] :=
  String.append_empty.symm

end Vcd

namespace Simulation

/-- The simulations in which a trace samples, in their order: one for every period that the
run reaches. -/
def sampledIn (n period : Nat) (sim : Simulation file) : List (Simulation file) :=
  ((List.range ((n + period - 1) / period)).filter fun k => (run (k * period) sim).1.isOk).map
    fun k => (run (k * period) sim).2

/-- The cycle that closes a trace, unless a violation has ended it. -/
def closedAt (n : Nat) (sim : Simulation file) : List Nat :=
  if (run n sim).1.isOk then [sim.cycle + n] else []

/-- What a dump says below its header: the samples, and a stamp without values as its end. -/
def dumped (n period : Nat) (sim : Simulation file) : List (Nat × List TracedValue) :=
  (sampledIn n period sim).map (fun here => (here.cycle, here.tracedValues)) ++
    (closedAt n sim).map fun cycle => (cycle, [])

theorem schedule_eq_sampledIn {period : Nat} (hPeriod : 0 < period) (header : TraceHeader)
    (n : Nat) (sim : Simulation file) :
    schedule header n period sim =
      (.start header (tracedRegisters file), sim) :: (sampledIn n period sim).map sampling ++
        closing n sim := by
  rw [schedule_eq hPeriod, sampledIn, List.map_map]
  rfl

theorem map_callText_closing (n : Nat) (sim : Simulation file) :
    ((closing n sim).map Prod.fst).map Vcd.callText =
      ((closedAt n sim).map fun cycle => (cycle, [])).map
        fun sample => Vcd.sampleText sample.1 sample.2 := by
  unfold closing closedAt
  split
  · rw [cycle_run (eq_ok_of_isOk ‹_›)]
    exact congrArg (fun text => [text]) (Vcd.stamp_eq_sampleText _)
  · rfl

/-- The bytes of a dump: its header and below it the samples and the end. -/
theorem bytes_schedule {period : Nat} (hPeriod : 0 < period) (header : TraceHeader) (n : Nat)
    (sim : Simulation file) :
    Vcd.bytes ((schedule header n period sim).map Prod.fst) =
      (Vcd.headerText header (tracedRegisters file) ++ Vcd.body (dumped n period sim)).toUTF8 := by
  have hSamples : (((sampledIn n period sim).map sampling).map Prod.fst).map Vcd.callText
      = ((sampledIn n period sim).map fun here => (here.cycle, here.tracedValues)).map
          fun sample => Vcd.sampleText sample.1 sample.2 := by
    rw [List.map_map, List.map_map, List.map_map]
    rfl
  rw [Vcd.bytes_eq_join, schedule_eq_sampledIn hPeriod, List.cons_append, List.map_cons,
    List.map_cons, String.join_cons, List.map_append, List.map_append, hSamples,
    map_callText_closing, Vcd.body, dumped, List.map_append]
  rfl

/-! ### Dumps on devices -/

/-- A sink of which no call has failed has taken them all. -/
theorem feed_of_not_failed {sink : Sink σ} {outcome : Except Halt Unit} {last : Simulation file}
    {calls : List (SinkCall × Simulation file)} {state : σ}
    (h : ∀ cause,
      (playback sink outcome last calls state).outcome ≠ .error (.failed (.output cause))) :
    (sink.feed (calls.map Prod.fst) state).1 = .ok () := by
  induction calls generalizing state with
  | nil => rfl
  | cons first rest ih =>
      obtain ⟨call, here⟩ := first
      simp only [playback, List.map_cons, Sink.feed] at h ⊢
      cases hCall : sink.call call state with
      | mk result after =>
          rw [hCall] at h
          cases result with
          | ok => exact ih h
          | error cause => exact absurd rfl (h cause)

end Simulation

/-- A device that takes all calls has their bytes. -/
theorem Device.written_feed_of_ok (device : Device σ) {calls : List SinkCall} {state : σ}
    (h : ((Vcd.sinkOn device).feed calls state).1 = .ok ()) :
    device.written ((Vcd.sinkOn device).feed calls state).2
      = device.written state ++ Vcd.bytes calls := by
  induction calls generalizing state with
  | nil => exact ByteArray.append_empty.symm
  | cons call rest ih =>
      simp only [Sink.feed, Vcd.sinkOn_call, Vcd.bytes] at h ⊢
      cases hWrite : device.write (Vcd.callText call) state with
      | mk result after =>
          rw [hWrite] at h
          cases result with
          | ok =>
              rw [← ByteArray.append_assoc, ← device.written_of_ok hWrite]
              exact ih h
          | error cause => cases h

namespace Simulation

/-- Unless the device has failed, all of a dump is on it. -/
theorem written_of_not_failed {sim : Simulation file} {device : Device σ} {held : σ}
    {header : TraceHeader} {n period : Nat} (hPeriod : 0 < period)
    (h : ∀ cause, (sim.trace (Vcd.sinkOn device) held header n period).outcome
      ≠ .error (.failed (.output cause))) :
    device.written (sim.trace (Vcd.sinkOn device) held header n period).sink =
      device.written held ++
        (Vcd.headerText header (tracedRegisters file) ++
          Vcd.body (dumped n period sim)).toUTF8 := by
  rw [trace_eq_playback hPeriod] at h
  rw [trace_sink hPeriod, device.written_feed_of_ok (feed_of_not_failed h),
    bytes_schedule hPeriod]

theorem not_failed_of_ok {outcome : Except Halt Unit} (h : outcome = .ok ())
    (cause : DeviceError) : outcome ≠ .error (.failed (.output cause)) := by
  rw [h]
  intro hFailed
  cases hFailed

/-- A trace that is completed has a period and has run all its cycles. -/
theorem run_of_trace_ok {sim : Simulation file} {sink : Sink σ} {state : σ}
    {header : TraceHeader} {n period : Nat}
    (h : (sim.trace sink state header n period).outcome = .ok ()) :
    0 < period ∧ (run n sim).1 = .ok () := by
  have hPeriod : 0 < period := by
    apply Nat.pos_of_ne_zero
    rintro rfl
    rw [trace_zero_period] at h
    cases h
  refine ⟨hPeriod, ?_⟩
  rw [trace_eq_playback hPeriod] at h
  have hFeed := feed_of_not_failed (not_failed_of_ok h)
  rw [playback_of_feed (Prod.ext hFeed rfl)] at h
  cases hRun : (run n sim).1 with
  | ok => rfl
  | error violation =>
      rw [hRun] at h
      cases h

/-! ### What is read in a dump -/

theorem readable_of_mem_tracedValues {sim : Simulation file} {value : TracedValue}
    (h : value ∈ sim.tracedValues) : Vcd.Readable value := by
  rw [tracedValues, Row.toList_eq_map] at h
  obtain ⟨reg, -, rfl⟩ := List.mem_map.mp h
  have hOnly {c : Char} (hc : c ≠ '0' ∧ c ≠ '1') :
      c ∉ ((file.decl reg).ty.pack (sim.log.state.get reg)).binString.toList := by
    intro hMem
    rw [Bits.binString, String.toList_ofList] at hMem
    obtain hZero | hOne := Bits.eq_of_mem_binDigits hMem
    · exact hc.1 hZero
    · exact hc.2 hOne
  exact ⟨hOnly (by decide), hOnly (by decide), (file.decl reg).name.newline_not_mem⟩

/-- What is read in a dump, whatever the registers are. -/
theorem read_dumped (n period : Nat) (sim : Simulation file) :
    Vcd.read (Vcd.body (dumped n period sim)) = (dumped n period sim).map Vcd.recordOf := by
  apply Vcd.read_body
  intro sample hSample value hValue
  rw [dumped, List.mem_append] at hSample
  obtain hSample | hEnd := hSample
  · obtain ⟨here, -, rfl⟩ := List.mem_map.mp hSample
    exact readable_of_mem_tracedValues hValue
  · obtain ⟨cycle, -, rfl⟩ := List.mem_map.mp hEnd
    cases hValue

theorem map_cycle_read_dumped (n period : Nat) (sim : Simulation file) :
    (Vcd.read (Vcd.body (dumped n period sim))).map Vcd.Record.cycle =
      (sampledIn n period sim).map Simulation.cycle ++ closedAt n sim := by
  have hClosing : ((closedAt n sim).map fun cycle => (cycle, [])).map
      (Vcd.Record.cycle ∘ Vcd.recordOf) = closedAt n sim := by
    rw [List.map_map]
    exact List.map_id _
  rw [read_dumped, List.map_map, dumped, List.map_append, hClosing, List.map_map]
  rfl

/-! ### The order of the stamps -/

theorem map_cycle_sampledIn (n period : Nat) (sim : Simulation file) :
    (sampledIn n period sim).map Simulation.cycle =
      ((List.range ((n + period - 1) / period)).filter fun k => (run (k * period) sim).1.isOk).map
        fun k => sim.cycle + k * period := by
  rw [sampledIn, List.map_map]
  apply List.map_congr_left
  intro k hk
  exact cycle_run (eq_ok_of_isOk (List.mem_filter.mp hk).2)

/-- From stamp to stamp the cycles go up: a period has a cycle at least, and every sample
is made before the last cycle is run. -/
theorem pairwise_stamps {period : Nat} (hPeriod : 0 < period) (n : Nat)
    (sim : Simulation file) :
    ((sampledIn n period sim).map Simulation.cycle ++ closedAt n sim).Pairwise (· < ·) := by
  rw [map_cycle_sampledIn, List.pairwise_append]
  refine ⟨?_, ?_, ?_⟩
  · have hLater {k l : Nat} (h : k < l) : sim.cycle + k * period < sim.cycle + l * period :=
      Nat.add_lt_add_left (Nat.mul_lt_mul_of_pos_right h hPeriod) sim.cycle
    rw [List.pairwise_map]
    exact (List.pairwise_lt_range.imp hLater).filter _
  · unfold closedAt
    split
    · exact List.pairwise_singleton _ _
    · exact List.Pairwise.nil
  · intro sampled hSampled closed hClosed
    obtain ⟨k, hk, rfl⟩ := List.mem_map.mp hSampled
    have hBelow : k * period < n :=
      (lt_periods_iff hPeriod).mp (List.mem_range.mp (List.mem_filter.mp hk).1)
    unfold closedAt at hClosed
    split at hClosed
    · obtain rfl := List.mem_singleton.mp hClosed
      exact Nat.add_lt_add_left hBelow sim.cycle
    · cases hClosed

/-! ### Samples from dumps -/

/-- Lists with the same images have the same images under a function that tells no more
apart. -/
theorem map_eq_map_of_factors {α β γ : Type} {f : α → β} {g : α → γ}
    (h : ∀ a b, f a = f b → g a = g b) {xs ys : List α} (hMap : xs.map f = ys.map f) :
    xs.map g = ys.map g := by
  induction xs generalizing ys with
  | nil =>
      obtain rfl := List.map_eq_nil_iff.mp hMap.symm
      rfl
  | cons x xs ih =>
      cases ys with
      | nil => cases hMap
      | cons y ys =>
          obtain ⟨hFirst, hOthers⟩ := List.cons.inj hMap
          rw [List.map_cons, List.map_cons, h x y hFirst, ih hOthers]

/-- A record has the digits of all registers with bits, in declaration order. -/
theorem values_recordOf (sim : Simulation file) :
    (Vcd.recordOf (sim.cycle, sim.tracedValues)).values =
      (file.regs.filter fun reg => 0 < (file.decl reg).ty.width).map fun reg =>
        (((file.decl reg).ty.pack (sim.state.get reg)).binDigits, (file.decl reg).name.chars) := by
  rw [Vcd.recordOf, tracedValues, Row.toList_eq_map, List.filter_map, List.map_map]
  apply List.map_congr_left
  intro reg _
  rw [Function.comp_apply, Bits.binString, String.toList_ofList]
  rfl

theorem packed_eq_of_recordOf_eq {a b : Simulation file}
    (h : Vcd.recordOf (a.cycle, a.tracedValues) = Vcd.recordOf (b.cycle, b.tracedValues))
    {reg : file.Reg} (hWide : 0 < (file.decl reg).ty.width) :
    (file.decl reg).ty.pack (a.state.get reg) = (file.decl reg).ty.pack (b.state.get reg) := by
  have hValues := congrArg Vcd.Record.values h
  rw [values_recordOf, values_recordOf, List.map_inj_left] at hValues
  have hReg := hValues reg (List.mem_filter.mpr ⟨List.mem_finRange reg, decide_eq_true hWide⟩)
  exact Bits.binDigits_inj (congrArg Prod.fst hReg)

/-- Of two traces that are both completed, or both ended by a violation, the texts below the
headers differ unless both have sampled the same. -/
theorem samples_of_body_eq {sim₁ sim₂ : Simulation file} {n₁ n₂ period₁ period₂ : Nat}
    (hEnds : (run n₁ sim₁).1.isOk = (run n₂ sim₂).1.isOk)
    (hText : Vcd.body (dumped n₁ period₁ sim₁) = Vcd.body (dumped n₂ period₂ sim₂)) :
    (sampledIn n₁ period₁ sim₁).map Simulation.cycle
        = (sampledIn n₂ period₂ sim₂).map Simulation.cycle ∧
      closedAt n₁ sim₁ = closedAt n₂ sim₂ ∧
      ∀ reg, 0 < (file.decl reg).ty.width →
        (sampledIn n₁ period₁ sim₁).map (fun here => (file.decl reg).ty.pack (here.state.get reg))
          = (sampledIn n₂ period₂ sim₂).map fun here =>
              (file.decl reg).ty.pack (here.state.get reg) := by
  have hRecords := congrArg Vcd.read hText
  rw [read_dumped, read_dumped, dumped, dumped, List.map_append, List.map_append] at hRecords
  have hLengths : (((closedAt n₁ sim₁).map fun cycle => (cycle, [])).map Vcd.recordOf).length
      = (((closedAt n₂ sim₂).map fun cycle => (cycle, [])).map Vcd.recordOf).length := by
    simp only [List.length_map, closedAt, hEnds]
    split <;> rfl
  obtain ⟨hSamples, hClosings⟩ := List.append_inj' hRecords hLengths
  rw [List.map_map, List.map_map] at hSamples
  refine ⟨?_, ?_, ?_⟩
  · apply map_eq_map_of_factors _ hSamples
    intro a b hRecord
    exact congrArg Vcd.Record.cycle hRecord
  · rw [List.map_map, List.map_map] at hClosings
    apply (List.map_inj_right _).mp hClosings
    intro a b hRecord
    exact congrArg Vcd.Record.cycle hRecord
  · intro reg hWide
    apply map_eq_map_of_factors _ hSamples
    intro a b hRecord
    exact packed_eq_of_recordOf_eq hRecord hWide

/-- Two completed traces with one header, from whatever simulations, over any numbers of
cycles and with any periods, have different dumps unless they have sampled the same: in the
same cycles, with the same bits of every register that has bits, and with the same cycle at
the end. In the dump of any trace the stamps are the cycles sampled and the cycle at the end,
which only a violation keeps away, and each is greater than those before it. A device that
has failed holds the first bytes of such a dump. -/
theorem dump_determines_samples (header : TraceHeader) (device₁ : Device σ) (device₂ : Device τ)
    (held₁ : σ) (held₂ : τ) (hHeld : device₁.written held₁ = device₂.written held₂) :
    (∀ (sim₁ sim₂ : Simulation file) (n₁ n₂ period₁ period₂ : Nat),
      (sim₁.trace (Vcd.sinkOn device₁) held₁ header n₁ period₁).outcome = .ok () →
      (sim₂.trace (Vcd.sinkOn device₂) held₂ header n₂ period₂).outcome = .ok () →
      device₁.written (sim₁.trace (Vcd.sinkOn device₁) held₁ header n₁ period₁).sink
          = device₂.written (sim₂.trace (Vcd.sinkOn device₂) held₂ header n₂ period₂).sink →
        (sampledIn n₁ period₁ sim₁).map Simulation.cycle
            = (sampledIn n₂ period₂ sim₂).map Simulation.cycle ∧
          sim₁.cycle + n₁ = sim₂.cycle + n₂ ∧
          ∀ reg, 0 < (file.decl reg).ty.width →
            (sampledIn n₁ period₁ sim₁).map
                (fun here => (file.decl reg).ty.pack (here.state.get reg))
              = (sampledIn n₂ period₂ sim₂).map
                fun here => (file.decl reg).ty.pack (here.state.get reg)) ∧
      ∀ (sim : Simulation file) (n period : Nat), 0 < period →
        ∃ body missing,
          device₁.written (sim.trace (Vcd.sinkOn device₁) held₁ header n period).sink ++ missing
              = device₁.written held₁ ++
                  (Vcd.headerText header (tracedRegisters file) ++ body).toUTF8 ∧
            ((∀ cause, (sim.trace (Vcd.sinkOn device₁) held₁ header n period).outcome
              ≠ .error (.failed (.output cause))) → missing = ByteArray.empty) ∧
            (Vcd.read body).map Vcd.Record.cycle
              = (sampledIn n period sim).map Simulation.cycle ++ closedAt n sim ∧
            ((Vcd.read body).map Vcd.Record.cycle).Pairwise (· < ·) := by
  refine ⟨?_, ?_⟩
  · intro sim₁ sim₂ n₁ n₂ period₁ period₂ hOutcome₁ hOutcome₂ hDumps
    obtain ⟨hPeriod₁, hRun₁⟩ := run_of_trace_ok hOutcome₁
    obtain ⟨hPeriod₂, hRun₂⟩ := run_of_trace_ok hOutcome₂
    rw [written_of_not_failed hPeriod₁ (not_failed_of_ok hOutcome₁),
      written_of_not_failed hPeriod₂ (not_failed_of_ok hOutcome₂), hHeld,
      ByteArray.append_right_inj] at hDumps
    have hTexts := String.toByteArray_inj.mp hDumps
    rw [String.append_right_inj] at hTexts
    obtain ⟨hCycles, hEnd, hValues⟩ := samples_of_body_eq (by rw [hRun₁, hRun₂]) hTexts
    rw [closedAt, closedAt, hRun₁, hRun₂] at hEnd
    exact ⟨hCycles, (List.cons.inj hEnd).1, hValues⟩
  · intro sim n period hPeriod
    obtain ⟨missing, hWritten⟩ :=
      device₁.written_feed ((schedule header n period sim).map Prod.fst) held₁
    rw [bytes_schedule hPeriod, ← trace_sink hPeriod] at hWritten
    refine ⟨_, missing, hWritten, ?_, map_cycle_read_dumped n period sim, ?_⟩
    · intro hTaken
      rw [written_of_not_failed hPeriod hTaken] at hWritten
      exact (ByteArray.append_right_inj _).mp (hWritten.trans ByteArray.append_empty.symm)
    · rw [map_cycle_read_dumped]
      exact pairwise_stamps hPeriod n sim

end Simulation

end DumpReading

namespace Toggle

/-- One cycle has one sample, with a period of one cycle as with one of two, so the two dumps
are the same text. Three cycles have two samples with a period of two. -/
theorem dump_determines_samples_toggle :
    let header := TraceHeader.ofTimescale "1 ps"
    let sim := (Simulation.run 1 (Simulation.ofRules rules)).2
    ((sim.trace Vcd.sink Writer.unbounded header 1 1).outcome = .ok () ∧
      (sim.trace Vcd.sink Writer.unbounded header 1 2).outcome = .ok () ∧
      (sim.trace Vcd.sink Writer.unbounded header 1 1).sink.written
        = (sim.trace Vcd.sink Writer.unbounded header 1 2).sink.written ∧
      (Simulation.sampledIn 1 1 sim).map Simulation.cycle
        = (Simulation.sampledIn 1 2 sim).map Simulation.cycle ∧
      (Simulation.sampledIn 1 1 sim).map
          (fun here => (file.decl flag).ty.pack (here.state.get flag))
        = (Simulation.sampledIn 1 2 sim).map
          fun here => (file.decl flag).ty.pack (here.state.get flag)) ∧
      ∃ body,
        (sim.trace Vcd.sink Writer.unbounded header 3 2).sink.written
            = (Vcd.headerText header (Simulation.tracedRegisters file) ++ body).toUTF8 ∧
          (Vcd.read body).map Vcd.Record.cycle = [1, 3, 4] := by
  intro header sim
  obtain ⟨hDetermined, hOrdered⟩ := @Simulation.dump_determines_samples file _ _ header
    Writer.device Writer.device Writer.unbounded Writer.unbounded rfl
  obtain ⟨hCycles, -, hValues⟩ := hDetermined sim sim 1 1 1 2 rfl rfl rfl
  obtain ⟨body, missing, hWritten, hWhole, hStamps, -⟩ := hOrdered sim 3 2 (by decide)
  have hNone : missing = ByteArray.empty := hWhole fun cause hFailed => by cases hFailed
  rw [hNone, ByteArray.append_empty] at hWritten
  exact ⟨⟨rfl, rfl, rfl, hCycles, hValues flag (by decide)⟩, body, hWritten, hStamps⟩

end Toggle

end AtomicRules
