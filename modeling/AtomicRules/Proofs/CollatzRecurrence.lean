import AtomicRules.Proofs.Endings
import AtomicRules.Proofs.ModularArithmetic

/-!
# The Collatz design computes its recurrence

In a cycle `divide` and `multiply` see one register one after the other: `divide` through
`read0` and `write0`, `multiply` what is left by then, through `read1` and `write1`. So a
cycle is one round of `advance`, which halves an even number and then takes `3n + 1` of an
odd one, in 32 bits. Numbers that `divide` has halved to one, and one itself, are left alone.
No rule stands in the way of another, whatever the values are: `count` looks at the running
value before anything was written, and nothing but `multiply` uses the last two ports.

## Main results

* `count_ends`, `divide_ends`, `multiply_ends` — what each of the rules does on any values.
* `cycleFrom_commits` — one cycle from any values.
* `iterate_nextState` — the values after any number of cycles, as numbers.
* `run_recurrence` — the runs of the design.
-/

namespace AtomicRules.Collatz

/-! ### The recurrence -/

/-- Half of an even number, and an odd number itself. -/
def halve (n : Nat) : Nat := if n % 2 = 0 then n / 2 else n

/-- `3n + 1` in 32 bits for an odd number other than one, and any other number itself. -/
def triple (n : Nat) : Nat := if n % 2 = 1 ∧ n ≠ 1 then (3 * n + 1) % 2 ^ 32 else n

/-- One round of the sequence. -/
def advance (n : Nat) : Nat := triple (halve n)

/-! ### The operations on vectors -/

theorem isOne_iff (value : Bits 32) : isOne value = true ↔ value.toNat = 1 := by
  rw [isOne, beq_iff_eq, ← Bits.toNat_inj]
  rfl

theorem bit_zero (value : Bits 32) : value.bit 0 = decide (value.toNat % 2 = 1) := by
  rw [Bits.bit_eq_testBit, Nat.testBit_zero]

theorem triples_iff (value : Bits 32) :
    (value.bit 0 && !isOne value) = true ↔ value.toNat % 2 = 1 ∧ value.toNat ≠ 1 := by
  rw [Bool.and_eq_true, bit_zero, decide_eq_true_iff, Bool.not_eq_true', ← Bool.not_eq_true,
    isOne_iff]

theorem toNat_halve {value : Bits 32} (h : value.bit 0 = false) :
    (value.lsr 1).toNat = halve value.toNat := by
  have hEven : value.toNat % 2 = 0 := by
    rw [bit_zero, decide_eq_false_iff_not] at h
    omega
  rw [halve, if_pos hEven]
  exact (Bits.toNat_lsr value 1).trans (Nat.shiftRight_eq_div_pow _ 1)

theorem toNat_triple {value : Bits 32} (h : (value.bit 0 && !isOne value) = true) :
    (value.lsl 1 + value + Bits.ofNat128 32 1).toNat = triple value.toNat := by
  have hOne : (Bits.ofNat128 32 1).toNat = 1 := rfl
  have hTwice : (value.lsl 1).toNat = value.toNat * 2 % 2 ^ 32 :=
    (Bits.toNat_lsl value 1).trans (by rw [Nat.shiftLeft_eq])
  rw [triple, if_pos ((triples_iff value).mp h), Bits.toNat_add, Bits.toNat_add, hTwice, hOne]
  omega

/-! ### The rules -/

/-- The values of the two registers. -/
def values (value : Bits 32) (number : Bits 16) : State file := (value, number, ())

/-- The log with given values and given conflict sets. -/
def logOf (value : Bits 32) (number : Bits 16) (ofX ofSteps : ConflictSet) : Log file :=
  ⟨values value number, (ofX, ofSteps, ())⟩

/-- `count` counts a cycle that does not start at one. -/
theorem count_ends (value : Bits 32) (number : Bits 16) :
    ∃ (counted : Bits 16) (ofSteps : ConflictSet),
      counted.toNat = (number.toNat + if value.toNat = 1 then 0 else 1) % 2 ^ 16 ∧
        let log := logOf value number .clear .clear
        count.Ends (values value number) log .whole log (.ok ())
          (logOf value counted .clear ofSteps) := by
  by_cases hOne : isOne value = true
  · refine ⟨number, .clear, ?_, .granted_bind rfl rfl ?_⟩
    · rw [if_pos ((isOne_iff value).mp hOne), Nat.add_zero, Nat.mod_eq_of_lt number.toNat_lt]
    · exact .ite_pos hOne (.done ())
  · refine ⟨number + Bits.ofNat128 16 1, .mark .clear .write0, ?_, .granted_bind rfl rfl ?_⟩
    · rw [if_neg ((isOne_iff value).not.mp hOne), Bits.toNat_add]
      rfl
    · exact .ite_neg hOne (.granted_bind rfl rfl (.granted rfl rfl))

/-- `divide` halves the running value before anything has been done to it. -/
theorem divide_ends (value : Bits 32) (first number : Bits 16) (ofSteps : ConflictSet) :
    ∃ (half : Bits 32) (ofX : ConflictSet), half.toNat = halve value.toNat ∧ ofX.write1 = false ∧
      let log := logOf value number .clear ofSteps
      divide.Ends (values value first) log .whole log (.ok ()) (logOf half number ofX ofSteps) := by
  by_cases hOdd : value.bit 0 = true
  · refine ⟨value, .clear, ?_, rfl, .granted_bind rfl rfl ?_⟩
    · rw [bit_zero, decide_eq_true_iff] at hOdd
      rw [halve, if_neg (by omega)]
    · exact .ite_pos hOdd (.done ())
  · refine ⟨value.lsr 1, .mark .clear .write0, ?_, rfl, .granted_bind rfl rfl ?_⟩
    · exact toNat_halve (Bool.eq_false_iff.mpr hOdd)
    · exact .ite_neg hOdd (.granted rfl rfl)

/-- `multiply` triples what it finds, as long as nothing was written through the last port. -/
theorem multiply_ends (start : State file) (half : Bits 32) (number : Bits 16)
    {ofX : ConflictSet} (hLast : ofX.write1 = false) (ofSteps : ConflictSet) :
    ∃ (tripled : Bits 32) (ofX' : ConflictSet), tripled.toNat = triple half.toNat ∧
      let log := logOf half number ofX ofSteps
      multiply.Ends start log .whole log (.ok ()) (logOf tripled number ofX' ofSteps) := by
  have hGranted : (!ofX.write1) = true := by rw [hLast]; rfl
  by_cases hTriples : (half.bit 0 && !isOne half) = true
  · refine ⟨half.lsl 1 + half + Bits.ofNat128 32 1, (ofX.mark .read1).mark .write1, ?_,
      .granted_bind rfl hGranted ?_⟩
    · exact toNat_triple hTriples
    · exact .ite_pos hTriples (.granted rfl hGranted)
  · refine ⟨half, ofX.mark .read1, ?_, .granted_bind rfl hGranted ?_⟩
    · rw [triple, if_neg ((triples_iff half).not.mp hTriples)]
    · exact .ite_neg hTriples (.done ())

/-! ### Cycles -/

/-- The running value, as a number. -/
def valueOf (state : State file) : Nat := (show Bits 32 from state.get x).toNat

/-- The counter, as a number. -/
def stepsOf (state : State file) : Nat := (show Bits 16 from state.get steps).toNat

theorem ext_numbers {a b : State file} (hValue : valueOf a = valueOf b)
    (hSteps : stepsOf a = stepsOf b) : a = b :=
  Prod.ext (Bits.ext_toNat hValue) (Prod.ext (Bits.ext_toNat hSteps) rfl)

/-- In a cycle all three rules commit, from any values, and the cycle is one round. -/
theorem cycleFrom_commits (state : State file) :
    let cycle := cycleFrom rules state
    cycle.outcome = .ok ⟨3, 0⟩ ∧
      cycle.firings.map Firing.outcome = List.replicate 3 (.ok (.ok ())) ∧
      valueOf (nextState rules state) = advance (valueOf state) ∧
      stepsOf (nextState rules state) =
        (stepsOf state + if valueOf state = 1 then 0 else 1) % 2 ^ 16 := by
  obtain ⟨value, number, ⟨⟩⟩ := state
  obtain ⟨counted, ofSteps, hCounted, hCount⟩ := count_ends value number
  obtain ⟨half, ofX, hHalf, hLast, hDivide⟩ := divide_ends value number counted ofSteps
  obtain ⟨tripled, ofX', hTripled, hMultiply⟩ :=
    multiply_ends (values value number) half counted hLast ofSteps
  have hSweeps : Sweeps (values value number) rules (Log.ofState (values value number))
      [.ok (), .ok (), .ok ()] (logOf tripled counted ofX' ofSteps) :=
    .commit hCount (.commit hDivide (.commit hMultiply (.nil _)))
  obtain ⟨hFirings, hLog, hOutcome⟩ := cycleFrom_of_sweeps hSweeps
  have hNext : nextState rules (values value number) = values tripled counted :=
    congrArg Log.state hLog
  refine ⟨hOutcome, hFirings, ?_, ?_⟩
  · exact (congrArg valueOf hNext).trans (hTripled.trans (congrArg triple hHalf))
  · exact (congrArg stepsOf hNext).trans hCounted

/-- The values after any number of cycles. -/
theorem iterate_nextState (state : State file) (n : Nat) :
    valueOf ((nextState rules)^[n] state) = advance^[n] (valueOf state) ∧
      stepsOf ((nextState rules)^[n] state) =
        (stepsOf state + Nat.count (fun k => advance^[k] (valueOf state) ≠ 1) n) % 2 ^ 16 := by
  induction n with
  | zero => exact ⟨rfl, (Nat.mod_eq_of_lt (Bits.toNat_lt _)).symm⟩
  | succ n ih =>
      obtain ⟨hValue, hSteps⟩ := ih
      obtain ⟨-, -, hNextValue, hNextSteps⟩ := cycleFrom_commits ((nextState rules)^[n] state)
      rw [Function.iterate_succ_apply', Function.iterate_succ_apply', Nat.count_succ, hNextValue,
        hNextSteps, hValue, hSteps, ite_not]
      refine ⟨rfl, ?_⟩
      -- of the remainders of all cycles the last one is enough
      rw [Nat.mod_add_mod, Nat.add_assoc]

/-- One is where the sequence ends: a cycle from there changes nothing. -/
theorem nextState_of_one {state : State file} (h : valueOf state = 1) :
    nextState rules state = state := by
  obtain ⟨-, -, hValue, hSteps⟩ := cycleFrom_commits state
  have hFits : stepsOf state < 2 ^ 16 := Bits.toNat_lt _
  apply ext_numbers
  · rw [hValue, h]
    rfl
  · rw [hSteps, if_pos h, Nat.add_zero, Nat.mod_eq_of_lt hFits]

/-! ### Runs -/

/-- After `n` cycles from any values, the running value is the `n`-th iterate of `advance`,
and the number of steps has grown by the number of iterates before it that are not one, in
16 bits. The next cycle commits all three rules again, and when the running value is one,
nothing changes any more, in any number of cycles. -/
theorem run_recurrence (state : State file) (n : Nat) :
    let run := Simulation.run n (Simulation.ofState state rules)
    run.1 = .ok () ∧
      valueOf run.2.state = advance^[n] (valueOf state) ∧
      stepsOf run.2.state =
        (stepsOf state + Nat.count (fun k => advance^[k] (valueOf state) ≠ 1) n) % 2 ^ 16 ∧
      run.2.next.outcome = .ok ⟨3, 0⟩ ∧
      run.2.next.firings.map Firing.outcome = List.replicate 3 (.ok (.ok ())) ∧
      (valueOf run.2.state = 1 → ∀ m, (Simulation.run m run.2).2.state = run.2.state) := by
  have hCycles : ∀ state, ∃ report, (cycleFrom rules state).outcome = .ok report :=
    fun state => ⟨_, (cycleFrom_commits state).1⟩
  have hRules : (Simulation.ofState state rules).scheduler.rules = rules :=
    Scheduler.rules_ofRules rules
  intro run
  obtain ⟨hCompleted, hAhead⟩ := Simulation.run_completed hCycles hRules n
  have hReached : run.2.state = (nextState rules)^[n] state := by
    rw [hAhead.state_eq, hRules]
    rfl
  obtain ⟨hValue, hSteps⟩ := iterate_nextState state n
  have hRulesLeft : run.2.scheduler.rules = rules := hAhead.rules_eq.trans hRules
  have hNext := Simulation.result_next hRulesLeft
  obtain ⟨hOutcome, hFirings, -, -⟩ := cycleFrom_commits run.2.state
  refine ⟨hCompleted, ?_, ?_, ?_, ?_, fun hOne m => ?_⟩
  · rw [hReached, hValue]
  · rw [hReached, hSteps]
  · exact (congrArg (fun result => result.2.1) hNext).trans hOutcome
  · exact (congrArg (fun result => result.2.2.map Firing.outcome) hNext).trans hFirings
  · have hLater := (Simulation.run_completed hCycles hRulesLeft m).2
    rw [hLater.state_eq, hRulesLeft]
    exact Function.iterate_fixed (nextState_of_one hOne) m

/-- From 12 the design needs seven cycles, each of which counts, and then stays at one. -/
theorem run_recurrence_twelve :
    let run := Simulation.run 7 (Simulation.ofState twelve rules)
    run.1 = .ok () ∧ valueOf run.2.state = 1 ∧ stepsOf run.2.state = 7 ∧
      ∀ m, (Simulation.run m run.2).2.state = run.2.state := by
  obtain ⟨hCompleted, hValue, hSteps, -, -, hStays⟩ := run_recurrence twelve 7
  have hOne : advance^[7] (valueOf twelve) = 1 := by decide
  have hCount : (stepsOf twelve + Nat.count (fun k => advance^[k] (valueOf twelve) ≠ 1) 7)
      % 2 ^ 16 = 7 := by decide
  have hReached := hValue.trans hOne
  exact ⟨hCompleted, hReached, hSteps.trans hCount, hStays hReached⟩

end AtomicRules.Collatz
