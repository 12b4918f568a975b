import AtomicRules.Proofs.Footprints
import AtomicRules.Proofs.Memoryless

/-!
# Cycles followed access by access

What a given rule does on given logs is found by following its body: an access that is
granted answers and changes the tentative log, and the rest of the body goes on from there.
`Action.Ends` is what is found, and `Sweeps` puts it together for a list of rules: a rule
that commits hands on its tentative log, one that aborts hands on the log it was given.

## Main results

* `Action.Ends.granted_bind`, `Action.Ends.bind` — a body that begins with a granted access, and
  one that begins with any action that comes to a value.
* `Sweeps.sweep_eq` — the firings and the log of a sweep that was followed.
* `cycleFrom_of_sweeps` — a cycle in which it was.
* `Simulation.run_completed`, `Simulation.run_ofState` — simulations all of whose cycles are
  completed.
* `Simulation.stats_run_of_endings` — the statistics of rules that end the same way in every cycle.
-/

namespace AtomicRules

section Endings

variable {file : RegisterFile} {α β : Type} {start : State file} {committed tentative : Log file}
variable {footprint : Footprint file}

/-! ### One body -/

/-- The action is run to its end, whatever the journal holds: how it ends, and the tentative
log it leaves. -/
def Action.Ends (start : State file) (committed : Log file) (footprint : Footprint file)
    (action : Action file α) (tentative : Log file) (ending : Except Conflict α)
    (last : Log file) : Prop :=
  ∀ journal : Journal file,
    let run := action.run start committed footprint tentative journal
    run.outcome = .ok ending ∧ run.tentative = last

/-- Where the first of two actions comes to a value, the second one goes on from what it left. -/
theorem Action.run_bind {value : α} (action : Action file α) (next : α → Action file β)
    (tentative : Log file) (journal : Journal file)
    (h : (action.run start committed footprint tentative journal).outcome = .ok (.ok value)) :
    let first := action.run start committed footprint tentative journal
    let second := (next value).run start committed footprint first.tentative first.journal
    (action.bind next).run start committed footprint tentative journal =
      { second with events := first.events ++ second.events } := by
  induction action generalizing tentative journal with
  | done given =>
      obtain rfl : given = value := Except.ok.inj (Except.ok.inj h)
      rfl
  | fail conflict => cases h
  | access a rest ih =>
      simp only [bind_access, run] at h ⊢
      cases hTrack : footprint.track journal a with
      | error violation => simp only [hTrack] at h; cases h
      | ok journal' =>
          simp only [hTrack] at h ⊢
          rw [ih _ _ _ h]
          rfl

/-- A register whose set is clear takes a first write, whatever its kind. -/
theorem Access.granted_write0_of_clear {reg : file.Reg} (value : file.Val reg)
    (h : tentative.conflict reg = .clear) :
    (Access.write0 reg value).granted committed tentative = true := by
  simp only [granted, Access.reg, port, h]
  cases file.kindOf reg <;> rfl

/-- A write leaves the sets of all other registers alone. -/
theorem Access.conflict_write0_of_ne (log : Log file) {reg other : file.Reg}
    (value : file.Val reg) (h : other ≠ reg) :
    ((Access.write0 reg value).apply log).conflict other = log.conflict other :=
  (get_apply_of_ne log (Access.write0 reg value) h).2

namespace Action.Ends

theorem done (value : α) :
    (Action.done value).Ends start committed footprint tentative (.ok value) tentative :=
  fun _ => ⟨rfl, rfl⟩

/-- After a granted access the action goes on with its answer. -/
theorem granted_bind {a : Access file} {next : a.Answer → Action file β}
    {ending : Except Conflict β} {last : Log file} (hAdmits : footprint.admits a = true)
    (hGranted : a.granted committed tentative = true)
    (hNext : (next (a.answer start tentative)).Ends start committed footprint (a.apply tentative)
      ending last) :
    ((perform a).bind next).Ends start committed footprint tentative ending last := by
  intro journal
  obtain ⟨journal', hTrack⟩ := Footprint.track_of_admits hAdmits journal
  simp only [perform, bind_access, run, hTrack, Access.attempt_of_granted hGranted]
  exact hNext journal'

/-- An action that is one granted access. -/
theorem granted {a : Access file} (hAdmits : footprint.admits a = true)
    (hGranted : a.granted committed tentative = true) :
    (perform a).Ends start committed footprint tentative (.ok (a.answer start tentative))
      (a.apply tentative) := by
  rw [← bind_done_right (perform a)]
  exact granted_bind hAdmits hGranted (done _)

/-- An action that is one refused access ends in that conflict and changes nothing. -/
theorem refused {a : Access file} (hAdmits : footprint.admits a = true)
    (hRefused : a.granted committed tentative = false) :
    (perform a).Ends start committed footprint tentative (.error a.refusal) tentative := by
  intro journal
  obtain ⟨journal', hTrack⟩ := Footprint.track_of_admits hAdmits journal
  simp only [perform, run, hTrack, Access.attempt_of_refused hRefused, and_self]

theorem bind {action : Action file α} {next : α → Action file β} {value : α}
    {ending : Except Conflict β} {middle last : Log file}
    (hFirst : action.Ends start committed footprint tentative (.ok value) middle)
    (hNext : (next value).Ends start committed footprint middle ending last) :
    (action.bind next).Ends start committed footprint tentative ending last := by
  intro journal
  obtain ⟨hOutcome, hMiddle⟩ := hFirst journal
  have hRun := run_bind action next tentative journal hOutcome
  simp only [hMiddle] at hRun
  rw [hRun]
  exact hNext _

theorem ite_pos {c : Prop} [Decidable c] {yes no : Action file α} {ending : Except Conflict α}
    {last : Log file} (hc : c) (h : yes.Ends start committed footprint tentative ending last) :
    (if c then yes else no).Ends start committed footprint tentative ending last := by
  rwa [if_pos hc]

theorem ite_neg {c : Prop} [Decidable c] {yes no : Action file α} {ending : Except Conflict α}
    {last : Log file} (hc : ¬ c) (h : no.Ends start committed footprint tentative ending last) :
    (if c then yes else no).Ends start committed footprint tentative ending last := by
  rwa [if_neg hc]

end Action.Ends

/-! ### One cycle -/

/-- Rules that fire one after the other and keep to their footprints: the log they start from,
how each of them ends, and the log they lead to. -/
inductive Sweeps (start : State file) :
    List (Rule file) → Log file → List (Except Conflict Unit) → Log file → Prop
  | nil (log : Log file) : Sweeps start [] log [] log
  | commit {rule : Rule file} {rest : List (Rule file)} {log next last : Log file}
      {endings : List (Except Conflict Unit)}
      (hBody : rule.body.Ends start log rule.footprint log (.ok ()) next)
      (hRest : Sweeps start rest next endings last) :
      Sweeps start (rule :: rest) log (.ok () :: endings) last
  | abort {rule : Rule file} {rest : List (Rule file)} {log left last : Log file}
      {conflict : Conflict} {endings : List (Except Conflict Unit)}
      (hBody : rule.body.Ends start log rule.footprint log (.error conflict) left)
      (hRest : Sweeps start rest log endings last) :
      Sweeps start (rule :: rest) log (.error conflict :: endings) last

variable {rules : List (Rule file)} {log last : Log file} {endings : List (Except Conflict Unit)}

theorem Sweeps.sweep_eq (h : Sweeps start rules log endings last) :
    (sweep start rules log).1.map Firing.outcome = endings.map .ok ∧
      (sweep start rules log).2 = last := by
  induction h with
  | nil log => exact ⟨rfl, rfl⟩
  | @commit rule rest log next last endings hBody _ ih =>
      obtain ⟨firing, handed, hFiring, hAttempts, hCases⟩ := sweep_cons start rule log
      subst hFiring
      obtain ⟨hOutcome, hNext⟩ := hBody Journal.empty
      -- the log that a sweep hands on is given by the attempts of the rule
      obtain rfl : handed = next := (Rule.eq_tentative_of_attempts hAttempts).trans hNext
      rcases hCases with ⟨-, hSweep⟩ | ⟨conflict, hAborted, -⟩ | ⟨violation, hStopped, -⟩
      · rw [hSweep]
        exact ⟨List.cons_eq_cons.mpr ⟨hOutcome, ih.1⟩, ih.2⟩
      · cases hOutcome.symm.trans hAborted
      · cases hOutcome.symm.trans hStopped
  | @abort rule rest log left last conflict endings hBody _ ih =>
      obtain ⟨firing, handed, hFiring, -, hCases⟩ := sweep_cons start rule log
      subst hFiring
      obtain ⟨hOutcome, -⟩ := hBody Journal.empty
      rcases hCases with ⟨hCommitted, -⟩ | ⟨-, -, hSweep⟩ | ⟨violation, hStopped, -⟩
      · cases hOutcome.symm.trans hCommitted
      · rw [hSweep]
        exact ⟨List.cons_eq_cons.mpr ⟨hOutcome, ih.1⟩, ih.2⟩
      · cases hOutcome.symm.trans hStopped

/-- The report of rules of which none left its footprint. -/
theorem tally_of_endings {firings : List (Firing file)}
    (h : firings.map Firing.outcome = endings.map .ok) (report : CycleReport) :
    tally firings report =
      .ok ⟨report.committed + endings.countP (·.isOk),
        report.aborted + endings.countP fun ending => !ending.isOk⟩ := by
  induction firings generalizing endings report with
  | nil =>
      obtain rfl := List.map_eq_nil_iff.mp h.symm
      rfl
  | cons firing firings ih =>
      cases endings with
      | nil => cases h
      | cons ending endings =>
          obtain ⟨hFirst, hRest⟩ := List.cons.inj h
          cases ending with
          | ok value =>
              simp only [tally, hFirst, ih hRest]
              simp [Except.isOk, Except.toBool, Nat.add_assoc, Nat.add_comm]
          | error conflict =>
              simp only [tally, hFirst, ih hRest]
              simp [Except.isOk, Except.toBool, Nat.add_assoc, Nat.add_comm]

/-- A cycle, from what was found of its rules. -/
theorem cycleFrom_of_sweeps {state : State file}
    (h : Sweeps state rules (Log.ofState state) endings last) :
    let cycle := cycleFrom rules state
    cycle.firings.map Firing.outcome = endings.map .ok ∧ cycle.log = last ∧
      cycle.outcome = .ok ⟨endings.countP (·.isOk), endings.countP fun ending => !ending.isOk⟩ := by
  have hSwept : (Scheduler.ofRules rules).swept (Log.ofState state) =
      sweep state rules (Log.ofState state) := by
    rw [Scheduler.swept, Scheduler.rules_ofRules]
    rfl
  obtain ⟨hFirings, hLog⟩ := h.sweep_eq
  have hTally := tally_of_endings hFirings {}
  simp only [cycleFrom, Scheduler.runCycle_firings, Scheduler.runCycle_log,
    Scheduler.runCycle_outcome, hSwept]
  simp only [Nat.zero_add] at hTally
  exact ⟨hFirings, hLog, hTally⟩

/-! ### Many cycles -/

/-- The statistics of a rule that has ended in one way in so many cycles. -/
def RuleStats.ofEnding (cycles : Nat) : Except Conflict Unit → RuleStats
  | .ok _ => { commits := cycles }
  | .error _ => { aborts := cycles }

/-- A cycle more in which every rule ends as before. -/
theorem recordAll_ofEnding {firings : List (Firing file)} {endings : List (Except Conflict Unit)}
    (h : firings.map Firing.outcome = endings.map .ok) (cycles : Nat) :
    recordAll (endings.map (RuleStats.ofEnding cycles)) firings =
      endings.map (RuleStats.ofEnding (countUp cycles)) := by
  induction endings generalizing firings with
  | nil => rw [List.map_eq_nil_iff.mp h]; rfl
  | cons ending endings ih =>
      cases firings with
      | nil => cases h
      | cons firing firings =>
          obtain ⟨hFirst, hRest⟩ := List.cons.inj h
          rw [List.map_cons, List.map_cons, recordAll, ih hRest, RuleStats.record, hFirst]
          cases ending <;> rfl

namespace Simulation

variable {sim : Simulation file}

theorem result_next (hRules : sim.scheduler.rules = rules) :
    sim.next.result = (cycleFrom rules sim.state).result := by
  rw [← hRules]
  exact sim.scheduler.result_runCycle sim.log

/-- Rules that keep to their footprints from all values can run for any number of cycles. -/
theorem run_completed (hCycles : ∀ state, ∃ report, (cycleFrom rules state).outcome = .ok report)
    (hRules : sim.scheduler.rules = rules) (n : Nat) :
    (run n sim).1 = .ok () ∧ Ahead n sim (run n sim).2 := by
  have hCompleted : (run n sim).1 = .ok () := by
    rw [run_fst_eq_ok_iff, hRules]
    exact fun k _ => hCycles _
  exact ⟨hCompleted, ahead_of_run (Prod.ext hCompleted rfl)⟩

/-- A run of such rules from given values: where it has got to, and what the next cycle is. -/
theorem run_ofState (hCycles : ∀ state, ∃ report, (cycleFrom rules state).outcome = .ok report)
    (state : State file) (n : Nat) :
    let run := run n (ofState state rules)
    run.1 = .ok () ∧ run.2.state = (nextState rules)^[n] state ∧
      run.2.scheduler.rules = rules ∧
      run.2.next.result = (cycleFrom rules run.2.state).result := by
  have hRules : (ofState state rules).scheduler.rules = rules := Scheduler.rules_ofRules rules
  obtain ⟨hCompleted, hAhead⟩ := run_completed hCycles hRules n
  have hReached := hAhead.state_eq
  rw [hRules] at hReached
  have hRulesLeft := hAhead.rules_eq.trans hRules
  exact ⟨hCompleted, hReached, hRulesLeft, result_next hRulesLeft⟩

theorem stats_later (sim : Simulation file) :
    sim.later.scheduler.stats = recordAll sim.scheduler.stats sim.next.firings := by
  rw [next, Scheduler.runCycle_firings]
  exact Scheduler.stats_runCycle sim.scheduler sim.log

/-- Rules that end the same way in every cycle are counted cycle by cycle, as far as the
counters reach. -/
theorem stats_run_of_endings
    (hCycles : ∀ state, (cycleFrom rules state).firings.map Firing.outcome = endings.map .ok)
    (hRules : sim.scheduler.rules = rules) {cycles : Nat} (hBound : cycles < 2 ^ 64)
    (hStats : sim.scheduler.stats = endings.map (RuleStats.ofEnding cycles)) (n : Nat) :
    (run n sim).2.scheduler.stats =
      endings.map (RuleStats.ofEnding (min (cycles + n) (2 ^ 64 - 1))) := by
  induction n generalizing sim cycles with
  | zero => rw [run_zero, hStats, Nat.add_zero, Nat.min_eq_left (Nat.le_sub_one_of_lt hBound)]
  | succ n ih =>
      have hFirings := hCycles sim.state
      obtain ⟨report, hOutcome⟩ : ∃ report, (cycleFrom rules sim.state).outcome = .ok report := by
        rw [cycleFrom, Scheduler.runCycle_outcome, ← Scheduler.runCycle_firings]
        exact ⟨_, tally_of_endings hFirings {}⟩
      have hNext : sim.next.firings = (cycleFrom rules sim.state).firings :=
        congrArg (fun result => result.2.2) (result_next hRules)
      have hLater : sim.later.scheduler.stats =
          endings.map (RuleStats.ofEnding (countUp cycles)) := by
        rw [stats_later, hStats, hNext, recordAll_ofEnding hFirings]
      have hCount : countUp cycles = min (cycles + 1) (2 ^ 64 - 1) := rfl
      have hSum : min (countUp cycles + n) (2 ^ 64 - 1) = min (cycles + (n + 1)) (2 ^ 64 - 1) := by
        omega
      rw [← hRules] at hOutcome
      rw [run_succ_of_ok hOutcome, ih (sim.rules_later.trans hRules) (by omega) hLater, hSum]

end Simulation

end Endings

end AtomicRules
