import Mathlib.Data.Nat.Count
import AtomicRules.Proofs.Aborts
import AtomicRules.Simulation.Basic

/-!
# Nothing is remembered between cycles

A scheduler keeps the start values, the tentative log, the journal and the statistics
from cycle to cycle, and a violation leaves all four half done. None of them is read
before it is written again, except the statistics, which nothing but a reader of the
statistics looks at. So a cycle is a function of the rules and of the register values,
and a run iterates that function: `cycleFrom` is the cycle, `nextState` what it makes of
the values, and the statistics of a rule count the cycles in which it committed or
aborted, as those of `cycleFrom` on the iterates.

## Main results

* `Scheduler.result_runCycle` — what a cycle gives, from the rules and the values.
* `Simulation.run_add` — a run goes on where another one ended.
* `Simulation.run_fst_eq_ok_iff`, `Simulation.ahead_of_run` — a run against the iterates
  of one function on values: when it is completed, and where it leaves the values, the
  cycle number and the statistics.
* `Simulation.run_memoryless` — all of it, for simulations that start from given values.
-/

namespace AtomicRules

section Memoryless

variable {file : RegisterFile}

/-! ### One cycle -/

/-- What a cycle gives: the committed log, the report or the violation, and what every
rule did with the answers to its accesses. -/
def Cycle.result (cycle : Cycle file) :
    Log file × Except FootprintViolation CycleReport × List (Firing file) :=
  (cycle.log, cycle.outcome, cycle.firings)

/-- The cycle of rules that have not fired yet, on values without flags. -/
def cycleFrom (rules : List (Rule file)) (state : State file) : Cycle file :=
  (Scheduler.ofRules rules).runCycle (Log.ofState state)

/-- The values that a cycle makes of given ones. -/
def nextState (rules : List (Rule file)) (state : State file) : State file :=
  (cycleFrom rules state).log.state

/-- The rule at a place commits in the cycle from given values. -/
def commitsAt (rules : List (Rule file)) (place : Nat) (state : State file) : Bool :=
  (cycleFrom rules state).firings[place]?.any Firing.committed

/-- The rule at a place aborts in the cycle from given values. -/
def abortsAt (rules : List (Rule file)) (place : Nat) (state : State file) : Bool :=
  (cycleFrom rules state).firings[place]?.any Firing.aborted

namespace Scheduler

@[simp] theorem rules_ofRules (rules : List (Rule file)) : (ofRules rules).rules = rules := by
  rw [Scheduler.rules, ofRules, List.map_map]
  exact List.map_id rules

@[simp] theorem stats_ofRules (rules : List (Rule file)) :
    (ofRules rules).stats = rules.map fun _ => {} := by
  rw [stats, ofRules, List.map_map]
  rfl

/-- What a cycle gives depends on the rules and on the values of the log. -/
theorem result_runCycle (scheduler : Scheduler file) (log : Log file) :
    (scheduler.runCycle log).result = (cycleFrom scheduler.rules log.state).result := by
  have hSwept : (ofRules scheduler.rules).swept (Log.ofState log.state) = scheduler.swept log := by
    rw [swept, swept, rules_ofRules]
    rfl
  simp only [Cycle.result, cycleFrom, runCycle_log, runCycle_outcome, runCycle_firings, hSwept]

/-- The scheduler after cycles on given logs, however they ended. -/
def after (scheduler : Scheduler file) (past : List (Log file)) : Scheduler file :=
  past.foldl (fun scheduler log => (scheduler.runCycle log).scheduler) scheduler

@[simp] theorem rules_after (scheduler : Scheduler file) (past : List (Log file)) :
    (scheduler.after past).rules = scheduler.rules := by
  induction past generalizing scheduler with
  | nil => rfl
  | cons log rest ih => exact (ih (scheduler.runCycle log).scheduler).trans (rules_runCycle _ _)

end Scheduler

/-! ### Statistics -/

/-- The statistics of a rule after a firing, as long as the counters have room. -/
theorem RuleStats.record_eq {stats : RuleStats} (hCommits : stats.commits + 1 < 2 ^ 64)
    (hAborts : stats.aborts + 1 < 2 ^ 64) (firing : Firing file) :
    stats.record firing =
      ⟨stats.commits + if firing.committed then 1 else 0,
        stats.aborts + if firing.aborted then 1 else 0⟩ := by
  have hCountCommit : countUp stats.commits = stats.commits + 1 := Nat.min_eq_left (by omega)
  have hCountAbort : countUp stats.aborts = stats.aborts + 1 := Nat.min_eq_left (by omega)
  cases hOutcome : firing.outcome with
  | error violation => simp [record, Firing.committed, Firing.aborted, hOutcome]
  | ok ending =>
      cases ending with
      | ok value =>
          simp [record, commit, hCountCommit, Firing.committed, Firing.aborted, hOutcome]
      | error conflict =>
          simp [record, abort, hCountAbort, Firing.committed, Firing.aborted, hOutcome]

theorem getElem?_recordAll (stats : List RuleStats) (firings : List (Firing file))
    (place : Nat) :
    (recordAll stats firings)[place]? =
      stats[place]?.map fun old => firings[place]?.elim old old.record := by
  induction stats generalizing firings place with
  | nil => rfl
  | cons first rest ih =>
      cases firings with
      | nil => simp
      | cons firing firings =>
          cases place with
          | zero => rfl
          | succ place => exact ih firings place

/-- The statistics of the rule at a place after a cycle. -/
theorem Scheduler.getElem?_stats_runCycle {scheduler : Scheduler file} (log : Log file)
    {place : Nat} {stats : RuleStats} (hStats : scheduler.stats[place]? = some stats)
    (hCommits : stats.commits + 1 < 2 ^ 64) (hAborts : stats.aborts + 1 < 2 ^ 64) :
    (scheduler.runCycle log).scheduler.stats[place]? =
      some ⟨stats.commits + if commitsAt scheduler.rules place log.state then 1 else 0,
        stats.aborts + if abortsAt scheduler.rules place log.state then 1 else 0⟩ := by
  have hFirings : (cycleFrom scheduler.rules log.state).firings = (scheduler.swept log).1 := by
    rw [← runCycle_firings]
    exact (congrArg (fun result => result.2.2) (scheduler.result_runCycle log)).symm
  rw [stats_runCycle, getElem?_recordAll, hStats, commitsAt, abortsAt, hFirings]
  cases (scheduler.swept log).1[place]? with
  | none => simp
  | some firing => simp [RuleStats.record_eq hCommits hAborts]

namespace Simulation

/-! ### Many cycles -/

/-- A run that is as long as two is the second one after the first, unless a violation
ends the first. -/
theorem run_add (m n : Nat) (sim : Simulation file) :
    run (m + n) sim =
      match run m sim with
      | (.ok (), later) => run n later
      | (.error violation, later) => (.error violation, later) := by
  induction m generalizing sim with
  | zero => rw [Nat.zero_add, run_zero]
  | succ m ih =>
      rw [Nat.add_right_comm, run_succ, run_succ]
      cases hStep : sim.step with
      | mk outcome later =>
          cases outcome with
          | ok report => exact ih later
          | error violation => rfl

/-- The simulation when the next cycle has been run to its end. -/
def later (sim : Simulation file) : Simulation file :=
  ⟨sim.next.log, sim.next.scheduler, sim.cycle + 1⟩

@[simp] theorem rules_later (sim : Simulation file) :
    sim.later.scheduler.rules = sim.scheduler.rules :=
  Scheduler.rules_runCycle sim.scheduler sim.log

@[simp] theorem state_later (sim : Simulation file) :
    sim.later.state = nextState sim.scheduler.rules sim.state :=
  congrArg (fun result => result.1.state) (sim.scheduler.result_runCycle sim.log)

@[simp] theorem cycle_later (sim : Simulation file) : sim.later.cycle = sim.cycle + 1 := rfl

theorem outcome_next (sim : Simulation file) :
    sim.next.outcome = (cycleFrom sim.scheduler.rules sim.state).outcome :=
  congrArg (fun result => result.2.1) (sim.scheduler.result_runCycle sim.log)

theorem run_succ_of_ok {sim : Simulation file} {report : CycleReport}
    (h : (cycleFrom sim.scheduler.rules sim.state).outcome = .ok report) (n : Nat) :
    run (n + 1) sim = run n sim.later := by
  rw [run_succ, step, outcome_next, h, later]

theorem run_succ_of_violation {sim : Simulation file} {violation : FootprintViolation}
    (h : (cycleFrom sim.scheduler.rules sim.state).outcome = .error violation) (n : Nat) :
    (run (n + 1) sim).1 = .error violation := by
  rw [run_succ, step, outcome_next, h]

/-- A run is completed when no iterate of the values leads to a violation. -/
theorem run_fst_eq_ok_iff (n : Nat) (sim : Simulation file) :
    (run n sim).1 = .ok () ↔
      ∀ k < n, ∃ report, (cycleFrom sim.scheduler.rules
        ((nextState sim.scheduler.rules)^[k] sim.state)).outcome = .ok report := by
  induction n generalizing sim with
  | zero => simp
  | succ n ih =>
      rw [Nat.forall_lt_succ_left]
      simp only [Function.iterate_zero, id, Function.iterate_succ_apply]
      cases hOutcome : (cycleFrom sim.scheduler.rules sim.state).outcome with
      | error violation => simp [run_succ_of_violation hOutcome]
      | ok report =>
          rw [run_succ_of_ok hOutcome, ih, rules_later, state_later]
          simp

/-- How a simulation stands to another one that is a number of completed cycles behind. -/
structure Ahead (n : Nat) (sim last : Simulation file) : Prop where
  rules_eq : last.scheduler.rules = sim.scheduler.rules
  state_eq : last.state = (nextState sim.scheduler.rules)^[n] sim.state
  cycle_eq : last.cycle = sim.cycle + n
  stats_eq : ∀ (place : Nat) (stats : RuleStats), sim.scheduler.stats[place]? = some stats →
    stats.commits + n < 2 ^ 64 → stats.aborts + n < 2 ^ 64 →
    last.scheduler.stats[place]? = some
      ⟨stats.commits + Nat.count (fun k => commitsAt sim.scheduler.rules place
          ((nextState sim.scheduler.rules)^[k] sim.state)) n,
        stats.aborts + Nat.count (fun k => abortsAt sim.scheduler.rules place
          ((nextState sim.scheduler.rules)^[k] sim.state)) n⟩

theorem Ahead.refl (sim : Simulation file) : Ahead 0 sim sim where
  rules_eq := rfl
  state_eq := rfl
  cycle_eq := rfl
  stats_eq place stats hStats _ _ := by simpa using hStats

theorem Ahead.of_later {n : Nat} {sim last : Simulation file} (h : Ahead n sim.later last) :
    Ahead (n + 1) sim last where
  rules_eq := h.rules_eq.trans sim.rules_later
  state_eq := by rw [h.state_eq, rules_later, state_later, Function.iterate_succ_apply]
  cycle_eq := by rw [h.cycle_eq, cycle_later, Nat.add_right_comm, Nat.add_assoc]
  stats_eq place stats hStats hCommits hAborts := by
    have hNext := Scheduler.getElem?_stats_runCycle sim.log hStats (by omega) (by omega)
    have hLast := h.stats_eq place _ hNext (by dsimp only; split <;> omega)
      (by dsimp only; split <;> omega)
    rw [hLast, rules_later, state_later, Nat.count_succ', Nat.count_succ']
    simp only [Function.iterate_zero, id, Function.iterate_succ_apply]
    -- the first cycle is counted first here and last there
    have hFirst (old count first : Nat) : old + first + count = old + (count + first) := by omega
    exact congrArg some (congrArg₂ RuleStats.mk (hFirst ..) (hFirst ..))

theorem ahead_of_run {n : Nat} {sim last : Simulation file} (h : run n sim = (.ok (), last)) :
    Ahead n sim last := by
  induction n generalizing sim with
  | zero =>
      obtain rfl : sim = last := congrArg Prod.snd h
      exact Ahead.refl sim
  | succ n ih =>
      cases hOutcome : (cycleFrom sim.scheduler.rules sim.state).outcome with
      | error violation =>
          have hViolation := run_succ_of_violation hOutcome n
          rw [h] at hViolation
          cases hViolation
      | ok report =>
          rw [run_succ_of_ok hOutcome] at h
          exact (ih h).of_later

theorem getElem?_stats {sim : Simulation file} {place : Nat} {rule : Rule file}
    {stats : RuleStats} (hRule : sim.scheduler.rules[place]? = some rule)
    (hStats : sim.scheduler.stats[place]? = some stats) :
    sim.stats[place]? = some (rule.name, stats) := by
  rw [Scheduler.rules, List.getElem?_map] at hRule
  rw [Scheduler.stats, List.getElem?_map] at hStats
  rw [Simulation.stats, List.getElem?_map]
  cases hEntry : sim.scheduler.entries[place]? with
  | none => simp [hEntry] at hRule
  | some entry =>
      simp only [hEntry, Option.map_some, Option.some.injEq] at hRule hStats ⊢
      rw [hRule, hStats]

/-- Nothing but the values is handed from cycle to cycle. A cycle of given rules has the
same result on logs with the same values, whatever cycles the scheduler has been through,
on whatever logs and however they ended. A run of `m + n` cycles is a run of `m` and then
one of `n`. After `n` cycles the values are the `n`-th iterate of `nextState`, and every
rule has as many commits and aborts as there are `k < n` for which it commits or aborts in
the cycle from the `k`-th iterate. These cycles are completed unless one of the iterates
leads to a violation. -/
theorem run_memoryless (rules : List (Rule file)) :
    (∀ (past past' : List (Log file)) (log log' : Log file), log.state = log'.state →
        (((Scheduler.ofRules rules).after past).runCycle log).result =
          (((Scheduler.ofRules rules).after past').runCycle log').result) ∧
      (∀ (m n : Nat) (sim : Simulation file), run (m + n) sim =
        match run m sim with
        | (.ok (), later) => run n later
        | (.error violation, later) => (.error violation, later)) ∧
      ∀ (state : State file) (n : Nat), n < 2 ^ 64 →
        ((run n (ofState state rules)).1 = .ok () ↔
            ∀ k < n, ∃ report,
              (cycleFrom rules ((nextState rules)^[k] state)).outcome = .ok report) ∧
          ∀ sim, run n (ofState state rules) = (.ok (), sim) →
            sim.state = (nextState rules)^[n] state ∧ sim.cycle = n ∧
              ∀ (place : Nat) (rule : Rule file), rules[place]? = some rule →
                sim.stats[place]? = some (rule.name,
                  ⟨Nat.count (fun k => commitsAt rules place ((nextState rules)^[k] state)) n,
                    Nat.count (fun k => abortsAt rules place ((nextState rules)^[k] state))
                      n⟩) := by
  have hRules (state : State file) : (ofState state rules).scheduler.rules = rules :=
    Scheduler.rules_ofRules rules
  refine ⟨?_, run_add, ?_⟩
  · intro past past' log log' hState
    rw [Scheduler.result_runCycle, Scheduler.result_runCycle, Scheduler.rules_after,
      Scheduler.rules_after, hState]
  · intro state n hBound
    refine ⟨?_, fun sim hRun => ?_⟩
    · have hCompleted := run_fst_eq_ok_iff n (ofState state rules)
      rw [hRules] at hCompleted
      exact hCompleted
    · have hAhead := ahead_of_run hRun
      have hState := hAhead.state_eq
      have hCycle := hAhead.cycle_eq
      rw [hRules] at hState
      refine ⟨hState, hCycle.trans (Nat.zero_add n), fun place rule hRule => ?_⟩
      have hFresh : (ofState state rules).scheduler.stats[place]? = some {} := by
        rw [show (ofState state rules).scheduler.stats = rules.map fun _ => {} from
          Scheduler.stats_ofRules rules, List.getElem?_map, hRule]
        rfl
      have hStats := hAhead.stats_eq place {} hFresh (by simpa using hBound) (by simpa using hBound)
      rw [hRules, Nat.zero_add, Nat.zero_add] at hStats
      refine getElem?_stats ?_ hStats
      rw [hAhead.rules_eq, hRules]
      exact hRule

end Simulation

end Memoryless

namespace Collatz

/-- Looks at the counter when the running value is odd, and its footprint does not allow
that. -/
def pry : Rule file where
  name := "pry"
  footprint := .declared [x]
  body := do
    let value : Bits 32 ← Action.read0 x
    if value.bit 0 then do
      let _before ← Action.read0 steps
      pure ()
    else pure ()

/-- A rule that stops the cycle on odd values, one that commits and one that aborts. -/
def fragile : List (Rule file) :=
  [pry, { name := "divide", footprint := .whole, body := divide }, spill]

/-- The value 12, which can be halved twice. -/
def twelve : State file := ((Bits.ofNat128 32 12 : Bits 32), (Bits.zero 16 : Bits 16), ())

/-- A cycle from 27 is stopped and leaves the scheduler with half a cycle. A cycle from 12
on that scheduler, with a flag left in the log, is the one of a new scheduler. From 12 two
cycles are completed, and the third one is stopped at 3. -/
theorem run_memoryless_twelve :
    let odd := Log.initial file
    let flagged := (Log.ofState twelve).mark x .write1
    let sim := (Simulation.run 2 (Simulation.ofState twelve fragile)).2
    (((Scheduler.ofRules fragile).runCycle odd).outcome = .error ⟨"steps", .read0⟩ ∧
        flagged ≠ Log.ofState twelve ∧
        (((Scheduler.ofRules fragile).after [odd]).runCycle flagged).result =
          ((Scheduler.ofRules fragile).runCycle (Log.ofState twelve)).result) ∧
      Simulation.run 2 (Simulation.ofState twelve fragile) = (.ok (), sim) ∧
      sim.state = (nextState fragile)^[2] twelve ∧
      (sim.state.get x : Bits 32) = Bits.ofNat128 32 3 ∧
      sim.stats[0]? = some ("pry", ⟨2, 0⟩) ∧ sim.stats[2]? = some ("spill", ⟨0, 2⟩) ∧
      ¬ (Simulation.run 3 (Simulation.ofState twelve fragile)).1 = .ok () := by
  obtain ⟨hCycle, -, hRuns⟩ := Simulation.run_memoryless fragile
  obtain ⟨hTwo, hReached⟩ := hRuns twelve 2 (by decide)
  obtain ⟨hThree, -⟩ := hRuns twelve 3 (by decide)
  have hRun : Simulation.run 2 (Simulation.ofState twelve fragile) =
      (.ok (), (Simulation.run 2 (Simulation.ofState twelve fragile)).2) :=
    Prod.ext rfl rfl
  obtain ⟨hState, -, hStats⟩ := hReached _ hRun
  refine ⟨⟨rfl, by decide, hCycle [Log.initial file] [] _ _ rfl⟩, hRun, hState, rfl,
    hStats 0 pry rfl, hStats 2 spill rfl, fun hOk => ?_⟩
  obtain ⟨report, hReport⟩ := hThree.1 hOk 2 (by decide)
  cases hReport

end Collatz

end AtomicRules
