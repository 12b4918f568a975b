import AtomicRules.Proofs.Attempts
import AtomicRules.Scheduler

/-!
# A cycle as a sweep over one log

Between two rules the committed and the tentative log are equal, and the journal
is emptied before it is used. So a cycle needs no working storage to be
described: `sweep` carries a single log from rule to rule, and everything a
cycle reports — firings, committed log, counts, statistics — is read off it.

## Main results

* `Rule.fire_cases` — all that a firing can do: a committed rule leaves both logs
  as its body left the tentative one, an aborted rule leaves both as they were.
* `sweep_cons` — a sweep rule by rule, one case for each way a firing can end.
* `sweep_split` — a firing in the middle of a sweep is the firing of its rule on
  the log that the rules before it left.
* `Scheduler.runCycle_firings`, `Scheduler.runCycle_log`,
  `Scheduler.runCycle_outcome`, `Scheduler.rules_runCycle`,
  `Scheduler.stats_runCycle` — a cycle is a sweep from its start values.
* `Scheduler.exists_rule_fire`, `Scheduler.exists_attempt` — a firing of a cycle is
  the one of its rule on the log that the rules before it left, and an access of it
  is an attempt on that log and on what the firing had made of it by then.
-/

namespace AtomicRules

variable {file : RegisterFile}

/-! ### Firing one rule -/

/-- A workspace whose two logs are the same. -/
def Workspace.level (log : Log file) : Workspace file := ⟨log, log, Journal.empty⟩

theorem Footprint.commit_eq (footprint : Footprint file) (work : Workspace file)
    (h : ∀ reg, ¬ footprint.Copies work.journal reg →
      work.tentative.AgreesAt work.committed reg) :
    footprint.commit work = { work with committed := work.tentative } := by
  cases footprint with
  | whole => rfl
  | declared regs =>
      have hCopy : work.committed.copyRegisters work.tentative regs = work.tentative :=
        Log.copyRegisters_eq_source fun reg hNot => (h reg hNot).symm
      simp only [commit, hCopy]
  | dynamic =>
      have hCopy : work.journal.replay work.committed work.tentative = work.tentative :=
        Journal.replay_eq_source fun reg hNot => (h reg hNot).symm
      simp only [commit, hCopy]

theorem Footprint.undo_eq (footprint : Footprint file) (work : Workspace file)
    (h : ∀ reg, ¬ footprint.Copies work.journal reg →
      work.tentative.AgreesAt work.committed reg) :
    footprint.undo work = { work with tentative := work.committed } := by
  cases footprint with
  | whole => rfl
  | declared regs =>
      have hCopy : work.tentative.copyRegisters work.committed regs = work.committed :=
        Log.copyRegisters_eq_source h
      simp only [undo, hCopy]
  | dynamic =>
      have hCopy : work.journal.unwind work.tentative work.committed = work.committed :=
        Journal.unwind_eq_source h
      simp only [undo, hCopy]

/-- The run of a rule that fires on equal logs. -/
def Rule.runOn (rule : Rule file) (start : State file) (log : Log file) : Run file Unit :=
  rule.body.run start log rule.footprint log Journal.empty

theorem Rule.fire_level_fst (rule : Rule file) (start : State file) (log : Log file) :
    (rule.fire start (Workspace.level log)).1 =
      ⟨rule.name, (rule.runOn start log).outcome, (rule.runOn start log).events⟩ := rfl

/-- What a rule left in the journal does not reach the next one. -/
theorem Rule.fire_level (rule : Rule file) (start : State file) (log : Log file)
    (journal : Journal file) :
    rule.fire start ⟨log, log, journal⟩ = rule.fire start (Workspace.level log) := rfl

/-- All that a firing on equal logs can do. Its events are attempts on the log it
started from; then either both logs are as the last attempt left the tentative
one, or both are as before, or the footprint was violated and the committed log
is as before. -/
theorem Rule.fire_cases {rule : Rule file} {start : State file} {log : Log file}
    {firing : Firing file} {work : Workspace file}
    (h : rule.fire start (Workspace.level log) = (firing, work)) :
    ∃ (last : Log file) (journal : Journal file),
      attemptAll start log log (firing.events.map Event.access) = (firing.events, last) ∧
        ((firing.outcome = .ok (.ok ()) ∧ work = ⟨last, last, journal⟩) ∨
          (∃ conflict, firing.outcome = .ok (.error conflict) ∧ work = ⟨log, log, journal⟩) ∨
          ∃ violation, firing.outcome = .error violation ∧ work = ⟨log, last, journal⟩) := by
  have hAttempts := Action.attemptAll_run start log rule.footprint rule.body log Journal.empty
  have hAgrees := Action.run_agreesAt start log rule.footprint rule.body
    fun reg (_ : ¬ rule.footprint.Copies Journal.empty reg) => Log.AgreesAt.refl log reg
  simp only [Rule.fire, Workspace.level, Journal.clear, Prod.mk.injEq] at h
  generalize rule.body.run start log rule.footprint log Journal.empty = run
    at h hAttempts hAgrees
  obtain ⟨rfl, rfl⟩ := h
  refine ⟨run.tentative, run.journal, hAttempts, ?_⟩
  cases hOutcome : run.outcome with
  | ok ending =>
      cases ending with
      | ok value =>
          exact Or.inl ⟨rfl, Footprint.commit_eq _ _ hAgrees⟩
      | error conflict =>
          exact Or.inr (Or.inl ⟨conflict, rfl, Footprint.undo_eq _ _ hAgrees⟩)
  | error violation => exact Or.inr (Or.inr ⟨violation, rfl, rfl⟩)

/-- The log that the attempts of a firing lead to is the one its run left. -/
theorem Rule.eq_tentative_of_attempts {rule : Rule file} {start : State file} {log last : Log file}
    (h : attemptAll start log log ((rule.runOn start log).events.map Event.access) =
      ((rule.runOn start log).events, last)) :
    last = (rule.runOn start log).tentative := by
  have hRun := Action.attemptAll_run start log rule.footprint rule.body log Journal.empty
  exact (congrArg Prod.snd h).symm.trans (congrArg Prod.snd hRun)

/-! ### Firing all rules -/

/-- The rule committed. -/
def Firing.committed (firing : Firing file) : Bool :=
  match firing.outcome with
  | .ok (.ok ()) => true
  | _ => false

/-- The rule ended in conflict. -/
def Firing.aborted (firing : Firing file) : Bool :=
  match firing.outcome with
  | .ok (.error _) => true
  | _ => false

theorem Firing.committed_of_ok {firing : Firing file} (h : firing.outcome = .ok (.ok ())) :
    firing.committed = true := by
  rw [committed, h]

theorem Firing.committed_of_conflict {firing : Firing file} {conflict : Conflict}
    (h : firing.outcome = .ok (.error conflict)) : firing.committed = false := by
  rw [committed, h]

theorem Firing.committed_of_violation {firing : Firing file} {violation : FootprintViolation}
    (h : firing.outcome = .error violation) : firing.committed = false := by
  rw [committed, h]

/-- Fires rules one after the other on one log, up to a violation: the firings and
the committed log they leave. -/
def sweep (start : State file) : List (Rule file) → Log file → List (Firing file) × Log file
  | [], log => ([], log)
  | rule :: rest, log =>
      let fired := rule.fire start (Workspace.level log)
      match fired.1.outcome with
      | .error _ => ([fired.1], fired.2.committed)
      | .ok _ =>
          let swept := sweep start rest fired.2.committed
          (fired.1 :: swept.1, swept.2)

@[simp] theorem sweep_nil (start : State file) (log : Log file) :
    sweep start [] log = ([], log) := rfl

/-- The first rule of a sweep commits, and the others go on from what its last
attempt left; or it aborts, and they go on as if it had not been there; or it
violates its footprint, and nothing follows. -/
theorem sweep_cons (start : State file) (rule : Rule file) (log : Log file) :
    ∃ (firing : Firing file) (last : Log file),
      (rule.fire start (Workspace.level log)).1 = firing ∧
      attemptAll start log log (firing.events.map Event.access) = (firing.events, last) ∧
        ((firing.outcome = .ok (.ok ()) ∧
            ∀ rest, sweep start (rule :: rest) log =
              (firing :: (sweep start rest last).1, (sweep start rest last).2)) ∨
          (∃ conflict, firing.outcome = .ok (.error conflict) ∧
            ∀ rest, sweep start (rule :: rest) log =
              (firing :: (sweep start rest log).1, (sweep start rest log).2)) ∨
          ∃ violation, firing.outcome = .error violation ∧
            ∀ rest, sweep start (rule :: rest) log = ([firing], log)) := by
  cases hFire : rule.fire start (Workspace.level log) with
  | mk firing work =>
      obtain ⟨last, journal, hAttempts, hCases⟩ := Rule.fire_cases hFire
      refine ⟨firing, last, rfl, hAttempts, ?_⟩
      rcases hCases with ⟨hOutcome, rfl⟩ | ⟨conflict, hOutcome, rfl⟩ |
        ⟨violation, hOutcome, rfl⟩
      · refine Or.inl ⟨hOutcome, fun rest => ?_⟩
        simp only [sweep, hFire, hOutcome]
      · refine Or.inr (Or.inl ⟨conflict, hOutcome, fun rest => ?_⟩)
        simp only [sweep, hFire, hOutcome]
      · refine Or.inr (Or.inr ⟨violation, hOutcome, fun rest => ?_⟩)
        simp only [sweep, hFire, hOutcome]

/-- A firing in the middle of a sweep is the one of the rule at its place, on the
log that a sweep over the rules before it leaves. -/
theorem sweep_split {start : State file} {rules : List (Rule file)} {log : Log file}
    {before after : List (Firing file)} {firing : Firing file}
    (h : (sweep start rules log).1 = before ++ firing :: after) :
    ∃ (rule : Rule file) (between : Log file),
      rules[before.length]? = some rule ∧
        sweep start (rules.take before.length) log = (before, between) ∧
        (rule.fire start (Workspace.level between)).1 = firing := by
  induction rules generalizing log before with
  | nil => simp at h
  | cons rule rest ih =>
      obtain ⟨first, last, hFire, -, hCases⟩ := sweep_cons start rule log
      cases before with
      | nil =>
          refine ⟨rule, log, rfl, rfl, ?_⟩
          rcases hCases with ⟨-, hSweep⟩ | ⟨-, -, hSweep⟩ | ⟨-, -, hSweep⟩ <;>
            · rw [hSweep rest] at h
              exact hFire.trans (List.cons.inj h).1
      | cons head before =>
          rcases hCases with ⟨-, hSweep⟩ | ⟨-, -, hSweep⟩ | ⟨-, -, hSweep⟩
          · rw [hSweep rest] at h
            obtain ⟨rfl, hTail⟩ := List.cons.inj h
            obtain ⟨found, between, hFound, hBefore, hFiring⟩ := ih hTail
            refine ⟨found, between, hFound, ?_, hFiring⟩
            simp only [List.length_cons, List.take_succ_cons, hSweep, hBefore]
          · rw [hSweep rest] at h
            obtain ⟨rfl, hTail⟩ := List.cons.inj h
            obtain ⟨found, between, hFound, hBefore, hFiring⟩ := ih hTail
            refine ⟨found, between, hFound, ?_, hFiring⟩
            simp only [List.length_cons, List.take_succ_cons, hSweep, hBefore]
          · rw [hSweep rest] at h
            simp at h

/-! ### A cycle is a sweep -/

/-- The report of a cycle with given firings, counting on from another one. -/
def tally : List (Firing file) → CycleReport → Except FootprintViolation CycleReport
  | [], report => .ok report
  | firing :: rest, report =>
      match firing.outcome with
      | .error violation => .error violation
      | .ok (.ok ()) => tally rest { report with committed := report.committed + 1 }
      | .ok (.error _) => tally rest { report with aborted := report.aborted + 1 }

/-- The statistics of a rule after a firing; a violation is not counted. -/
def RuleStats.record (stats : RuleStats) (firing : Firing file) : RuleStats :=
  match firing.outcome with
  | .error _ => stats
  | .ok (.ok ()) => stats.commit
  | .ok (.error _) => stats.abort

/-- The statistics of all rules after the firings of a cycle. Rules that a
violation kept from firing have no firing. -/
def recordAll : List RuleStats → List (Firing file) → List RuleStats
  | stats :: rest, firing :: firings => stats.record firing :: recordAll rest firings
  | stats, _ => stats

@[simp] theorem recordAll_nil (stats : List RuleStats) :
    recordAll stats ([] : List (Firing file)) = stats := by
  cases stats <;> rfl

/-- Firing all rules from equal logs is a sweep, whatever the journal holds. -/
theorem fireAll_eq_sweep (start : State file) (entries : List (Entry file)) (log : Log file)
    (journal : Journal file) (report : CycleReport) {round : Round file}
    (hRound : fireAll start entries ⟨log, log, journal⟩ report = round)
    {firings : List (Firing file)} {final : Log file}
    (hSweep : sweep start (entries.map Entry.rule) log = (firings, final)) :
    round.firings = firings ∧ round.work.committed = final ∧
      round.outcome = tally firings report ∧
      round.entries.map Entry.rule = entries.map Entry.rule ∧
      round.entries.map Entry.stats = recordAll (entries.map Entry.stats) firings := by
  induction entries generalizing log journal report round firings final with
  | nil =>
      obtain ⟨rfl, rfl⟩ := Prod.mk.inj hSweep
      subst hRound
      exact ⟨rfl, rfl, rfl, rfl, rfl⟩
  | cons entry rest ih =>
      cases hFire : entry.rule.fire start (Workspace.level log) with
      | mk firing work =>
          obtain ⟨last, left, -, hCases⟩ := Rule.fire_cases hFire
          -- a rule that did not violate its footprint leaves equal logs again
          rcases hCases with ⟨hOutcome, rfl⟩ | ⟨conflict, hOutcome, rfl⟩ |
            ⟨violation, hOutcome, rfl⟩
          · obtain ⟨h1, h2, h3, h4, h5⟩ := ih last left
              { report with committed := report.committed + 1 } rfl rfl
            simp only [List.map_cons, sweep, hFire, hOutcome, Prod.mk.injEq] at hSweep
            obtain ⟨rfl, rfl⟩ := hSweep
            simp only [fireAll, Rule.fire_level, hFire, hOutcome] at hRound
            subst hRound
            simp only [List.map_cons, tally, recordAll, RuleStats.record, hOutcome,
              h1, h2, h3, h4, h5, and_self]
          · obtain ⟨h1, h2, h3, h4, h5⟩ := ih log left
              { report with aborted := report.aborted + 1 } rfl rfl
            simp only [List.map_cons, sweep, hFire, hOutcome, Prod.mk.injEq] at hSweep
            obtain ⟨rfl, rfl⟩ := hSweep
            simp only [fireAll, Rule.fire_level, hFire, hOutcome] at hRound
            subst hRound
            simp only [List.map_cons, tally, recordAll, RuleStats.record, hOutcome,
              h1, h2, h3, h4, h5, and_self]
          · simp only [List.map_cons, sweep, hFire, hOutcome, Prod.mk.injEq] at hSweep
            obtain ⟨rfl, rfl⟩ := hSweep
            simp only [fireAll, Rule.fire_level, hFire, hOutcome] at hRound
            subst hRound
            simp only [List.map_cons, tally, recordAll, recordAll_nil, RuleStats.record, hOutcome,
              and_self]

namespace Scheduler

variable (scheduler : Scheduler file) (log : Log file)

/-- The sweep that a cycle makes. It depends on the rules and on the values of the
log alone. -/
def swept : List (Firing file) × Log file :=
  sweep log.state scheduler.rules (Log.ofState log.state)

private theorem runCycle_spec :
    (scheduler.runCycle log).firings = (scheduler.swept log).1 ∧
      (scheduler.runCycle log).log = (scheduler.swept log).2 ∧
      (scheduler.runCycle log).outcome = tally (scheduler.swept log).1 {} ∧
      (scheduler.runCycle log).scheduler.rules = scheduler.rules ∧
      (scheduler.runCycle log).scheduler.stats =
        recordAll scheduler.stats (scheduler.swept log).1 :=
  fireAll_eq_sweep log.state scheduler.entries (Log.ofState log.state) scheduler.journal {} rfl rfl

theorem runCycle_firings : (scheduler.runCycle log).firings = (scheduler.swept log).1 :=
  (scheduler.runCycle_spec log).1

theorem runCycle_log : (scheduler.runCycle log).log = (scheduler.swept log).2 :=
  (scheduler.runCycle_spec log).2.1

theorem runCycle_outcome :
    (scheduler.runCycle log).outcome = tally (scheduler.swept log).1 {} :=
  (scheduler.runCycle_spec log).2.2.1

theorem rules_runCycle : (scheduler.runCycle log).scheduler.rules = scheduler.rules :=
  (scheduler.runCycle_spec log).2.2.2.1

theorem stats_runCycle :
    (scheduler.runCycle log).scheduler.stats =
      recordAll scheduler.stats (scheduler.swept log).1 :=
  (scheduler.runCycle_spec log).2.2.2.2

/-! ### The middle of a cycle -/

/-- The scheduler with the first rules only. -/
def front (count : Nat) : Scheduler file :=
  { scheduler with entries := scheduler.entries.take count }

/-- The committed log that the rule at a place finds when it fires: what a cycle of
the rules before it leaves. -/
def committedBefore (place : Nat) : Log file := ((scheduler.front place).runCycle log).log

variable {scheduler log} {before after : List (Firing file)} {firing : Firing file}

/-- A firing of a cycle is the one of the rule at its place, with both logs as a sweep
over the rules before it left the committed one. -/
theorem exists_rule_fire (h : (scheduler.runCycle log).firings = before ++ firing :: after) :
    ∃ rule, scheduler.rules[before.length]? = some rule ∧
      sweep log.state (scheduler.rules.take before.length) (Log.ofState log.state) =
        (before, scheduler.committedBefore log before.length) ∧
      (rule.fire log.state
        (Workspace.level (scheduler.committedBefore log before.length))).1 = firing := by
  rw [runCycle_firings] at h
  obtain ⟨rule, between, hRule, hBefore, hFire⟩ := sweep_split h
  have hRules : (scheduler.front before.length).rules = scheduler.rules.take before.length :=
    List.map_take
  obtain rfl : scheduler.committedBefore log before.length = between := by
    rw [committedBefore, runCycle_log, swept, hRules, hBefore]
  exact ⟨rule, hRule, hBefore, hFire⟩

/-- An access of a cycle is an attempt on two logs: the committed one is what the
rules before left, the tentative one what the earlier accesses of the rule made of it. -/
theorem exists_attempt (hFirings : (scheduler.runCycle log).firings = before ++ firing :: after)
    {earlier later : List (Event file)} {event : Event file}
    (hEvents : firing.events = earlier ++ event :: later) :
    ∃ tentative : Log file,
      attemptAll log.state (scheduler.committedBefore log before.length)
          (scheduler.committedBefore log before.length) (earlier.map Event.access) =
        (earlier, tentative) ∧
      event = ⟨event.access, (event.access.attempt log.state
        (scheduler.committedBefore log before.length) tentative).1⟩ := by
  obtain ⟨rule, -, -, hFire⟩ := exists_rule_fire hFirings
  obtain ⟨fired, last, hFired, hAttempts, -⟩ :=
    sweep_cons log.state rule (scheduler.committedBefore log before.length)
  obtain rfl : firing = fired := hFire.symm.trans hFired
  exact attemptAll_split ((congrArg Prod.fst hAttempts).trans hEvents)

end Scheduler

end AtomicRules
