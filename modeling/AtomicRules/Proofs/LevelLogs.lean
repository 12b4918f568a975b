import AtomicRules.Proofs.Aborts
import AtomicRules.Proofs.Footprints

/-!
# The two logs are equal between rules

The tentative log is made equal to the committed one when a cycle begins, and it has to be so
again whenever a rule fires: what a rule is granted and what it reads is decided by both. A
commit and an undo copy only what the footprint names, so that they are equal everywhere is a
matter of what the body can have touched. `Scheduler.workAfter` is the loop of a cycle, stopped
when some of the rules have fired, and shows the two logs there.

## Main results

* `fireAll_append` — firing a list of rules is firing its front and then the rest, on what the
  front left.
* `Rule.fire_of_level` — one firing, on equal logs.
* `level_fireAll` — any number of firings.
* `Scheduler.level_between_rules` — the logs of a whole cycle.
-/

namespace AtomicRules

section LevelLogs

variable {file : RegisterFile} {start : State file}

/-! ### The loop in parts -/

/-- A list of rules is fired in parts: the front first and, unless that ends in a violation, the
rest on the workspace the front left. -/
theorem fireAll_append (start : State file) (front rest : List (Entry file))
    (work : Workspace file) (report : CycleReport) :
    let first := fireAll start front work report
    fireAll start (front ++ rest) work report =
      match first.outcome with
      | .error _ => { first with entries := first.entries ++ rest }
      | .ok reached =>
          let second := fireAll start rest first.work reached
          { second with
            entries := first.entries ++ second.entries
            firings := first.firings ++ second.firings } := by
  induction front generalizing work report with
  | nil => rfl
  | cons entry front ih =>
      simp only [List.cons_append, fireAll]
      cases hOutcome : (entry.rule.fire start work).1.outcome with
      | error violation => rfl
      | ok ending =>
          cases ending with
          | ok value =>
              simp only [ih]
              cases (fireAll start front (entry.rule.fire start work).2
                { report with committed := report.committed + 1 }).outcome <;> rfl
          | error conflict =>
              simp only [ih]
              cases (fireAll start front (entry.rule.fire start work).2
                { report with aborted := report.aborted + 1 }).outcome <;> rfl

theorem fireAll_append_of_ok {front : List (Entry file)} {work : Workspace file}
    {report reached : CycleReport}
    (h : (fireAll start front work report).outcome = .ok reached) (rest : List (Entry file)) :
    let first := fireAll start front work report
    let second := fireAll start rest first.work reached
    fireAll start (front ++ rest) work report =
      { second with
        entries := first.entries ++ second.entries
        firings := first.firings ++ second.firings } := by
  rw [fireAll_append]
  simp only [h]

/-- The first rule of a list makes the first firing. -/
theorem firings_fireAll_cons (start : State file) (entry : Entry file) (rest : List (Entry file))
    (work : Workspace file) (report : CycleReport) :
    ∃ later, (fireAll start (entry :: rest) work report).firings =
      (entry.rule.fire start work).1 :: later := by
  simp only [fireAll]
  split
  · exact ⟨[], rfl⟩
  · exact ⟨_, rfl⟩
  · exact ⟨_, rfl⟩

theorem ok_of_fireAll_cons {entry : Entry file} {rest : List (Entry file)}
    {work : Workspace file} {report final : CycleReport}
    (h : (fireAll start (entry :: rest) work report).outcome = .ok final) :
    ∃ ending, (entry.rule.fire start work).1.outcome = .ok ending := by
  simp only [fireAll] at h
  split at h
  · cases h
  · exact ⟨_, ‹_›⟩
  · exact ⟨_, ‹_›⟩

theorem work_fireAll_singleton (entry : Entry file) (work : Workspace file)
    (report : CycleReport) :
    (fireAll start [entry] work report).work = (entry.rule.fire start work).2 := by
  simp only [fireAll]
  split <;> rfl

/-- Where no rule violates its footprint, every rule fires. -/
theorem length_firings_of_ok {entries : List (Entry file)} {work : Workspace file}
    {report final : CycleReport} (h : (fireAll start entries work report).outcome = .ok final) :
    (fireAll start entries work report).firings.length = entries.length := by
  induction entries generalizing work report with
  | nil => rfl
  | cons entry rest ih =>
      simp only [fireAll] at h ⊢
      split at h
      · cases h
      · exact congrArg (· + 1) (ih h)
      · exact congrArg (· + 1) (ih h)

/-! ### Equal logs -/

/-- The two logs have the same values and the same flags. -/
def Workspace.IsLevel (work : Workspace file) : Prop := work.tentative = work.committed

/-- The run of a rule that fires on a workspace. -/
def Rule.runIn (rule : Rule file) (start : State file) (work : Workspace file) : Run file Unit :=
  rule.body.run start work.committed rule.footprint work.tentative work.journal.clear

/-- A rule that fires on equal logs leaves equal logs, unless it violates its footprint: both
are what its body left when it commits, and what it was given when it aborts. -/
theorem Rule.fire_of_level (rule : Rule file) (start : State file) {work : Workspace file}
    (h : work.IsLevel) :
    let run := rule.runIn start work
    let handed := (rule.fire start work).2
    (run.outcome = .ok (.ok ()) ∧ handed.tentative = run.tentative ∧
        handed.committed = run.tentative) ∨
      (∃ conflict, run.outcome = .ok (.error conflict) ∧ handed.tentative = work.committed ∧
        handed.committed = work.committed) ∨
      ∃ violation, run.outcome = .error violation := by
  obtain ⟨log, tentative, journal⟩ := work
  obtain rfl : tentative = log := h
  cases hFire : rule.fire start (Workspace.level tentative) with
  | mk firing work =>
      obtain ⟨last, left, hAttempts, hCases⟩ := Rule.fire_cases hFire
      have hHanded : (rule.fire start ⟨tentative, tentative, journal⟩).2 = work :=
        congrArg Prod.snd hFire
      obtain rfl : ⟨rule.name, (rule.runOn start tentative).outcome,
          (rule.runOn start tentative).events⟩ = firing := congrArg Prod.fst hFire
      have hLast : last = (rule.runOn start tentative).tentative :=
        Rule.eq_tentative_of_attempts hAttempts
      simp only [hHanded]
      rcases hCases with ⟨hOutcome, rfl⟩ | ⟨conflict, hOutcome, rfl⟩ | ⟨violation, hOutcome, -⟩
      · exact .inl ⟨hOutcome, hLast, hLast⟩
      · exact .inr (.inl ⟨conflict, hOutcome, rfl, rfl⟩)
      · exact .inr (.inr ⟨violation, hOutcome⟩)

/-- Rules that fire on equal logs leave equal logs. -/
theorem level_fireAll {entries : List (Entry file)} {work : Workspace file}
    {report final : CycleReport} (h : work.IsLevel)
    (hCompleted : (fireAll start entries work report).outcome = .ok final) :
    (fireAll start entries work report).work.IsLevel := by
  induction entries generalizing work report with
  | nil => exact h
  | cons entry rest ih =>
      have hHanded : ∀ ending, (entry.rule.fire start work).1.outcome = .ok ending →
          (entry.rule.fire start work).2.IsLevel := by
        intro ending hOutcome
        rcases entry.rule.fire_of_level start h with
          ⟨-, hTentative, hCommitted⟩ | ⟨-, -, hTentative, hCommitted⟩ | ⟨violation, hViolation⟩
        · exact hTentative.trans hCommitted.symm
        · exact hTentative.trans hCommitted.symm
        · cases hViolation.symm.trans hOutcome
      simp only [fireAll] at hCompleted ⊢
      split at hCompleted
      · cases hCompleted
      · exact ih (hHanded _ ‹_›) hCompleted
      · exact ih (hHanded _ ‹_›) hCompleted

/-! ### A cycle and its stages -/

namespace Scheduler

variable {scheduler : Scheduler file} {log : Log file}

/-- The logs and the journal that a cycle begins with. -/
def opening (scheduler : Scheduler file) (log : Log file) : Workspace file :=
  ⟨log.clearConflicts, scheduler.tentative.copyAll log.clearConflicts, scheduler.journal⟩

/-- The cycle, stopped when so many of its rules have fired. -/
def stage (scheduler : Scheduler file) (log : Log file) (count : Nat) : Round file :=
  fireAll log.state (scheduler.entries.take count) (scheduler.opening log) {}

/-- The logs and the journal when so many rules of a cycle have fired. -/
def workAfter (scheduler : Scheduler file) (log : Log file) (count : Nat) : Workspace file :=
  (scheduler.stage log count).work

theorem level_opening : (scheduler.opening log).IsLevel := rfl

theorem workAfter_length :
    let cycle := scheduler.runCycle log
    scheduler.workAfter log scheduler.rules.length =
      ⟨cycle.log, cycle.scheduler.tentative, cycle.scheduler.journal⟩ := by
  have hAll : scheduler.entries.take scheduler.rules.length = scheduler.entries :=
    List.take_of_length_le (Nat.le_of_eq (List.length_map _).symm)
  rw [workAfter, stage, hAll]
  rfl

/-- When a cycle is completed, so is each of its stages. -/
theorem exists_report_stage {report : CycleReport}
    (h : (scheduler.runCycle log).outcome = .ok report) (count : Nat) :
    ∃ reached, (scheduler.stage log count).outcome = .ok reached := by
  have hParts := fireAll_append log.state (scheduler.entries.take count)
    (scheduler.entries.drop count) (scheduler.opening log) {}
  rw [List.take_append_drop] at hParts
  cases hOutcome : (scheduler.stage log count).outcome with
  | ok reached => exact ⟨reached, rfl⟩
  | error violation =>
      have hCycle : (scheduler.runCycle log).outcome = .error violation := by
        rw [stage] at hOutcome
        simp only [hOutcome] at hParts
        exact congrArg Round.outcome hParts
      cases hCycle.symm.trans h

/-- The rule at a place comes after a front of as many rules. -/
theorem exists_entry_of_rules {place : Nat} {rule : Rule file}
    (hRule : scheduler.rules[place]? = some rule) :
    ∃ entry : Entry file, entry.rule = rule ∧
      (scheduler.entries.take place).length = place ∧
      scheduler.entries.take (place + 1) = scheduler.entries.take place ++ [entry] ∧
      scheduler.entries =
        scheduler.entries.take place ++ entry :: scheduler.entries.drop (place + 1) := by
  rw [rules, List.getElem?_map, Option.map_eq_some_iff] at hRule
  obtain ⟨entry, hEntry, rfl⟩ := hRule
  obtain ⟨hPlace, hGet⟩ := List.getElem?_eq_some_iff.mp hEntry
  refine ⟨entry, rfl, ?_, ?_, ?_⟩
  · rw [List.length_take, Nat.min_eq_left hPlace.le]
  · rw [List.take_add_one, hEntry]
    rfl
  · rw [← hGet, List.getElem_cons_drop, List.take_append_drop]

/-- From one stage of a completed cycle to the next, a rule fires on what the first one left. -/
theorem workAfter_succ {report : CycleReport} (h : (scheduler.runCycle log).outcome = .ok report)
    {place : Nat} {rule : Rule file} (hRule : scheduler.rules[place]? = some rule) :
    scheduler.workAfter log (place + 1) =
      (rule.fire log.state (scheduler.workAfter log place)).2 := by
  obtain ⟨reached, hReached⟩ := exists_report_stage h place
  obtain ⟨entry, rfl, -, hTake, -⟩ := exists_entry_of_rules hRule
  have hParts := fireAll_append_of_ok hReached [entry]
  rw [← hTake] at hParts
  exact (congrArg Round.work hParts).trans (work_fireAll_singleton entry _ reached)

/-- The firings of a completed cycle are those of its stages. -/
theorem getElem?_firings {report : CycleReport}
    (h : (scheduler.runCycle log).outcome = .ok report) {place : Nat} {rule : Rule file}
    (hRule : scheduler.rules[place]? = some rule) :
    let firing := (rule.fire log.state (scheduler.workAfter log place)).1
    (scheduler.runCycle log).firings[place]? = some firing ∧
      ∃ ending, firing.outcome = .ok ending := by
  obtain ⟨reached, hReached⟩ := exists_report_stage h place
  obtain ⟨entry, rfl, hLength, -, hSplit⟩ := exists_entry_of_rules hRule
  have hFront : (scheduler.stage log place).firings.length = place :=
    (length_firings_of_ok hReached).trans hLength
  have hParts := fireAll_append_of_ok hReached (entry :: scheduler.entries.drop (place + 1))
  rw [← hSplit] at hParts
  obtain ⟨later, hLater⟩ := firings_fireAll_cons log.state entry
    (scheduler.entries.drop (place + 1)) (scheduler.workAfter log place) reached
  have hFirings : (scheduler.runCycle log).firings =
      (scheduler.stage log place).firings ++
        (entry.rule.fire log.state (scheduler.workAfter log place)).1 :: later := by
    rw [← hLater]
    exact congrArg Round.firings hParts
  refine ⟨?_, ok_of_fireAll_cons ((congrArg Round.outcome hParts).symm.trans h)⟩
  rw [hFirings, List.getElem?_append_right hFront.le, hFront, Nat.sub_self, List.getElem?_cons_zero]

/-- In a completed cycle the tentative log has every value and every flag of the committed one,
at the start and after each firing. Every rule fires, on what the one before it handed on: when
it commits, both logs are as its body left the tentative one, and when it aborts, both are as the
committed one was before. -/
theorem level_between_rules (scheduler : Scheduler file) (log : Log file) {report : CycleReport}
    (hCompleted : (scheduler.runCycle log).outcome = .ok report) :
    let cycle := scheduler.runCycle log
    let work := scheduler.workAfter log
    work 0 = scheduler.opening log ∧
      work scheduler.rules.length =
        ⟨cycle.log, cycle.scheduler.tentative, cycle.scheduler.journal⟩ ∧
      (∀ count, (work count).IsLevel) ∧
      ∀ (place : Nat) (rule : Rule file), scheduler.rules[place]? = some rule →
        let found := work place
        let run := rule.runIn log.state found
        let handed := work (place + 1)
        rule.fire log.state found = (⟨rule.name, run.outcome, run.events⟩, handed) ∧
          cycle.firings[place]? = some ⟨rule.name, run.outcome, run.events⟩ ∧
          ((run.outcome = .ok (.ok ()) ∧ handed.tentative = run.tentative ∧
              handed.committed = run.tentative) ∨
            ∃ conflict, run.outcome = .ok (.error conflict) ∧
              handed.tentative = found.committed ∧ handed.committed = found.committed) := by
  have hLevel : ∀ count, (scheduler.workAfter log count).IsLevel := by
    intro count
    obtain ⟨reached, hReached⟩ := exists_report_stage hCompleted count
    exact level_fireAll level_opening hReached
  refine ⟨rfl, workAfter_length, hLevel, fun place rule hRule => ?_⟩
  have hHanded := workAfter_succ hCompleted hRule
  obtain ⟨hFiring, ending, hEnding⟩ := getElem?_firings hCompleted hRule
  refine ⟨Prod.ext rfl hHanded.symm, hFiring, ?_⟩
  rw [hHanded]
  rcases rule.fire_of_level log.state (hLevel place) with
    hCommitted | hAborted | ⟨violation, hViolation⟩
  · exact .inl hCommitted
  · exact .inr hAborted
  · cases hViolation.symm.trans hEnding

end Scheduler

end LevelLogs

namespace Collatz

/-- `spill`, which aborts, and then a rule with a footprint of each kind, on a log that has a
flag left from before. The last rule writes one of the registers, and declares that one only. -/
theorem level_between_rules_spilled :
    let scheduler := Scheduler.ofRules (spill :: rules.take 1 ++ narrowed.drop 1)
    let log := (Log.initial file).mark x .write1
    let work := scheduler.workAfter log
    let run := (narrowed[2]).runIn log.state (work 3)
    (scheduler.runCycle log).outcome = .ok ⟨3, 1⟩ ∧
      (∀ count, (work count).IsLevel) ∧
      (work 1).tentative = Log.initial file ∧ (work 1).committed = Log.initial file ∧
      (work 4).tentative = run.tentative ∧ (work 4).committed = run.tentative ∧
      run.tentative ≠ (work 3).committed := by
  have hCompleted : ((Scheduler.ofRules (spill :: rules.take 1 ++ narrowed.drop 1)).runCycle
      ((Log.initial file).mark x .write1)).outcome = .ok ⟨3, 1⟩ := rfl
  obtain ⟨-, -, hLevel, hFirings⟩ := Scheduler.level_between_rules _ _ hCompleted
  obtain ⟨-, -, hSpill⟩ := hFirings 0 spill rfl
  obtain ⟨-, -, hMultiply⟩ := hFirings 3 narrowed[2] rfl
  refine ⟨hCompleted, hLevel, ?_⟩
  rcases hSpill with ⟨hCommitted, -⟩ | ⟨conflict, -, hTentative, hCommitted⟩
  · cases hCommitted
  · refine ⟨hTentative, hCommitted, ?_⟩
    rcases hMultiply with ⟨-, hTentative, hCommitted⟩ | ⟨conflict, hAborted, -⟩
    · exact ⟨hTentative, hCommitted, by decide⟩
    · cases hAborted

end Collatz

end AtomicRules
