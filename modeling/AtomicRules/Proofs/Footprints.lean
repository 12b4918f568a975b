import Mathlib.Data.List.TakeWhile
import AtomicRules.Design.Collatz
import AtomicRules.Proofs.Sweep

/-!
# Footprints do not show

Copying the whole file, a declared list or the journaled registers comes to the
same. The yardstick is the scheduler in which every rule copies the whole file:
it goes through the same cycles as any other one with the same bodies, as long as
no rule leaves its declared registers. Where one does, the cycles are the same up
to that attempt, and there they end.

## Main results

* `Action.run_confined` — a run under a footprint is the run without one, cut off
  before the first attempt that the footprint does not admit.
* `sweep_cons_of_same_firing` — rules that make the same firing hand on the same
  log, however they copy.
* `sweep_of_covered`, `sweep_confined` — a sweep against the one in which every
  rule copies the whole file.
* `Scheduler.cycles_of_footprints` — any number of cycles under two choices of
  footprints.
-/

namespace AtomicRules

section Confinement

variable {file : RegisterFile} {α : Type} {start : State file} {log : Log file}

/-! ### One run -/

/-- The footprint admits an access. Only a declared list can leave a register out. -/
def Footprint.admits (footprint : Footprint file) (access : Access file) : Bool :=
  match footprint with
  | .whole => true
  | .declared regs => regs.contains access.reg
  | .dynamic => true

/-- The violation that an access is when it is not admitted. -/
def Access.violation (access : Access file) : FootprintViolation :=
  ⟨(file.nameOf access.reg).text, access.port⟩

theorem Footprint.track_of_admits {footprint : Footprint file} {access : Access file}
    (h : footprint.admits access = true) (journal : Journal file) :
    ∃ journal', footprint.track journal access = .ok journal' := by
  cases footprint with
  | whole => exact ⟨journal, rfl⟩
  | declared regs => exact ⟨journal, if_pos h⟩
  | dynamic => exact ⟨_, rfl⟩

theorem Footprint.track_of_not_admits {footprint : Footprint file} {access : Access file}
    (h : footprint.admits access = false) (journal : Journal file) :
    footprint.track journal access = .error access.violation := by
  cases footprint with
  | whole => cases h
  | declared regs => exact if_neg (Bool.eq_false_iff.1 h)
  | dynamic => cases h

/-- How a run ends under a footprint, from what it does without one: the first
attempt that is not admitted stops it. -/
def Footprint.confinedOutcome (footprint : Footprint file) (events : List (Event file))
    (outcome : Except FootprintViolation (Except Conflict α)) :
    Except FootprintViolation (Except Conflict α) :=
  match events.find? fun event => !footprint.admits event.access with
  | none => outcome
  | some event => .error event.access.violation

/-- Footprint and journal change nothing in a run but where it is cut off. -/
theorem Action.run_confined (start : State file) (committed : Log file)
    (footprint : Footprint file) (action : Action file α) (tentative : Log file)
    (journal unused : Journal file) :
    let free := action.run start committed .whole tentative unused
    let run := action.run start committed footprint tentative journal
    run.outcome = footprint.confinedOutcome free.events free.outcome ∧
      run.events = free.events.takeWhile fun event => footprint.admits event.access := by
  induction action generalizing tentative journal unused with
  | done value => exact ⟨rfl, rfl⟩
  | fail conflict => exact ⟨rfl, rfl⟩
  | access a next ih =>
      simp only [run, Footprint.track_whole]
      cases hAdmits : footprint.admits a with
      | true =>
          obtain ⟨journal', hTrack⟩ := Footprint.track_of_admits hAdmits journal
          obtain ⟨hOutcome, hEvents⟩ := ih (a.attempt start committed tentative).1
            (a.attempt start committed tentative).2 journal' unused
          simp only [hTrack, hOutcome, hEvents, Footprint.confinedOutcome, hAdmits,
            List.find?_cons, List.takeWhile_cons, Bool.not_true, if_true, and_self]
      | false =>
          simp only [Footprint.track_of_not_admits hAdmits journal, Footprint.confinedOutcome,
            hAdmits, List.find?_cons, List.takeWhile_cons, Bool.not_false, Bool.false_eq_true,
            if_false, and_self]

theorem Action.run_whole_outcome (start : State file) (committed : Log file)
    (action : Action file α) (tentative : Log file) (journal : Journal file) :
    ∃ ending, (action.run start committed .whole tentative journal).outcome = .ok ending := by
  induction action generalizing tentative journal with
  | done value => exact ⟨_, rfl⟩
  | fail conflict => exact ⟨_, rfl⟩
  | access a next ih => exact ih _ _ _

/-! ### One firing -/

/-- The rule, copying the whole file. -/
def Rule.unrestricted (rule : Rule file) : Rule file := { rule with footprint := .whole }

/-- What a firing without a footprint becomes under one. -/
def Footprint.confine (footprint : Footprint file) (firing : Firing file) : Firing file :=
  { firing with
    outcome := footprint.confinedOutcome firing.events firing.outcome
    events := firing.events.takeWhile fun event => footprint.admits event.access }

/-- Every access attempted in a firing is admitted by a footprint. -/
def Footprint.Covers (footprint : Footprint file) (firing : Firing file) : Prop :=
  ∀ event ∈ firing.events, footprint.admits event.access = true

instance (footprint : Footprint file) (firing : Firing file) :
    Decidable (footprint.Covers firing) :=
  inferInstanceAs (Decidable (∀ event ∈ firing.events, _))

theorem Footprint.confine_of_covers {footprint : Footprint file} {firing : Firing file}
    (h : footprint.Covers firing) : footprint.confine firing = firing := by
  have hFind : firing.events.find? (fun event => !footprint.admits event.access) = none :=
    List.find?_eq_none.2 fun event hMem => by simp [h event hMem]
  have hTake : firing.events.takeWhile (fun event => footprint.admits event.access) =
      firing.events :=
    List.takeWhile_eq_self_iff.2 h
  simp only [confine, confinedOutcome, hFind, hTake]

theorem Footprint.confine_of_not_covers {footprint : Footprint file} {firing : Firing file}
    (h : ¬ footprint.Covers firing) :
    ∃ violation, (footprint.confine firing).outcome = .error violation := by
  simp only [confine, confinedOutcome]
  cases hFind : firing.events.find? fun event => !footprint.admits event.access with
  | none =>
      refine absurd (fun event hMem => ?_) h
      simpa using List.find?_eq_none.1 hFind event hMem
  | some event => exact ⟨_, rfl⟩

theorem Rule.fire_confined (rule : Rule file) (start : State file) (log : Log file) :
    (rule.fire start (Workspace.level log)).1 =
      rule.footprint.confine (rule.unrestricted.fire start (Workspace.level log)).1 := by
  obtain ⟨hOutcome, hEvents⟩ := Action.run_confined start log rule.footprint rule.body log
    Journal.empty Journal.empty
  rw [fire_level_fst, fire_level_fst, runOn, hOutcome, hEvents]
  rfl

theorem Rule.fire_unrestricted_outcome (rule : Rule file) (start : State file) (log : Log file) :
    ∃ ending, (rule.unrestricted.fire start (Workspace.level log)).1.outcome = .ok ending :=
  Action.run_whole_outcome start log rule.body log Journal.empty

/-! ### One sweep -/

/-- What the firings of a cycle without footprints become under given ones. -/
def confineAll : List (Footprint file) → List (Firing file) → List (Firing file)
  | footprint :: rest, firing :: firings =>
      let confined := footprint.confine firing
      match confined.outcome with
      | .error _ => [confined]
      | .ok _ => confined :: confineAll rest firings
  | _, _ => []

/-- No rule leaves its footprint in a cycle. -/
def AllCovered : List (Footprint file) → List (Firing file) → Prop
  | footprint :: rest, firing :: firings => footprint.Covers firing ∧ AllCovered rest firings
  | _, _ => True

instance decidableAllCovered :
    (footprints : List (Footprint file)) → (firings : List (Firing file)) →
      Decidable (AllCovered footprints firings)
  | footprint :: rest, firing :: firings =>
      have := decidableAllCovered rest firings
      inferInstanceAs (Decidable (footprint.Covers firing ∧ AllCovered rest firings))
  | [], _ => isTrue trivial
  | _ :: _, [] => isTrue trivial

/-- A rule that does not violate its footprint hands on a log, and every rule that
makes the same firing hands on the same one, however it copies. -/
theorem sweep_cons_of_same_firing {rule : Rule file} {firing : Firing file}
    {ending : Except Conflict Unit} (hOutcome : firing.outcome = .ok ending)
    (hFire : (rule.fire start (Workspace.level log)).1 = firing) :
    ∃ handed, ∀ other : Rule file, (other.fire start (Workspace.level log)).1 = firing →
      ∀ rest, sweep start (other :: rest) log =
        (firing :: (sweep start rest handed).1, (sweep start rest handed).2) := by
  obtain ⟨made, last, rfl, hAttempts, hCases⟩ := sweep_cons start rule log
  rw [hFire] at hAttempts hCases
  rcases hCases with ⟨hEnd, -⟩ | ⟨conflict, hEnd, -⟩ | ⟨violation, hEnd, -⟩
  · refine ⟨last, fun other hOther => ?_⟩
    obtain ⟨made, last', rfl, hAttempts', hCases'⟩ := sweep_cons start other log
    rw [hOther] at hAttempts' hCases'
    -- the same attempts from the same log lead to the same log
    obtain rfl : last = last' := congrArg Prod.snd (hAttempts.symm.trans hAttempts')
    rcases hCases' with ⟨-, hSweep⟩ | ⟨conflict, hEnd', -⟩ | ⟨violation, hEnd', -⟩
    · exact hSweep
    · simp [hEnd] at hEnd'
    · simp [hEnd] at hEnd'
  · refine ⟨log, fun other hOther => ?_⟩
    obtain ⟨made, last', rfl, -, hCases'⟩ := sweep_cons start other log
    rw [hOther] at hCases'
    rcases hCases' with ⟨hEnd', -⟩ | ⟨-, -, hSweep⟩ | ⟨violation, hEnd', -⟩
    · simp [hEnd] at hEnd'
    · exact hSweep
    · simp [hEnd] at hEnd'
  · simp [hOutcome] at hEnd

/-- Rules that keep to their footprints can as well copy the whole file. -/
theorem sweep_of_covered (rules : List (Rule file)) {log : Log file}
    (h : AllCovered (rules.map Rule.footprint)
      (sweep start (rules.map Rule.unrestricted) log).1) :
    sweep start rules log = sweep start (rules.map Rule.unrestricted) log := by
  induction rules generalizing log with
  | nil => rfl
  | cons rule rest ih =>
      obtain ⟨ending, hEnding⟩ := rule.fire_unrestricted_outcome start log
      obtain ⟨handed, hSweep⟩ := sweep_cons_of_same_firing hEnding rfl
      have hFree := hSweep rule.unrestricted rfl (rest.map Rule.unrestricted)
      rw [List.map_cons, List.map_cons, hFree] at h
      obtain ⟨hCovers, hRest⟩ := h
      have hSame := (rule.fire_confined start log).trans (Footprint.confine_of_covers hCovers)
      rw [List.map_cons, hFree, hSweep rule hSame rest, ih hRest]

/-- The firings of a sweep are those without footprints, confined to the given
ones. -/
theorem sweep_confined (rules : List (Rule file)) (log : Log file) :
    (sweep start rules log).1 =
      confineAll (rules.map Rule.footprint)
        (sweep start (rules.map Rule.unrestricted) log).1 := by
  induction rules generalizing log with
  | nil => rfl
  | cons rule rest ih =>
      have hConfined := rule.fire_confined start log
      obtain ⟨ending, hEnding⟩ := rule.fire_unrestricted_outcome start log
      obtain ⟨handed, hSweep⟩ := sweep_cons_of_same_firing hEnding rfl
      rw [List.map_cons, List.map_cons, hSweep rule.unrestricted rfl]
      simp only [confineAll]
      by_cases hCovers : rule.footprint.Covers
          (rule.unrestricted.fire start (Workspace.level log)).1
      · have hSame := hConfined.trans (Footprint.confine_of_covers hCovers)
        rw [hSweep rule hSame rest, Footprint.confine_of_covers hCovers]
        simp only [hEnding, ih handed]
      · obtain ⟨violation, hViolation⟩ := Footprint.confine_of_not_covers hCovers
        obtain ⟨made, last, rfl, -, hCases⟩ := sweep_cons start rule log
        rw [hConfined] at hCases
        simp only [hViolation] at hCases ⊢
        rcases hCases with ⟨hEnd, -⟩ | ⟨conflict, hEnd, -⟩ | ⟨_, -, hStop⟩
        · cases hEnd
        · cases hEnd
        · rw [hStop rest]

/-! ### Many cycles -/

theorem covered_of_tally {footprints : List (Footprint file)} {firings : List (Firing file)}
    {report final : CycleReport} (h : tally (confineAll footprints firings) report = .ok final) :
    AllCovered footprints firings := by
  induction footprints generalizing firings report with
  | nil => trivial
  | cons footprint rest ih =>
      cases firings with
      | nil => trivial
      | cons firing firings =>
          simp only [confineAll] at h
          by_cases hCovers : footprint.Covers firing
          · refine ⟨hCovers, ?_⟩
            rw [Footprint.confine_of_covers hCovers] at h
            cases hOutcome : firing.outcome with
            | error violation => simp [tally, hOutcome] at h
            | ok ending =>
                cases ending with
                | ok value =>
                    simp only [tally, hOutcome] at h
                    exact ih h
                | error conflict =>
                    simp only [tally, hOutcome] at h
                    exact ih h
          · obtain ⟨violation, hViolation⟩ := Footprint.confine_of_not_covers hCovers
            simp [tally, hViolation] at h

theorem tally_sweep_unrestricted (rules : List (Rule file)) (log : Log file)
    (report : CycleReport) :
    ∃ final, tally (sweep start (rules.map Rule.unrestricted) log).1 report = .ok final := by
  induction rules generalizing log report with
  | nil => exact ⟨report, rfl⟩
  | cons rule rest ih =>
      obtain ⟨ending, hEnding⟩ := rule.fire_unrestricted_outcome start log
      obtain ⟨handed, hSweep⟩ := sweep_cons_of_same_firing hEnding rfl
      rw [List.map_cons, hSweep rule.unrestricted rfl]
      cases ending with
      | ok value =>
          simp only [tally, hEnding]
          exact ih handed _
      | error conflict =>
          simp only [tally, hEnding]
          exact ih handed _

namespace Scheduler

/-- The footprints of the rules, in priority order. -/
def footprints (scheduler : Scheduler file) : List (Footprint file) :=
  scheduler.rules.map Rule.footprint

/-- The scheduler in which every rule copies the whole file. -/
def unrestricted (scheduler : Scheduler file) : Scheduler file :=
  { scheduler with
    entries := scheduler.entries.map fun entry =>
      { entry with rule := entry.rule.unrestricted } }

/-- Runs a number of cycles, each on the log that the one before it left. A
violation ends them. -/
def cycles : Nat → Scheduler file → Log file → List (Cycle file)
  | 0, _, _ => []
  | more + 1, scheduler, log =>
      let cycle := scheduler.runCycle log
      match cycle.outcome with
      | .error _ => [cycle]
      | .ok _ => cycle :: cycles more cycle.scheduler cycle.log

theorem cycles_of_ok {scheduler : Scheduler file} {report : CycleReport}
    (h : (scheduler.runCycle log).outcome = .ok report) (more : Nat) :
    scheduler.cycles (more + 1) log =
      scheduler.runCycle log ::
        (scheduler.runCycle log).scheduler.cycles more (scheduler.runCycle log).log := by
  simp only [cycles, h]

theorem cycles_of_violation {scheduler : Scheduler file} {violation : FootprintViolation}
    (h : (scheduler.runCycle log).outcome = .error violation) (more : Nat) :
    scheduler.cycles (more + 1) log = [scheduler.runCycle log] := by
  simp only [cycles, h]

/-- A scheduler with the rules of another one, all copying the whole file. -/
structure Frees (free scheduler : Scheduler file) : Prop where
  rules_eq : free.rules = scheduler.rules.map Rule.unrestricted
  stats_eq : free.stats = scheduler.stats

theorem Frees.swept_fst {free scheduler : Scheduler file} (h : free.Frees scheduler)
    (log : Log file) :
    (scheduler.swept log).1 = confineAll scheduler.footprints (free.swept log).1 := by
  rw [swept, swept, h.rules_eq]
  exact sweep_confined scheduler.rules _

theorem Frees.swept_of_covered {free scheduler : Scheduler file} (h : free.Frees scheduler)
    (hCovered : AllCovered scheduler.footprints (free.runCycle log).firings) :
    scheduler.swept log = free.swept log := by
  rw [runCycle_firings, swept, h.rules_eq] at hCovered
  rw [swept, swept, h.rules_eq]
  exact sweep_of_covered scheduler.rules hCovered

theorem Frees.runCycle_outcome {free scheduler : Scheduler file} (h : free.Frees scheduler)
    (log : Log file) : ∃ report, (free.runCycle log).outcome = .ok report := by
  rw [Scheduler.runCycle_outcome, swept, h.rules_eq]
  exact tally_sweep_unrestricted scheduler.rules _ {}

/-- The rules of a scheduler do not change, so the relation lasts while the
statistics agree. -/
theorem Frees.runCycle {free scheduler : Scheduler file} (h : free.Frees scheduler)
    (hSwept : scheduler.swept log = free.swept log) :
    (free.runCycle log).scheduler.Frees (scheduler.runCycle log).scheduler where
  rules_eq := by rw [rules_runCycle, rules_runCycle, h.rules_eq]
  stats_eq := by rw [stats_runCycle, stats_runCycle, h.stats_eq, hSwept]

theorem footprints_runCycle (scheduler : Scheduler file) (log : Log file) :
    (scheduler.runCycle log).scheduler.footprints = scheduler.footprints := by
  rw [footprints, rules_runCycle, footprints]

end Scheduler

/-- All that can be seen of a cycle: the committed log and the statistics after it,
its report or violation, and every firing with the answers to its accesses. -/
structure Observation (file : RegisterFile) where
  log : Log file
  stats : List RuleStats
  outcome : Except FootprintViolation CycleReport
  firings : List (Firing file)

/-- The observation of a cycle. -/
def Cycle.observe (cycle : Cycle file) : Observation file :=
  ⟨cycle.log, cycle.scheduler.stats, cycle.outcome, cycle.firings⟩

/-- What a cycle did, and how it ended. -/
def Cycle.course (cycle : Cycle file) :
    List (Firing file) × Except FootprintViolation CycleReport :=
  (cycle.firings, cycle.outcome)

/-- What cycles without footprints become under given ones. The first one that is
not covered is the last. -/
def confineCycles (footprints : List (Footprint file)) :
    List (List (Firing file)) →
      List (List (Firing file) × Except FootprintViolation CycleReport)
  | [] => []
  | firings :: rest =>
      let confined := confineAll footprints firings
      match tally confined {} with
      | .error violation => [(confined, .error violation)]
      | .ok report => (confined, .ok report) :: confineCycles footprints rest

namespace Scheduler

/-- Cycles in which no rule leaves its footprint are those without footprints. -/
theorem Frees.cycles_observe {free scheduler : Scheduler file} (h : free.Frees scheduler)
    (count : Nat)
    (hCovered : ∀ cycle ∈ free.cycles count log,
      AllCovered scheduler.footprints cycle.firings) :
    (scheduler.cycles count log).map Cycle.observe =
      (free.cycles count log).map Cycle.observe := by
  induction count generalizing free scheduler log with
  | zero => rfl
  | succ more ih =>
      obtain ⟨report, hFree⟩ := h.runCycle_outcome log
      rw [cycles_of_ok hFree] at hCovered ⊢
      have hSwept := h.swept_of_covered (hCovered _ List.mem_cons_self)
      have hFirst : (scheduler.runCycle log).observe = (free.runCycle log).observe := by
        simp only [Cycle.observe, runCycle_log, stats_runCycle, Scheduler.runCycle_outcome,
          runCycle_firings, hSwept, h.stats_eq]
      have hReport : (scheduler.runCycle log).outcome = .ok report :=
        (congrArg Observation.outcome hFirst).trans hFree
      have hLog : (scheduler.runCycle log).log = (free.runCycle log).log :=
        congrArg Observation.log hFirst
      have hRest := ih (h.runCycle hSwept) fun cycle hMem => by
        rw [footprints_runCycle]
        exact hCovered cycle (List.mem_cons_of_mem _ hMem)
      rw [cycles_of_ok hReport, List.map_cons, List.map_cons, hFirst, hLog, hRest]

/-- Cycles are those without footprints, up to the first attempt outside a
footprint. -/
theorem Frees.cycles_course {free scheduler : Scheduler file} (h : free.Frees scheduler)
    (count : Nat) (log : Log file) :
    (scheduler.cycles count log).map Cycle.course =
      confineCycles scheduler.footprints ((free.cycles count log).map Cycle.firings) := by
  induction count generalizing free scheduler log with
  | zero => rfl
  | succ more ih =>
      obtain ⟨_, hFree⟩ := h.runCycle_outcome log
      have hFirings : (scheduler.runCycle log).firings =
          confineAll scheduler.footprints (free.runCycle log).firings := by
        rw [runCycle_firings, runCycle_firings]
        exact h.swept_fst log
      have hOutcome : (scheduler.runCycle log).outcome =
          tally (confineAll scheduler.footprints (free.runCycle log).firings) {} := by
        rw [← hFirings, runCycle_firings]
        exact scheduler.runCycle_outcome log
      rw [cycles_of_ok hFree, List.map_cons]
      simp only [confineCycles]
      cases hTally : tally (confineAll scheduler.footprints (free.runCycle log).firings) {} with
      | error violation =>
          rw [hTally] at hOutcome
          rw [cycles_of_violation hOutcome]
          simp only [List.map_cons, List.map_nil, Cycle.course, hFirings, hOutcome]
      | ok report =>
          rw [hTally] at hOutcome
          have hSwept := h.swept_of_covered (covered_of_tally hTally)
          have hLog : (scheduler.runCycle log).log = (free.runCycle log).log := by
            rw [runCycle_log, runCycle_log, hSwept]
          have hRest := ih (h.runCycle hSwept) (free.runCycle log).log
          rw [footprints_runCycle] at hRest
          rw [cycles_of_ok hOutcome, List.map_cons, hLog, hRest]
          simp only [Cycle.course, hFirings, hOutcome]

/-- The rules attempt only accesses that given footprints admit, in so many cycles
in which nothing is restricted. -/
def KeepsTo (scheduler : Scheduler file) (footprints : List (Footprint file))
    (log : Log file) (count : Nat) : Prop :=
  ∀ cycle ∈ scheduler.unrestricted.cycles count log, AllCovered footprints cycle.firings

instance (scheduler : Scheduler file) (footprints : List (Footprint file)) (log : Log file)
    (count : Nat) : Decidable (scheduler.KeepsTo footprints log count) :=
  inferInstanceAs (Decidable (∀ cycle ∈ scheduler.unrestricted.cycles count log, _))

/-- Schedulers that differ in footprints and in working storage only. -/
structure SameBodies (a b : Scheduler file) : Prop where
  rules_eq : a.rules.map Rule.unrestricted = b.rules.map Rule.unrestricted
  stats_eq : a.stats = b.stats

theorem rules_unrestricted (scheduler : Scheduler file) :
    scheduler.unrestricted.rules = scheduler.rules.map Rule.unrestricted := by
  simp [rules, unrestricted]

theorem stats_unrestricted (scheduler : Scheduler file) :
    scheduler.unrestricted.stats = scheduler.stats := by
  simp [stats, unrestricted]

theorem SameBodies.frees {a b : Scheduler file} (h : a.SameBodies b) :
    a.unrestricted.Frees b where
  rules_eq := (rules_unrestricted a).trans h.rules_eq
  stats_eq := (stats_unrestricted a).trans h.stats_eq

/-- Changing footprints changes nothing that can be seen of any number of cycles, as
long as the rules keep to the declared ones. Where a rule leaves a declared
footprint, the cycles are still the same up to the attempt that does, and that
attempt ends them. -/
theorem cycles_of_footprints (a b : Scheduler file) (log : Log file) (count : Nat)
    (hSame : a.SameBodies b) :
    (a.KeepsTo a.footprints log count → a.KeepsTo b.footprints log count →
        (b.cycles count log).map Cycle.observe = (a.cycles count log).map Cycle.observe) ∧
      (b.cycles count log).map Cycle.course =
        confineCycles b.footprints ((a.unrestricted.cycles count log).map Cycle.firings) := by
  have hOwn : a.unrestricted.Frees a := ⟨rules_unrestricted a, stats_unrestricted a⟩
  refine ⟨fun hA hB => ?_, hSame.frees.cycles_course count log⟩
  rw [hSame.frees.cycles_observe count hB, hOwn.cycles_observe count hA]

end Scheduler

end Confinement

namespace Collatz

/-- The rules with a footprint of each kind. -/
def narrowed : List (Rule file) :=
  [{ name := "count", footprint := .declared [steps, x, steps], body := count },
   { name := "divide", footprint := .dynamic, body := divide },
   { name := "multiply", footprint := .declared [x], body := multiply }]

/-- The rules with a declared footprint that the last one leaves at once. -/
def strayed : List (Rule file) :=
  [{ name := "count", footprint := .dynamic, body := count },
   { name := "divide", footprint := .whole, body := divide },
   { name := "multiply", footprint := .declared [steps], body := multiply }]

/-- Two cycles of the design under two choices of footprints, one of them too
narrow. -/
theorem cycles_of_narrowed :
    let a := Scheduler.ofRules rules
    let b := Scheduler.ofRules narrowed
    let c := Scheduler.ofRules strayed
    let log := Log.initial file
    (a.SameBodies b ∧ a.KeepsTo a.footprints log 2 ∧ a.KeepsTo b.footprints log 2) ∧
      (b.cycles 2 log).map Cycle.observe = (a.cycles 2 log).map Cycle.observe ∧
      (c.cycles 2 log).map Cycle.course =
        confineCycles c.footprints ((a.unrestricted.cycles 2 log).map Cycle.firings) ∧
      (c.cycles 2 log).map Cycle.outcome = [.error ⟨"x", .read1⟩] := by
  have hOwn : (Scheduler.ofRules rules).KeepsTo (Scheduler.ofRules rules).footprints
      (Log.initial file) 2 := by decide
  have hNarrowed : (Scheduler.ofRules rules).KeepsTo (Scheduler.ofRules narrowed).footprints
      (Log.initial file) 2 := by decide
  have hSame : (Scheduler.ofRules rules).SameBodies (Scheduler.ofRules narrowed) := ⟨rfl, rfl⟩
  have hNarrow := Scheduler.cycles_of_footprints _ _ (Log.initial file) 2 hSame
  have hStray := (Scheduler.ofRules rules).cycles_of_footprints (Scheduler.ofRules strayed)
    (Log.initial file) 2 ⟨rfl, rfl⟩
  exact ⟨⟨hSame, hOwn, hNarrowed⟩, hNarrow.1 hOwn hNarrowed, hStray.2, rfl⟩

end Collatz

end AtomicRules
