import AtomicRules.Rule.Basic

/-!
# The scheduler

In a cycle every rule fires once, the rule of highest priority first. Before
that the conflict sets of the committed log are cleared, the values at the start
of the cycle are kept, and the tentative log is made equal to the committed one.
A rule that ends in conflict is counted as aborted and the cycle goes on; a
violation of a declared footprint stops the cycle where it is.

The scheduler keeps its tentative log, the start values and the journal from
cycle to cycle, as working storage. A cycle does not depend on what they held,
since each is overwritten before it is read.
-/

namespace AtomicRules

variable {file : RegisterFile}

/-- How often a rule committed and aborted, as 64-bit counters that stop at
their greatest value. -/
structure RuleStats where
  commits : Nat := 0
  aborts : Nat := 0
  deriving DecidableEq, Repr

/-- The next value of a 64-bit counter that stops at its greatest value. -/
def countUp (n : Nat) : Nat := min (n + 1) (2 ^ 64 - 1)

namespace RuleStats

/-- Counts a commit. -/
def commit (stats : RuleStats) : RuleStats := { stats with commits := countUp stats.commits }

/-- Counts an abort. -/
def abort (stats : RuleStats) : RuleStats := { stats with aborts := countUp stats.aborts }

end RuleStats

/-- How many rules committed and aborted in one cycle. -/
structure CycleReport where
  committed : Nat := 0
  aborted : Nat := 0
  deriving DecidableEq, Repr

/-- A rule with its statistics. -/
structure Entry (file : RegisterFile) where
  rule : Rule file
  stats : RuleStats := {}

/-- The rules in priority order, and the working storage of a cycle. -/
structure Scheduler (file : RegisterFile) where
  entries : List (Entry file)
  start : State file
  tentative : Log file
  journal : Journal file

/-- What firing a list of rules leads to. -/
structure Round (file : RegisterFile) where
  entries : List (Entry file)
  work : Workspace file
  firings : List (Firing file)
  outcome : Except FootprintViolation CycleReport

/-- Fires rules one after the other, counting on from a report. -/
def fireAll (start : State file) :
    List (Entry file) → Workspace file → CycleReport → Round file
  | [], work, report => ⟨[], work, [], .ok report⟩
  | entry :: rest, work, report =>
      let (firing, work) := entry.rule.fire start work
      match firing.outcome with
      | .error violation => ⟨entry :: rest, work, [firing], .error violation⟩
      | .ok (.ok ()) =>
          let round := fireAll start rest work { report with committed := report.committed + 1 }
          { round with
            entries := { entry with stats := entry.stats.commit } :: round.entries
            firings := firing :: round.firings }
      | .ok (.error _) =>
          let round := fireAll start rest work { report with aborted := report.aborted + 1 }
          { round with
            entries := { entry with stats := entry.stats.abort } :: round.entries
            firings := firing :: round.firings }

/-- What one cycle leads to. -/
structure Cycle (file : RegisterFile) where
  scheduler : Scheduler file
  log : Log file
  firings : List (Firing file)
  outcome : Except FootprintViolation CycleReport

namespace Scheduler

/-- A scheduler over rules that have not fired yet. -/
def ofRules (rules : List (Rule file)) : Scheduler file where
  entries := rules.map fun rule => { rule }
  start := State.initial file
  tentative := Log.initial file
  journal := Journal.empty

/-- The rules in priority order. -/
def rules (scheduler : Scheduler file) : List (Rule file) := scheduler.entries.map Entry.rule

/-- The statistics of the rules, in the same order. -/
def stats (scheduler : Scheduler file) : List RuleStats := scheduler.entries.map Entry.stats

/-- Runs one cycle on a committed log. -/
def runCycle (scheduler : Scheduler file) (log : Log file) : Cycle file :=
  let committed := log.clearConflicts
  let start := committed.state
  let tentative := scheduler.tentative.copyAll committed
  let round := fireAll start scheduler.entries ⟨committed, tentative, scheduler.journal⟩ {}
  { scheduler :=
      { entries := round.entries, start, tentative := round.work.tentative,
        journal := round.work.journal }
    log := round.work.committed
    firings := round.firings
    outcome := round.outcome }

end Scheduler

/-- The events of a cycle, each under the name of its rule. -/
def Cycle.events (cycle : Cycle file) : List String :=
  cycle.firings.flatMap fun firing =>
    firing.events.map fun event => firing.rule ++ ": " ++ event.describe

/-! ### Text -/

/-- The footprint by name, with the registers it declares. -/
def Footprint.inspect : Footprint file → String
  | .whole => "Whole"
  | .declared regs =>
      "Static(" ++ Inspection.listing (regs.map fun reg => (file.nameOf reg).text) ++ ")"
  | .dynamic => "Dynamic"

/-- A rule by name and footprint. -/
def Rule.inspect (rule : Rule file) : String :=
  Inspection.group "Rule" [Inspection.entry "name" (Inspection.quoted rule.name),
    Inspection.entry "footprint" rule.footprint.inspect]

/-- The counters of a rule. -/
def RuleStats.inspect (stats : RuleStats) : String :=
  Inspection.group "RuleStats" [Inspection.entry "commits" (toString stats.commits),
    Inspection.entry "aborts" (toString stats.aborts)]

/-- The rules and their statistics. -/
def Scheduler.inspect (scheduler : Scheduler file) : String :=
  Inspection.group "Scheduler"
    [Inspection.entry "rules" (Inspection.listing (scheduler.rules.map Rule.inspect)),
     Inspection.entry "stats" (Inspection.listing (scheduler.stats.map RuleStats.inspect))]

end AtomicRules
