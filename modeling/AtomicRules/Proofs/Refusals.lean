import AtomicRules.Design.Scatter
import AtomicRules.Proofs.History

/-!
# Refusals

A cycle decides on an access by flags in two logs, which are marked, copied and
restored as rules commit and abort. Here the decision is said without them. Each
kind of register has a short list of ports that stand against an access, and the
access is refused exactly when one of them was granted before: to a rule that
committed and, when the access writes, also to the running rule. Aborted rules
and caught refusals do not count, and neither do flags left over from before.

For wires and ephemeral history registers the lists are nothing but the order of
the ports. So whatever two rules of a cycle do to one such register, the accesses
that conflict come in that order.

## Main results

* `RegisterKind.mem_barredBy_iff` — the lists are the order of the ports.
* `Access.granted_iff` — granted by the logs, and not barred by the history.
* `Scheduler.refused_iff_barred` — every access of a cycle, and the flags after it.
* `Scheduler.rank_lt_rank_of_conflict` — conflicting accesses of two rules.
-/

namespace AtomicRules

/-! ### What stands against an access -/

/-- The ports that stand against an access once they were used in the cycle. -/
def RegisterKind.barredBy : RegisterKind → Port → List Port
  | .plain, .write0 => [.write0]
  | .wire, .write0 => [.read1, .write0]
  | .ehr, .write0 => [.read1, .write0, .write1]
  | .ehr, .write1 => [.write1]
  | .ehr, .read0 => [.write0, .write1]
  | .ehr, .read1 => [.write1]
  | _, _ => []

/-- What an access is checked against: a read against what earlier rules committed,
a write against what the running rule has made of it. -/
def Port.view {α : Type} (port : Port) (committed tentative : α) : α :=
  if port.isWrite then tentative else committed

/-- Two accesses conflict when one of them writes. What stands against an access of
a wire or of an ephemeral history register is what conflicts with it and does not
come before it in the order of the ports. -/
theorem RegisterKind.mem_barredBy_iff {kind : RegisterKind} (hKind : kind ≠ .plain)
    {earlier later : Port} (hEarlier : earlier ∈ kind.ports) (hLater : later ∈ kind.ports) :
    earlier ∈ kind.barredBy later ↔
      (earlier.isWrite = true ∨ later.isWrite = true) ∧ ¬ earlier.rank < later.rank := by
  cases kind with
  | plain => exact absurd rfl hKind
  | wire => cases earlier <;> cases later <;> simp_all [ports, barredBy, Port.isWrite, Port.rank]
  | ehr => cases earlier <;> cases later <;> simp_all [barredBy, Port.isWrite, Port.rank]

/-- An access is granted when the kind has the port and no flag stands against it. -/
theorem RegisterKind.grants_iff {kind : RegisterKind} {port : Port}
    {committed tentative : ConflictSet} :
    kind.grants port committed tentative = true ↔
      port ∈ kind.ports ∧
        ∀ other ∈ kind.barredBy port, (port.view committed tentative).marked other = false := by
  cases kind <;> cases port <;>
    simp [grants, ports, barredBy, Port.view, Port.isWrite, ConflictSet.marked, and_assoc]

theorem RegisterKind.ne_read0_of_mem_barredBy {kind : RegisterKind} {port other : Port}
    (h : other ∈ kind.barredBy port) : other ≠ .read0 := by
  rintro rfl
  cases kind <;> cases port <;> simp [barredBy] at h

section Histories

variable {file : RegisterFile}

/-- The history stands against an access: an earlier rule committed through one of
the ports in its way, or, when the access writes, the running rule used one. -/
def Access.Barred (access : Access file) (past own : List (Event file)) : Prop :=
  ∃ port ∈ (file.kindOf access.reg).barredBy access.port,
    Used (access.port.view past (past ++ own)) access.reg port

instance (access : Access file) (past own : List (Event file)) :
    Decidable (access.Barred past own) :=
  inferInstanceAs (Decidable (∃ port ∈ _, _))

/-- The two logs decide as the history does. -/
theorem Access.granted_iff {committed tentative : Log file} {start : State file}
    {past own : List (Event file)} (hCommitted : committed.Reflects start past)
    (hTentative : tentative.Reflects start (past ++ own)) (access : Access file) :
    access.granted committed tentative = true ↔
      access.port ∈ (file.kindOf access.reg).ports ∧ ¬ access.Barred past own := by
  have hView : (access.port.view committed tentative).Reflects start
      (access.port.view past (past ++ own)) := by
    unfold Port.view
    split
    · exact hTentative
    · exact hCommitted
  have hConflict : access.port.view (committed.conflict access.reg)
      (tentative.conflict access.reg) =
        (access.port.view committed tentative).conflict access.reg := by
    unfold Port.view
    split <;> rfl
  have hFlags : (∀ other ∈ (file.kindOf access.reg).barredBy access.port,
        ((access.port.view committed tentative).conflict access.reg).marked other = false) ↔
      ¬ access.Barred past own := by
    rw [Barred, not_exists]
    refine forall_congr' fun other => ?_
    rw [not_and]
    refine forall_congr' fun hMem => ?_
    exact hView.unmarked_iff (RegisterKind.ne_read0_of_mem_barredBy hMem)
  rw [granted, RegisterKind.grants_iff, hConflict, hFlags]

end Histories

/-! ### Every access of a cycle -/

section Cycles

variable {file : RegisterFile}

/-- An access of a cycle is granted when the kind of its register has the port and
the history does not stand against it; otherwise it ends in its own refusal. -/
theorem Scheduler.outcome_of_event {scheduler : Scheduler file} {log : Log file}
    {before after : List (Firing file)} {firing : Firing file}
    (hFirings : (scheduler.runCycle log).firings = before ++ firing :: after)
    {earlier later : List (Event file)} {event : Event file}
    (hEvents : firing.events = earlier ++ event :: later) :
    (event.outcome.isOk = true ↔
        event.access.port ∈ (file.kindOf event.access.reg).ports ∧
          ¬ event.access.Barred (committedEvents before) earlier) ∧
      (event.outcome.isOk = false → event.outcome = .error event.access.refusal) := by
  obtain ⟨committed, tentative, hCommitted, hTentative, hEvent⟩ :=
    reflects_of_event hFirings hEvents
  obtain ⟨access, outcome⟩ := event
  obtain rfl : outcome = (access.attempt log.state committed tentative).1 :=
    eq_of_heq (Event.mk.inj hEvent).2
  have hGranted := access.isOk_attempt log.state committed tentative
  constructor
  · rw [hGranted]
    exact access.granted_iff hCommitted hTentative
  · intro hRefused
    rw [hGranted] at hRefused
    rw [Access.attempt_of_refused hRefused]

/-- Refusals are determined by the history. Whatever flags the log came with, an
access of the cycle is refused, with its own refusal, exactly when the history stands
against it, and after the cycle a flag is set exactly when a committed rule was
granted that port. -/
theorem Scheduler.refused_iff_barred (scheduler : Scheduler file) (log : Log file) :
    (∀ {before after : List (Firing file)} {firing : Firing file},
      (scheduler.runCycle log).firings = before ++ firing :: after →
      ∀ {earlier later : List (Event file)} {event : Event file},
        firing.events = earlier ++ event :: later →
        event.access.port ∈ (file.kindOf event.access.reg).ports →
          (event.outcome = .error event.access.refusal ↔
              event.access.Barred (committedEvents before) earlier) ∧
            (event.outcome.isOk = true ↔
              ¬ event.access.Barred (committedEvents before) earlier)) ∧
      ∀ reg port, ((scheduler.runCycle log).log.conflict reg).marked port = true ↔
        port ≠ .read0 ∧ ∃ firing ∈ (scheduler.runCycle log).firings,
          firing.committed = true ∧ Used firing.events reg port := by
  constructor
  · intro before after firing hFirings earlier later event hEvents hPort
    obtain ⟨hGranted, hRefusal⟩ := outcome_of_event hFirings hEvents
    rw [and_iff_right hPort] at hGranted
    have hRefused : event.outcome.isOk = false ↔
        event.access.Barred (committedEvents before) earlier := by
      rw [← Bool.not_eq_true, hGranted, Decidable.not_not]
    refine ⟨?_, hGranted⟩
    constructor
    · intro hOutcome
      apply hRefused.1
      rw [hOutcome]
      rfl
    · intro hBarred
      exact hRefusal (hRefused.2 hBarred)
  · intro reg port
    rw [(scheduler.reflects_runCycle log).marked_iff, used_committedEvents]

/-! ### The order of the ports -/

/-- When a rule commits an access to a wire or to an ephemeral history register, and a
later rule of the cycle is granted an access to the same register, and one of the two
writes, then the port of the first comes before the port of the second. The later rule
need not commit. -/
theorem Scheduler.rank_lt_rank_of_conflict (scheduler : Scheduler file) (log : Log file)
    {before between after : List (Firing file)} {first second : Firing file}
    (hFirings : (scheduler.runCycle log).firings =
      before ++ first :: between ++ second :: after)
    (hCommitted : first.committed = true) {reg : file.Reg} (hKind : file.kindOf reg ≠ .plain)
    {p q : Port} (hFirst : Used first.events reg p) (hSecond : Used second.events reg q)
    (hWrite : p.isWrite = true ∨ q.isWrite = true) : p.rank < q.rank := by
  have hPast : Used (committedEvents (before ++ first :: between)) reg p :=
    used_committedEvents.2
      ⟨first, List.mem_append_right before List.mem_cons_self, hCommitted, hFirst⟩
  obtain ⟨event, hMem, rfl, rfl, hOk⟩ := hSecond
  obtain ⟨earlier, later, hEvents⟩ := List.append_of_mem hMem
  obtain ⟨hPort, hNotBarred⟩ := (outcome_of_event hFirings hEvents).1.1 hOk
  have hEarlierPort : p ∈ (file.kindOf event.access.reg).ports :=
    (reflects_committedBefore hFirings).mem_ports event.access.reg p hPast
  -- an earlier rule is in view of every access, of a write and of a read
  have hView : Used (event.access.port.view (committedEvents (before ++ first :: between))
      (committedEvents (before ++ first :: between) ++ earlier)) event.access.reg p := by
    unfold Port.view
    split
    · exact used_append.2 (Or.inl hPast)
    · exact hPast
  have hNotListed : p ∉ (file.kindOf event.access.reg).barredBy event.access.port :=
    fun hListed => hNotBarred ⟨p, hListed, hView⟩
  rw [RegisterKind.mem_barredBy_iff hKind hEarlierPort hPort] at hNotListed
  exact Decidable.of_not_not fun hNotLess => hNotListed ⟨hWrite, hNotLess⟩

end Cycles

namespace Scatter

/-- The initial log with flags that an earlier cycle could have left. -/
def stale : Log file := ((Log.initial file).mark value .write0).mark r1 .write0

/-- The first cycle of the design on that log. -/
def firstCycle : Cycle file := (Scheduler.ofRules rules).runCycle stale

/-- What `jam` does in it: `produce` has driven the wire and `scatter` has read it. -/
def jammed : Firing file where
  rule := "jam"
  outcome := .ok (.error ⟨"value", .write0⟩)
  events := [⟨.write0 value (Bits.ones 8), .error ⟨"value", .write0⟩⟩]

/-- `jam` is refused for what happened in the cycle. The second target comes with a
flag, but no rule writes it, and its flag is gone afterwards. -/
theorem refused_iff_barred_jammed :
    (firstCycle.firings = firstCycle.firings.take 3 ++ jammed :: [] ∧
        Port.write0 ∈ (file.kindOf value).ports) ∧
      Access.Barred (.write0 value (Bits.ones 8)) (committedEvents (firstCycle.firings.take 3))
        [] ∧
      (stale.conflict r1).marked .write0 = true ∧
      (firstCycle.log.conflict r1).marked .write0 = false := by
  have hFirings : firstCycle.firings = firstCycle.firings.take 3 ++ jammed :: [] := rfl
  have hPort : Port.write0 ∈ (file.kindOf value).ports := by decide
  obtain ⟨hAccesses, hFlags⟩ := (Scheduler.ofRules rules).refused_iff_barred stale
  have hJam := hAccesses hFirings
    (show jammed.events = [] ++ ⟨.write0 value (Bits.ones 8), .error ⟨"value", .write0⟩⟩ :: []
      from rfl) hPort
  have hUnused : ¬ ∃ firing ∈ firstCycle.firings,
      firing.committed = true ∧ Used firing.events r1 .write0 := by
    decide
  refine ⟨⟨hFirings, hPort⟩, hJam.1.1 rfl, rfl, ?_⟩
  rw [← Bool.not_eq_true]
  exact fun hMarked => hUnused ((hFlags r1 .write0).1 hMarked).2

/-- What `produce` does: it drives the wire. -/
def produced : Firing file where
  rule := "produce"
  outcome := .ok (.ok ())
  events := [⟨.read0 seed, .ok (Bits.ofNat128 8 1 : Bits 8)⟩,
    ⟨.write0 value (Bits.ofNat128 8 1 : Bits 8), .ok ()⟩,
    ⟨.write0 seed (Bits.ofNat128 8 6 : Bits 8), .ok ()⟩]

/-- What `scatter` does: it reads the wire. -/
def scattered : Firing file where
  rule := "scatter"
  outcome := .ok (.ok ())
  events := [⟨.read0 cursor, .ok (Bits.zero 2 : Bits 2)⟩,
    ⟨.read1 value, .ok (Bits.ofNat128 8 1 : Bits 8)⟩,
    ⟨.write0 r0 (Bits.ofNat128 8 1 : Bits 8), .ok ()⟩,
    ⟨.write0 cursor (Bits.ofNat128 2 1 : Bits 2), .ok ()⟩]

/-- The wire is driven and then read. -/
theorem rank_lt_rank_on_wire :
    (firstCycle.firings = [] ++ produced :: [] ++ scattered :: firstCycle.firings.drop 2 ∧
        produced.committed = true ∧ file.kindOf value ≠ .plain ∧
        Used produced.events value .write0 ∧ Used scattered.events value .read1) ∧
      Port.write0.rank < Port.read1.rank := by
  have hFirings : firstCycle.firings =
      [] ++ produced :: [] ++ scattered :: firstCycle.firings.drop 2 := rfl
  have hWire : file.kindOf value ≠ .plain := by decide
  have hDriven : Used produced.events value .write0 := by decide
  have hRead : Used scattered.events value .read1 := by decide
  refine ⟨⟨hFirings, rfl, hWire, hDriven, hRead⟩, ?_⟩
  exact (Scheduler.ofRules rules).rank_lt_rank_of_conflict stale hFirings rfl hWire hDriven hRead
    (Or.inl rfl)

end Scatter

end AtomicRules
