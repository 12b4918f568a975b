import AtomicRules.Proofs.Sweep

/-!
# The history of a cycle

A log keeps a value and three flags for each register, and nothing of how they
came about. The history of a cycle is the list of the events of the rules that
committed, followed by the events of the running rule. A log reflects a history
when its flags are the ports that were granted in it and its values are what the
granted writes left, `write1` over `write0` over the start of the cycle.

Every attempt keeps this up on the tentative log, every commit hands it to the
committed log, and an abort leaves it where it was.

## Main results

* `Log.Reflects.attempt` — one attempt.
* `Log.Reflects.attempts` — the attempts of a rule.
* `sweep_induction` — what each attempt preserves, a sweep preserves on the committed
  log.
* `sweep_reflects` — the committed log after any number of rules.
* `Scheduler.reflects_runCycle` — the committed log after a cycle.
* `Scheduler.reflects_of_event` — the two logs that any access of a cycle meets.
* `Scheduler.granted_of_event` — what a granted access answers, from those logs.
-/

namespace AtomicRules

variable {file : RegisterFile}

/-! ### Granted accesses -/

/-- The event is a granted access to a register through a port. -/
def Event.Uses (event : Event file) (reg : file.Reg) (port : Port) : Prop :=
  event.access.reg = reg ∧ event.access.port = port ∧ event.outcome.isOk = true

instance (event : Event file) (reg : file.Reg) (port : Port) :
    Decidable (event.Uses reg port) :=
  inferInstanceAs (Decidable (_ ∧ _ ∧ _))

/-- Some access to a register through a port was granted. -/
def Used (events : List (Event file)) (reg : file.Reg) (port : Port) : Prop :=
  ∃ event ∈ events, event.Uses reg port

instance (events : List (Event file)) (reg : file.Reg) (port : Port) :
    Decidable (Used events reg port) :=
  inferInstanceAs (Decidable (∃ event ∈ events, event.Uses reg port))

theorem used_append {before after : List (Event file)} {reg : file.Reg} {port : Port} :
    Used (before ++ after) reg port ↔ Used before reg port ∨ Used after reg port := by
  simp [Used, or_and_right, exists_or]

theorem used_refused {access : Access file} {conflict : Conflict} {reg : file.Reg}
    {port : Port} : ¬ Used [⟨access, .error conflict⟩] reg port := by
  rintro ⟨event, hMem, -, -, hOk⟩
  rw [List.mem_singleton.1 hMem] at hOk
  cases hOk

theorem used_granted {access : Access file} {answer : access.Answer} {reg : file.Reg}
    {port : Port} :
    Used [⟨access, .ok answer⟩] reg port ↔ access.reg = reg ∧ access.port = port := by
  constructor
  · rintro ⟨event, hMem, hReg, hPort, -⟩
    rw [List.mem_singleton.1 hMem] at hReg hPort
    exact ⟨hReg, hPort⟩
  · rintro ⟨hReg, hPort⟩
    exact ⟨_, List.mem_singleton.2 rfl, hReg, hPort, rfl⟩

/-- A write that is found among the events was granted. -/
theorem used_of_mem_write0 {events : List (Event file)} {reg : file.Reg}
    {value : file.Val reg} (h : ⟨.write0 reg value, .ok ()⟩ ∈ events) :
    Used events reg .write0 :=
  ⟨_, h, rfl, rfl, rfl⟩

theorem used_of_mem_write1 {events : List (Event file)} {reg : file.Reg}
    {value : file.Val reg} (h : ⟨.write1 reg value, .ok ()⟩ ∈ events) :
    Used events reg .write1 :=
  ⟨_, h, rfl, rfl, rfl⟩

/-- A granted write is among the events with the value it wrote. -/
theorem exists_mem_of_used_write1 {events : List (Event file)} {reg : file.Reg}
    (h : Used events reg .write1) : ∃ value, ⟨.write1 reg value, .ok ()⟩ ∈ events := by
  obtain ⟨⟨access, outcome⟩, hMem, hReg, hPort, hOk⟩ := h
  cases access with
  | read0 _ => cases hPort
  | write0 _ _ => cases hPort
  | read1 _ => cases hPort
  | write1 written value =>
      cases outcome with
      | error conflict => cases hOk
      | ok answer =>
          obtain rfl : written = reg := hReg
          exact ⟨value, hMem⟩

/-! ### Logs that reflect a history -/

/-- The flags of a log are the ports granted in a history, and its values are
what the granted writes left on those of the start. -/
structure Log.Reflects (log : Log file) (start : State file) (events : List (Event file)) :
    Prop where
  marked_iff : ∀ reg port, (log.conflict reg).marked port = true ↔
    port ≠ .read0 ∧ Used events reg port
  mem_ports : ∀ reg port, Used events reg port → port ∈ (file.kindOf reg).ports
  value_write1 : ∀ reg value, ⟨.write1 reg value, .ok ()⟩ ∈ events → log.value reg = value
  value_write0 : ∀ reg value, ⟨.write0 reg value, .ok ()⟩ ∈ events →
    ¬ Used events reg .write1 → log.value reg = value
  value_start : ∀ reg, ¬ Used events reg .write0 → ¬ Used events reg .write1 →
    log.value reg = start.get reg

/-- At the start of a cycle nothing has happened yet. -/
theorem Log.reflects_ofState (start : State file) : (Log.ofState start).Reflects start [] where
  marked_iff reg port := by simp [Used]
  mem_ports reg port h := by simp [Used] at h
  value_write1 reg value h := by simp at h
  value_write0 reg value h := by simp at h
  value_start reg _ _ := rfl

/-- The second write of a port is refused on every kind, and so is `write0` after
`write1`, which only an ehr has. -/
theorem RegisterKind.unmarked_of_grants_write0 {kind : RegisterKind}
    {committed tentative : ConflictSet} (h : kind.grants .write0 committed tentative = true)
    (hPorts : tentative.marked .write1 = true → Port.write1 ∈ kind.ports) :
    tentative.marked .write0 = false ∧ tentative.marked .write1 = false := by
  cases kind <;> simp_all [grants, ports, ConflictSet.marked]

theorem RegisterKind.unmarked_of_grants_write1 {kind : RegisterKind}
    {committed tentative : ConflictSet} (h : kind.grants .write1 committed tentative = true) :
    tentative.marked .write1 = false := by
  cases kind <;> simp_all [grants, ConflictSet.marked]

namespace Log.Reflects

variable {log committed tentative : Log file} {start : State file}
  {events : List (Event file)}

theorem unmarked_iff (h : log.Reflects start events) {reg : file.Reg} {port : Port}
    (hPort : port ≠ .read0) :
    (log.conflict reg).marked port = false ↔ ¬ Used events reg port := by
  rw [← Bool.not_eq_true, h.marked_iff]
  simp [hPort]

theorem not_used_of_unmarked (h : log.Reflects start events) {reg : file.Reg} {port : Port}
    (hPort : port ≠ .read0) (hFlag : (log.conflict reg).marked port = false) :
    ¬ Used events reg port :=
  (h.unmarked_iff hPort).1 hFlag

/-- What a granted `read0` answers is also the committed value, unless a plain
register has been written in the cycle. -/
theorem value_eq_start (h : committed.Reflects start events) {reg : file.Reg}
    (hGranted : (Access.read0 reg).granted committed tentative = true)
    (hPlain : file.kindOf reg = .plain → ¬ Used events reg .write0) :
    committed.value reg = start.get reg := by
  simp only [Access.granted, Access.reg, Access.port] at hGranted
  cases hKind : file.kindOf reg with
  | plain =>
      refine h.value_start reg (hPlain hKind) fun hUsed => ?_
      have hPort := h.mem_ports reg .write1 hUsed
      rw [hKind] at hPort
      simp [RegisterKind.ports] at hPort
  | wire => simp [hKind, RegisterKind.grants] at hGranted
  | ehr =>
      simp only [hKind, RegisterKind.grants, Bool.not_eq_true', Bool.or_eq_false_iff] at hGranted
      exact h.value_start reg (h.not_used_of_unmarked Port.noConfusion hGranted.1)
        (h.not_used_of_unmarked Port.noConfusion hGranted.2)

/-- A refusal adds nothing to what the log has to reflect. -/
theorem refused (h : tentative.Reflects start events) (access : Access file)
    (conflict : Conflict) :
    tentative.Reflects start (events ++ [⟨access, .error conflict⟩]) := by
  have hUsed : ∀ reg port, Used (events ++ [⟨access, .error conflict⟩]) reg port ↔
      Used events reg port := by
    intro reg port
    rw [used_append]
    exact or_iff_left used_refused
  have hMem : ∀ event : Event file, event.outcome.isOk = true →
      event ∈ events ++ [⟨access, .error conflict⟩] → event ∈ events := by
    intro event hOk hEvent
    refine (List.mem_append.1 hEvent).resolve_right fun hLast => ?_
    rw [List.mem_singleton.1 hLast] at hOk
    cases hOk
  exact
    { marked_iff := fun reg port => by rw [hUsed]; exact h.marked_iff reg port
      mem_ports := fun reg port hPort => h.mem_ports reg port ((hUsed reg port).1 hPort)
      value_write1 := fun reg value hEvent =>
        h.value_write1 reg value (hMem _ rfl hEvent)
      value_write0 := fun reg value hEvent hNot =>
        h.value_write0 reg value (hMem _ rfl hEvent) (mt (hUsed reg _).2 hNot)
      value_start := fun reg hNot0 hNot1 =>
        h.value_start reg (mt (hUsed reg _).2 hNot0) (mt (hUsed reg _).2 hNot1) }

/-- The flags after a granted access: its own port is added. -/
theorem marked_granted (h : tentative.Reflects start events) (access : Access file)
    (answer : access.Answer) (reg : file.Reg) (port : Port) :
    ((access.apply tentative).conflict reg).marked port = true ↔
      port ≠ .read0 ∧ Used (events ++ [⟨access, .ok answer⟩]) reg port := by
  rw [used_append, used_granted]
  by_cases hReg : reg = access.reg
  · subst hReg
    rw [Access.conflict_apply_self]
    by_cases hPort : port = access.port
    · subst hPort
      by_cases hRead : access.port = .read0
      · simp [hRead, ConflictSet.marked]
      · simp [hRead, ConflictSet.marked_mark_self hRead]
    · rw [ConflictSet.marked_mark_of_ne hPort, h.marked_iff]
      simp [Ne.symm hPort]
  · rw [(Access.get_apply_of_ne tentative access hReg).2, h.marked_iff]
    simp [Ne.symm hReg]

/-- When a write is granted, no write of the same or of a later port has been. -/
theorem not_used_of_granted_write (h : tentative.Reflects start events)
    {access : Access file} (hGranted : access.granted committed tentative = true)
    (hWrite : access.port.isWrite = true) :
    ¬ Used events access.reg access.port ∧ ¬ Used events access.reg .write1 := by
  have hPorts : (tentative.conflict access.reg).marked .write1 = true →
      Port.write1 ∈ (file.kindOf access.reg).ports := fun hMarked =>
    h.mem_ports _ _ ((h.marked_iff access.reg .write1).1 hMarked).2
  cases access with
  | read0 reg => cases hWrite
  | read1 reg => cases hWrite
  | write0 reg value =>
      obtain ⟨hFlag0, hFlag1⟩ := RegisterKind.unmarked_of_grants_write0 hGranted hPorts
      exact ⟨h.not_used_of_unmarked Port.noConfusion hFlag0,
        h.not_used_of_unmarked Port.noConfusion hFlag1⟩
  | write1 reg value =>
      have hNot := h.not_used_of_unmarked Port.noConfusion
        (RegisterKind.unmarked_of_grants_write1 hGranted)
      exact ⟨hNot, hNot⟩

/-- A granted access adds itself to what the log has to reflect. Only a write of
the register itself can change a value, and it finds no write there that it would
have to respect. -/
theorem granted (h : tentative.Reflects start events) {access : Access file}
    (hGranted : access.granted committed tentative = true) (answer : access.Answer) :
    (access.apply tentative).Reflects start (events ++ [⟨access, .ok answer⟩]) := by
  have hOld : ∀ {reg port}, Used events reg port →
      Used (events ++ [⟨access, .ok answer⟩]) reg port := fun hUsed =>
    used_append.2 (Or.inl hUsed)
  have hNew : Used (events ++ [⟨access, .ok answer⟩]) access.reg access.port :=
    used_append.2 (Or.inr (used_granted.2 ⟨rfl, rfl⟩))
  refine ⟨h.marked_granted access answer, ?_, ?_, ?_, ?_⟩
  · intro reg port hUsed
    rcases used_append.1 hUsed with hUsed | hUsed
    · exact h.mem_ports reg port hUsed
    · obtain ⟨rfl, rfl⟩ := used_granted.1 hUsed
      exact RegisterKind.mem_ports_of_grants hGranted
  · intro reg value hEvent
    rcases List.mem_append.1 hEvent with hEvent | hEvent
    · by_cases hWrites : access.reg = reg ∧ access.port.isWrite = true
      · obtain ⟨rfl, hWrite⟩ := hWrites
        exact absurd (used_of_mem_write1 hEvent)
          (h.not_used_of_granted_write hGranted hWrite).2
      · rw [Access.value_apply_of_not_write tentative hWrites]
        exact h.value_write1 reg value hEvent
    · cases List.mem_singleton.1 hEvent
      exact Log.value_setValue_self _ _ _
  · intro reg value hEvent hNot
    rcases List.mem_append.1 hEvent with hEvent | hEvent
    · by_cases hWrites : access.reg = reg ∧ access.port.isWrite = true
      · obtain ⟨rfl, hWrite⟩ := hWrites
        have hNotUsed := (h.not_used_of_granted_write hGranted hWrite).1
        cases hPort : access.port with
        | read0 => rw [hPort] at hWrite; cases hWrite
        | read1 => rw [hPort] at hWrite; cases hWrite
        | write0 => exact absurd (used_of_mem_write0 hEvent) (hPort ▸ hNotUsed)
        | write1 => exact absurd hNew (hPort ▸ hNot)
      · rw [Access.value_apply_of_not_write tentative hWrites]
        exact h.value_write0 reg value hEvent fun hUsed => hNot (hOld hUsed)
    · cases List.mem_singleton.1 hEvent
      exact Log.value_setValue_self _ _ _
  · intro reg hNot0 hNot1
    have hWrites : ¬ (access.reg = reg ∧ access.port.isWrite = true) := by
      rintro ⟨rfl, hWrite⟩
      cases hPort : access.port with
      | read0 => rw [hPort] at hWrite; cases hWrite
      | read1 => rw [hPort] at hWrite; cases hWrite
      | write0 => exact hNot0 (hPort ▸ hNew)
      | write1 => exact hNot1 (hPort ▸ hNew)
    rw [Access.value_apply_of_not_write tentative hWrites]
    exact h.value_start reg (fun hUsed => hNot0 (hOld hUsed)) fun hUsed => hNot1 (hOld hUsed)

/-- What one attempt preserves. -/
theorem attempt (h : tentative.Reflects start events) (access : Access file) :
    (access.attempt start committed tentative).2.Reflects start
      (events ++ [⟨access, (access.attempt start committed tentative).1⟩]) := by
  cases hGranted : access.granted committed tentative with
  | true =>
      rw [Access.attempt_of_granted hGranted]
      exact h.granted hGranted (access.answer start tentative)
  | false =>
      rw [Access.attempt_of_refused hGranted]
      exact h.refused access access.refusal

/-- What a sequence of attempts preserves. -/
theorem attempts (h : tentative.Reflects start events) (committed : Log file)
    (accesses : List (Access file)) :
    (attemptAll start committed tentative accesses).2.Reflects start
      (events ++ (attemptAll start committed tentative accesses).1) :=
  attemptAll_induction (P := fun events log => log.Reflects start events)
    (fun _ _ access hReflects => hReflects.attempt access) accesses h

end Log.Reflects

/-! ### The history of a sweep -/

/-- The events of the rules that committed. -/
def committedEvents (firings : List (Firing file)) : List (Event file) :=
  (firings.filter Firing.committed).flatMap Firing.events

theorem committedEvents_cons_of_committed {firing : Firing file} {rest : List (Firing file)}
    (h : firing.committed = true) :
    committedEvents (firing :: rest) = firing.events ++ committedEvents rest := by
  simp [committedEvents, h]

theorem committedEvents_cons_of_not {firing : Firing file} {rest : List (Firing file)}
    (h : firing.committed = false) : committedEvents (firing :: rest) = committedEvents rest := by
  simp [committedEvents, h]

/-- A port that was granted to a committed rule. -/
theorem used_committedEvents {firings : List (Firing file)} {reg : file.Reg} {port : Port} :
    Used (committedEvents firings) reg port ↔
      ∃ firing ∈ firings, firing.committed = true ∧ Used firing.events reg port := by
  constructor
  · rintro ⟨event, hEvent, hUses⟩
    obtain ⟨firing, hFiring, hMem⟩ := List.mem_flatMap.1 hEvent
    obtain ⟨hIn, hCommitted⟩ := List.mem_filter.1 hFiring
    exact ⟨firing, hIn, hCommitted, event, hMem, hUses⟩
  · rintro ⟨firing, hIn, hCommitted, event, hMem, hUses⟩
    have hFiring := List.mem_filter.2 ⟨hIn, hCommitted⟩
    exact ⟨event, List.mem_flatMap.2 ⟨firing, hFiring, hMem⟩, hUses⟩

/-- What every attempt preserves, given the events so far, holds of the committed log
of a sweep and the events of the rules that committed. -/
theorem sweep_induction {start : State file} {P : List (Event file) → Log file → Prop}
    (step : ∀ committed events tentative (access : Access file), P events tentative →
      P (events ++ [⟨access, (access.attempt start committed tentative).1⟩])
        (access.attempt start committed tentative).2)
    (rules : List (Rule file)) {log : Log file} {events : List (Event file)} (h : P events log) :
    P (events ++ committedEvents (sweep start rules log).1) (sweep start rules log).2 := by
  induction rules generalizing log events with
  | nil => simpa [committedEvents] using h
  | cons rule rest ih =>
      obtain ⟨firing, last, -, hAttempts, hCases⟩ := sweep_cons start rule log
      rcases hCases with ⟨hOutcome, hSweep⟩ | ⟨conflict, hOutcome, hSweep⟩ |
        ⟨violation, hOutcome, hSweep⟩
      · have hLast := attemptAll_induction (step log) (firing.events.map Event.access) h
        rw [hAttempts] at hLast
        rw [hSweep rest, committedEvents_cons_of_committed (Firing.committed_of_ok hOutcome),
          ← List.append_assoc]
        exact ih hLast
      · rw [hSweep rest,
          committedEvents_cons_of_not (Firing.committed_of_conflict hOutcome)]
        exact ih h
      · rw [hSweep rest,
          committedEvents_cons_of_not (Firing.committed_of_violation hOutcome)]
        simpa [committedEvents] using h

/-- The committed log of a sweep reflects the events of the rules that committed. -/
theorem sweep_reflects {start : State file} (rules : List (Rule file)) {log : Log file}
    {events : List (Event file)} (h : log.Reflects start events) :
    (sweep start rules log).2.Reflects start
      (events ++ committedEvents (sweep start rules log).1) :=
  sweep_induction (P := fun events log => log.Reflects start events)
    (fun _ _ _ access hReflects => hReflects.attempt access) rules h

namespace Scheduler

/-- The committed log after a cycle reflects the events of the rules that committed. -/
theorem reflects_runCycle (scheduler : Scheduler file) (log : Log file) :
    (scheduler.runCycle log).log.Reflects log.state
      (committedEvents (scheduler.runCycle log).firings) := by
  rw [runCycle_log, runCycle_firings]
  exact sweep_reflects scheduler.rules (Log.reflects_ofState log.state)

variable {scheduler : Scheduler file} {log : Log file} {before after : List (Firing file)}
  {firing : Firing file}

/-- The committed log that a rule finds reflects the rules that committed before. -/
theorem reflects_committedBefore
    (hFirings : (scheduler.runCycle log).firings = before ++ firing :: after) :
    (scheduler.committedBefore log before.length).Reflects log.state (committedEvents before) := by
  obtain ⟨-, -, hSweep, -⟩ := exists_rule_fire hFirings
  have hReflects := sweep_reflects (scheduler.rules.take before.length)
    (Log.reflects_ofState log.state)
  rw [hSweep] at hReflects
  exact hReflects

/-- Any access of a cycle is an attempt on the committed log that its rule found and on
a tentative one that reflects also what the rule did before. -/
theorem exists_tentative_of_event
    (hFirings : (scheduler.runCycle log).firings = before ++ firing :: after)
    {earlier later : List (Event file)} {event : Event file}
    (hEvents : firing.events = earlier ++ event :: later) :
    ∃ tentative : Log file,
      tentative.Reflects log.state (committedEvents before ++ earlier) ∧
        event = ⟨event.access, (event.access.attempt log.state
          (scheduler.committedBefore log before.length) tentative).1⟩ := by
  obtain ⟨tentative, hEarlier, hEvent⟩ := exists_attempt hFirings hEvents
  have hTentative := (reflects_committedBefore hFirings).attempts
    (scheduler.committedBefore log before.length) (earlier.map Event.access)
  rw [hEarlier] at hTentative
  exact ⟨tentative, hTentative, hEvent⟩

/-- Any access of a cycle is an attempt on two logs: the committed one reflects the
rules that committed before, the tentative one also what the running rule did. -/
theorem reflects_of_event
    (hFirings : (scheduler.runCycle log).firings = before ++ firing :: after)
    {earlier later : List (Event file)} {event : Event file}
    (hEvents : firing.events = earlier ++ event :: later) :
    ∃ committed tentative : Log file,
      committed.Reflects log.state (committedEvents before) ∧
        tentative.Reflects log.state (committedEvents before ++ earlier) ∧
        event = ⟨event.access, (event.access.attempt log.state committed tentative).1⟩ := by
  obtain ⟨tentative, hTentative, hEvent⟩ := exists_tentative_of_event hFirings hEvents
  exact ⟨_, tentative, reflects_committedBefore hFirings, hTentative, hEvent⟩

/-- A granted access of a cycle was granted by these two logs, and its answer is
theirs. -/
theorem granted_of_event
    (hFirings : (scheduler.runCycle log).firings = before ++ firing :: after)
    {earlier later : List (Event file)} {access : Access file} {given : access.Answer}
    (hEvents : firing.events = earlier ++ ⟨access, .ok given⟩ :: later) :
    ∃ tentative : Log file,
      tentative.Reflects log.state (committedEvents before ++ earlier) ∧
        access.granted (scheduler.committedBefore log before.length) tentative = true ∧
        given = access.answer log.state tentative := by
  obtain ⟨tentative, hTentative, hEvent⟩ := exists_tentative_of_event hFirings hEvents
  have hOutcome := eq_of_heq (Event.mk.inj hEvent).2
  exact ⟨tentative, hTentative, Access.granted_of_attempt_eq_ok hOutcome.symm⟩

end Scheduler

end AtomicRules
