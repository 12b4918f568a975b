import AtomicRules.Design.Collatz
import AtomicRules.Proofs.Writes

/-!
# Independent rules in any order

Two rules are apart when every register that both may use is one that both only read,
or a plain one that only one of them writes. A plain register is read as it was at the
start of the cycle, so its reader cannot tell whether the writer has fired. Of any other
shared register a reader sees the value and the flags of the writes, and there are none.
So a rule that is apart from all others does what it would do as the first rule of the
cycle, wherever it stands, and a log that reflects what the committed rules did does not
show in which order they did it.

A rule that leaves a declared footprint stops the cycle, and which rules have fired by
then does depend on the order. But it stops the cycle in every order.

## Main results

* `Action.run_alike` — a run cannot tell logs apart that differ outside its scope.
* `Log.Reflects.alike` — what rules apart from a scope do is outside of it.
* `sweep_of_apart` — in a sweep over rules that are apart, each one does what it would
  do as the first.
* `Log.Reflects.eq_of_mem_iff` — logs that reflect the same events are equal.
* `Scheduler.runCycle_of_perm` — a cycle of such rules in two orders.
-/

namespace AtomicRules

section Reordering

variable {file : RegisterFile} {α : Type}

/-! ### Scopes -/

/-- Registers that may be read and registers that may be written. -/
structure Scope (file : RegisterFile) where
  reads : List file.Reg
  writes : List file.Reg

/-- The access is inside a scope, whether or not it is granted. -/
def Access.Within (access : Access file) (scope : Scope file) : Prop :=
  access.reg ∈ if access.port.isWrite then scope.writes else scope.reads

instance (access : Access file) (scope : Scope file) : Decidable (access.Within scope) :=
  inferInstanceAs (Decidable (_ ∈ _))

/-- A register of both scopes is only read in both, or it is plain and not written in
both. -/
def Scope.Apart (a b : Scope file) : Prop :=
  ∀ reg, reg ∈ a.reads ++ a.writes → reg ∈ b.reads ++ b.writes →
    (reg ∉ a.writes ∧ reg ∉ b.writes) ∨
      (file.kindOf reg = .plain ∧ ¬ (reg ∈ a.writes ∧ reg ∈ b.writes))

instance (a b : Scope file) : Decidable (a.Apart b) :=
  inferInstanceAs (Decidable (∀ _ : file.Reg, _ → _ → _))

theorem Scope.Apart.symm {a b : Scope file} (h : a.Apart b) : b.Apart a := by
  intro reg hB hA
  rcases h reg hA hB with ⟨hNotA, hNotB⟩ | ⟨hPlain, hNotBoth⟩
  · exact Or.inl ⟨hNotB, hNotA⟩
  · exact Or.inr ⟨hPlain, fun hBoth => hNotBoth hBoth.symm⟩

/-- What a rule does as the first one of a cycle. -/
def Rule.opening (rule : Rule file) (start : State file) : Firing file :=
  (rule.fire start (Workspace.level (Log.ofState start))).1

/-- As the first rule of a cycle the rule attempts only accesses inside a scope. -/
def Rule.Within (rule : Rule file) (start : State file) (scope : Scope file) : Prop :=
  ∀ event ∈ (rule.opening start).events, event.access.Within scope

instance (rule : Rule file) (start : State file) (scope : Scope file) :
    Decidable (rule.Within start scope) :=
  inferInstanceAs (Decidable (∀ event ∈ _, _))

/-! ### Logs that look alike from a scope -/

/-- Two logs that differ in nothing that an access inside a scope depends on. Registers
to be written agree in full. Of the others only those that are not plain count, and of
them the value and the flags that refuse a read. -/
structure Scope.Alike (scope : Scope file) (a b : Log file) : Prop where
  agreesAt : ∀ reg ∈ scope.writes, a.AgreesAt b reg
  value_eq : ∀ reg ∈ scope.reads, file.kindOf reg ≠ .plain → a.value reg = b.value reg
  marked_eq : ∀ reg ∈ scope.reads, file.kindOf reg ≠ .plain → ∀ port, port.isWrite = true →
    (a.conflict reg).marked port = (b.conflict reg).marked port

/-- A read is granted by the committed flags of the writes, and on a plain register by
none; a write is granted by the tentative flags. -/
theorem RegisterKind.grants_congr {kind : RegisterKind} {port : Port}
    {committed committed' tentative tentative' : ConflictSet}
    (hRead : port.isWrite = false → kind ≠ .plain → ∀ other, other.isWrite = true →
      committed.marked other = committed'.marked other)
    (hWrite : port.isWrite = true → tentative = tentative') :
    kind.grants port committed tentative = kind.grants port committed' tentative' := by
  cases hPort : port.isWrite with
  | true =>
      obtain rfl := hWrite hPort
      cases port with
      | read0 => cases hPort
      | read1 => cases hPort
      | write0 => cases kind <;> rfl
      | write1 => cases kind <;> rfl
  | false =>
      by_cases hPlain : kind = .plain
      · subst hPlain
        cases port with
        | read0 => rfl
        | read1 => rfl
        | write0 => cases hPort
        | write1 => cases hPort
      · have h0 : committed.write0 = committed'.write0 := hRead hPort hPlain .write0 rfl
        have h1 : committed.write1 = committed'.write1 := hRead hPort hPlain .write1 rfl
        cases port with
        | read0 => cases kind <;> simp only [grants, h0, h1]
        | read1 => cases kind <;> simp only [grants, h1]
        | write0 => cases hPort
        | write1 => cases hPort

theorem Access.value_apply_congr {a b : Log file} {reg : file.Reg} (access : Access file)
    (h : a.value reg = b.value reg) :
    (access.apply a).value reg = (access.apply b).value reg := by
  by_cases hReg : reg = access.reg
  · subst hReg
    cases access with
    | read0 _ => exact h
    | read1 _ => exact h
    | write0 target value =>
        exact (Log.value_setValue_self _ target value).trans
          (Log.value_setValue_self _ target value).symm
    | write1 target value =>
        exact (Log.value_setValue_self _ target value).trans
          (Log.value_setValue_self _ target value).symm
  · rw [(get_apply_of_ne a access hReg).1, (get_apply_of_ne b access hReg).1, h]

theorem Access.marked_apply_congr {a b : Log file} {reg : file.Reg} {port : Port}
    (access : Access file)
    (h : (a.conflict reg).marked port = (b.conflict reg).marked port) :
    ((access.apply a).conflict reg).marked port =
      ((access.apply b).conflict reg).marked port := by
  by_cases hReg : reg = access.reg
  · subst hReg
    rw [conflict_apply_self, conflict_apply_self]
    by_cases hPort : port = access.port
    · subst hPort
      by_cases hRead : access.port = .read0
      · rw [hRead]
        rfl
      · rw [ConflictSet.marked_mark_self hRead, ConflictSet.marked_mark_self hRead]
    · rw [ConflictSet.marked_mark_of_ne hPort, ConflictSet.marked_mark_of_ne hPort, h]
  · rw [(get_apply_of_ne a access hReg).2, (get_apply_of_ne b access hReg).2, h]

namespace Scope.Alike

variable {scope : Scope file} {start : State file}
  {committed committed' tentative tentative' : Log file} {access : Access file}

theorem granted_eq (hCommitted : scope.Alike committed committed')
    (hTentative : scope.Alike tentative tentative') (h : access.Within scope) :
    access.granted committed tentative = access.granted committed' tentative' := by
  refine RegisterKind.grants_congr (fun hRead hKind => ?_) fun hWrite => ?_
  · have hReg : access.reg ∈ scope.reads := by simpa [Access.Within, hRead] using h
    exact hCommitted.marked_eq access.reg hReg hKind
  · have hReg : access.reg ∈ scope.writes := by simpa [Access.Within, hWrite] using h
    exact (hTentative.agreesAt access.reg hReg).2

/-- Only `read1` answers from the tentative log, and it is not granted on a plain
register. -/
theorem answer_eq (hTentative : scope.Alike tentative tentative') (h : access.Within scope)
    (hGranted : access.granted committed tentative = true) :
    access.answer start tentative = access.answer start tentative' := by
  cases access with
  | read0 reg => rfl
  | read1 reg =>
      refine hTentative.value_eq reg h fun hPlain => ?_
      have hPort : Port.read1 ∈ (file.kindOf reg).ports :=
        RegisterKind.mem_ports_of_grants hGranted
      rw [hPlain] at hPort
      simp [RegisterKind.ports] at hPort
  | write0 reg value => rfl
  | write1 reg value => rfl

theorem apply (h : scope.Alike tentative tentative') (access : Access file) :
    scope.Alike (access.apply tentative) (access.apply tentative') where
  agreesAt reg hReg := by
    obtain ⟨hValue, hConflict⟩ := h.agreesAt reg hReg
    refine ⟨access.value_apply_congr hValue, ConflictSet.ext_marked fun port => ?_⟩
    exact access.marked_apply_congr (by rw [hConflict])
  value_eq reg hReg hKind := access.value_apply_congr (h.value_eq reg hReg hKind)
  marked_eq reg hReg hKind port hPort :=
    access.marked_apply_congr (h.marked_eq reg hReg hKind port hPort)

/-- An attempt inside the scope comes out the same, and the logs stay alike. -/
theorem attempt (start : State file) (hCommitted : scope.Alike committed committed')
    (hTentative : scope.Alike tentative tentative') (h : access.Within scope) :
    (access.attempt start committed tentative).1 =
        (access.attempt start committed' tentative').1 ∧
      scope.Alike (access.attempt start committed tentative).2
        (access.attempt start committed' tentative').2 := by
  have hSame := hCommitted.granted_eq hTentative h
  cases hGranted : access.granted committed tentative with
  | true =>
      rw [Access.attempt_of_granted hGranted, Access.attempt_of_granted (hSame ▸ hGranted)]
      exact ⟨congrArg Except.ok (hTentative.answer_eq h hGranted), hTentative.apply access⟩
  | false =>
      rw [Access.attempt_of_refused hGranted, Access.attempt_of_refused (hSame ▸ hGranted)]
      exact ⟨rfl, hTentative⟩

end Scope.Alike

/-- A run inside a scope comes out the same on logs that are alike there. That it stays
inside has to be known on one side only. -/
theorem Action.run_alike {scope : Scope file} {start : State file}
    {committed committed' : Log file} (hCommitted : scope.Alike committed committed')
    (footprint : Footprint file) (action : Action file α) {tentative tentative' : Log file}
    (hTentative : scope.Alike tentative tentative') (journal : Journal file)
    (hWithin : ∀ event ∈ (action.run start committed' footprint tentative' journal).events,
      event.access.Within scope) :
    (action.run start committed footprint tentative journal).outcome =
        (action.run start committed' footprint tentative' journal).outcome ∧
      (action.run start committed footprint tentative journal).events =
        (action.run start committed' footprint tentative' journal).events := by
  induction action generalizing tentative tentative' journal with
  | done value => exact ⟨rfl, rfl⟩
  | fail conflict => exact ⟨rfl, rfl⟩
  | access a next ih =>
      simp only [run] at hWithin ⊢
      cases hTrack : footprint.track journal a with
      | error violation => exact ⟨rfl, rfl⟩
      | ok journal' =>
          simp only [hTrack, List.forall_mem_cons] at hWithin
          obtain ⟨hSame, hAfter⟩ := hCommitted.attempt start hTentative hWithin.1
          obtain ⟨hOutcome, hEvents⟩ := ih _ hAfter journal' hWithin.2
          simp only [hSame, hOutcome, hEvents, and_self]

theorem Rule.fire_eq_opening {rule : Rule file} {start : State file} {scope : Scope file}
    {log : Log file} (hAlike : scope.Alike log (Log.ofState start))
    (hWithin : rule.Within start scope) :
    (rule.fire start (Workspace.level log)).1 = rule.opening start := by
  obtain ⟨hOutcome, hEvents⟩ :=
    Action.run_alike hAlike rule.footprint rule.body hAlike Journal.empty hWithin
  rw [opening, fire_level_fst, fire_level_fst, runOn, runOn, hOutcome, hEvents]

/-! ### What rules apart from a scope leave there -/

/-- Every event is inside some scope that is apart from a given one. -/
def Scope.ApartFrom (scope : Scope file) (events : List (Event file)) : Prop :=
  ∀ event ∈ events, ∃ other : Scope file, scope.Apart other ∧ event.access.Within other

theorem Scope.apartFrom_append {scope : Scope file} {before after : List (Event file)}
    (hBefore : scope.ApartFrom before) (hAfter : scope.ApartFrom after) :
    scope.ApartFrom (before ++ after) := fun event hMem =>
  (List.mem_append.1 hMem).elim (hBefore event) (hAfter event)

/-- The other rules have used a register that is to be written by `read0` only. -/
theorem Log.Reflects.not_used_of_writes {log : Log file} {start : State file}
    {events : List (Event file)} (h : log.Reflects start events) {scope : Scope file}
    (hOthers : scope.ApartFrom events) {reg : file.Reg} (hReg : reg ∈ scope.writes)
    {port : Port} (hPort : port ≠ .read0) : ¬ Used events reg port := by
  intro hUsed
  have hMem := h.mem_ports reg port hUsed
  obtain ⟨event, hEvent, rfl, rfl, -⟩ := hUsed
  obtain ⟨other, hApart, hWithin⟩ := hOthers event hEvent
  have hOther : event.access.reg ∈ other.reads ++ other.writes := by
    simp only [Access.Within] at hWithin
    split at hWithin
    · exact List.mem_append_right _ hWithin
    · exact List.mem_append_left _ hWithin
  rcases hApart _ (List.mem_append_right _ hReg) hOther with ⟨hNot, -⟩ | ⟨hPlain, hNotBoth⟩
  · exact hNot hReg
  · rw [hPlain, RegisterKind.ports] at hMem
    have hWrite : event.access.port = .write0 := by simpa [hPort] using hMem
    have hWritten : event.access.reg ∈ other.writes := by
      simpa [Access.Within, hWrite, Port.isWrite] using hWithin
    exact hNotBoth ⟨hReg, hWritten⟩

/-- The other rules have not written a register that is to be read, unless it is plain. -/
theorem Scope.ApartFrom.not_used_of_reads {scope : Scope file} {events : List (Event file)}
    (hOthers : scope.ApartFrom events) {reg : file.Reg} (hReg : reg ∈ scope.reads)
    (hKind : file.kindOf reg ≠ .plain) {port : Port} (hPort : port.isWrite = true) :
    ¬ Used events reg port := by
  rintro ⟨event, hEvent, rfl, rfl, -⟩
  obtain ⟨other, hApart, hWithin⟩ := hOthers event hEvent
  have hWritten : event.access.reg ∈ other.writes := by
    simpa [Access.Within, hPort] using hWithin
  rcases hApart _ (List.mem_append_left _ hReg) (List.mem_append_right _ hWritten) with
    ⟨-, hNot⟩ | ⟨hPlain, -⟩
  · exact hNot hWritten
  · exact hKind hPlain

/-- From a scope a log looks as at the start of the cycle, as long as only rules apart
from it have committed. -/
theorem Log.Reflects.alike {log : Log file} {start : State file} {events : List (Event file)}
    (h : log.Reflects start events) {scope : Scope file} (hOthers : scope.ApartFrom events) :
    scope.Alike log (Log.ofState start) where
  agreesAt reg hReg := by
    have hNot {port : Port} (hPort : port ≠ .read0) : ¬ Used events reg port :=
      h.not_used_of_writes hOthers hReg hPort
    refine ⟨h.value_start reg (hNot Port.noConfusion) (hNot Port.noConfusion), ?_⟩
    rw [conflict_ofState]
    apply ConflictSet.ext_marked
    intro port
    rw [ConflictSet.marked_clear, ← Bool.not_eq_true, h.marked_iff]
    exact fun hMarked => hNot hMarked.1 hMarked.2
  value_eq reg hReg hKind :=
    h.value_start reg (hOthers.not_used_of_reads hReg hKind rfl)
      (hOthers.not_used_of_reads hReg hKind rfl)
  marked_eq reg hReg hKind port hPort := by
    rw [conflict_ofState, ConflictSet.marked_clear, ← Bool.not_eq_true, h.marked_iff]
    exact fun hMarked => hOthers.not_used_of_reads hReg hKind hPort hMarked.2

/-! ### A sweep over rules that are apart -/

/-- The firings up to the first violation of a footprint, which is the last. -/
def upToViolation : List (Firing file) → List (Firing file)
  | [] => []
  | firing :: rest =>
      match firing.outcome with
      | .error _ => [firing]
      | .ok _ => firing :: upToViolation rest

/-- In a sweep over rules that are apart, each one that fires does what it would do as
the first. -/
theorem sweep_of_apart {start : State file} {scope : Rule file → Scope file}
    (rules : List (Rule file)) (hWithin : ∀ rule ∈ rules, rule.Within start (scope rule))
    (hApart : rules.Pairwise fun a b => (scope a).Apart (scope b)) {log : Log file}
    {events : List (Event file)} (hReflects : log.Reflects start events)
    (hOthers : ∀ rule ∈ rules, (scope rule).ApartFrom events) :
    (sweep start rules log).1 = upToViolation (rules.map fun rule => rule.opening start) := by
  induction rules generalizing log events with
  | nil => rfl
  | cons rule rest ih =>
      simp only [List.forall_mem_cons] at hWithin hOthers
      obtain ⟨hApartFirst, hApartRest⟩ := List.pairwise_cons.1 hApart
      have hOpening := Rule.fire_eq_opening (hReflects.alike hOthers.1) hWithin.1
      obtain ⟨firing, last, hFire, hAttempts, hCases⟩ := sweep_cons start rule log
      obtain rfl : rule.opening start = firing := hOpening.symm.trans hFire
      rw [List.map_cons, upToViolation]
      rcases hCases with ⟨hOutcome, hSweep⟩ | ⟨conflict, hOutcome, hSweep⟩ |
        ⟨violation, hOutcome, hSweep⟩
      · -- what the rule did is apart from every rule still to come
        have hLast := hReflects.attempts log ((rule.opening start).events.map Event.access)
        rw [hAttempts] at hLast
        have hLater : ∀ later ∈ rest,
            (scope later).ApartFrom (events ++ (rule.opening start).events) :=
          fun later hMem => Scope.apartFrom_append (hOthers.2 later hMem) fun event hEvent =>
            ⟨scope rule, (hApartFirst later hMem).symm, hWithin.1 event hEvent⟩
        rw [hSweep rest, ih hWithin.2 hApartRest hLast hLater]
        simp only [hOutcome]
      · rw [hSweep rest, ih hWithin.2 hApartRest hReflects hOthers.2]
        simp only [hOutcome]
      · rw [hSweep rest]
        simp only [hOutcome]

/-- A report stops counting at a violation anyhow. -/
theorem tally_upToViolation (firings : List (Firing file)) (report : CycleReport) :
    tally (upToViolation firings) report = tally firings report := by
  induction firings generalizing report with
  | nil => rfl
  | cons firing rest ih =>
      simp only [upToViolation, tally]
      cases hOutcome : firing.outcome with
      | error violation => simp only [tally, hOutcome]
      | ok ending =>
          cases ending with
          | ok value => simp only [tally, hOutcome, ih]
          | error conflict => simp only [tally, hOutcome, ih]

theorem prefix_upToViolation (firings : List (Firing file)) :
    upToViolation firings <+: firings := by
  induction firings with
  | nil => exact List.prefix_rfl
  | cons firing rest ih =>
      rw [upToViolation]
      split
      · exact List.cons_prefix_cons.2 ⟨rfl, List.nil_prefix⟩
      · exact List.cons_prefix_cons.2 ⟨rfl, ih⟩

/-- The rule went through to its end. -/
def Firing.Completed (firing : Firing file) : Prop := ∃ ending, firing.outcome = .ok ending

theorem upToViolation_of_completed {firings : List (Firing file)}
    (h : ∀ firing ∈ firings, firing.Completed) : upToViolation firings = firings := by
  induction firings with
  | nil => rfl
  | cons firing rest ih =>
      obtain ⟨⟨ending, hOutcome⟩, hRest⟩ := List.forall_mem_cons.1 h
      simp only [upToViolation, hOutcome, ih hRest]

/-- A report is made when every rule went through to its end, and it counts the two
ways in which they did. -/
theorem tally_eq_ok_iff {firings : List (Firing file)} {report final : CycleReport} :
    tally firings report = .ok final ↔
      (∀ firing ∈ firings, firing.Completed) ∧
        final = ⟨report.committed + firings.countP Firing.committed,
          report.aborted + firings.countP Firing.aborted⟩ := by
  induction firings generalizing report with
  | nil => simp [tally, eq_comm]
  | cons firing rest ih =>
      simp only [tally, List.forall_mem_cons]
      cases hOutcome : firing.outcome with
      | error violation => simp [Firing.Completed, hOutcome]
      | ok ending =>
          have hCompleted : firing.Completed := ⟨ending, hOutcome⟩
          cases ending with
          | ok value =>
              simp only [ih, hCompleted, true_and, List.countP_cons, Firing.committed,
                Firing.aborted, hOutcome, if_true, Bool.false_eq_true, if_false, Nat.add_zero,
                Nat.add_assoc, Nat.add_comm 1]
          | error conflict =>
              simp only [ih, hCompleted, true_and, List.countP_cons, Firing.committed,
                Firing.aborted, hOutcome, if_true, Bool.false_eq_true, if_false, Nat.add_zero,
                Nat.add_assoc, Nat.add_comm 1]

/-! ### The order of events does not show in a log -/

/-- Two logs that reflect the same events from the same start are equal, in whatever
order the events came. -/
theorem Log.Reflects.eq_of_mem_iff {a b : Log file} {start : State file}
    {events events' : List (Event file)} (ha : a.Reflects start events)
    (hb : b.Reflects start events') (hSame : ∀ event, event ∈ events ↔ event ∈ events') :
    a = b := by
  have hUsed (reg : file.Reg) (port : Port) : Used events reg port ↔ Used events' reg port := by
    simp only [Used, hSame]
  refine Log.ext_get fun reg => ⟨?_, ConflictSet.ext_marked fun port => ?_⟩
  · cases hLast : writes events reg .write1 with
    | cons value _ =>
        have hEvent : ⟨.write1 reg value, .ok ()⟩ ∈ events := by
          have hMem : value ∈ writes events reg .write1 := hLast ▸ List.mem_cons_self
          simpa [mem_writes_iff] using hMem
        rw [ha.value_write1 reg value hEvent, hb.value_write1 reg value ((hSame _).1 hEvent)]
    | nil =>
        have hNot1 := (writes_eq_nil_iff rfl).1 hLast
        have hNot1' := mt (hUsed reg .write1).2 hNot1
        cases hFirst : writes events reg .write0 with
        | cons value _ =>
            have hEvent : ⟨.write0 reg value, .ok ()⟩ ∈ events := by
              have hMem : value ∈ writes events reg .write0 := hFirst ▸ List.mem_cons_self
              simpa [mem_writes_iff] using hMem
            rw [ha.value_write0 reg value hEvent hNot1,
              hb.value_write0 reg value ((hSame _).1 hEvent) hNot1']
        | nil =>
            have hNot0 := (writes_eq_nil_iff rfl).1 hFirst
            rw [ha.value_start reg hNot0 hNot1,
              hb.value_start reg (mt (hUsed reg .write0).2 hNot0) hNot1']
  · rw [Bool.eq_iff_iff, ha.marked_iff, hb.marked_iff, hUsed]

theorem mem_committedEvents {firings : List (Firing file)} {event : Event file} :
    event ∈ committedEvents firings ↔
      ∃ firing ∈ firings, firing.committed = true ∧ event ∈ firing.events := by
  simp [committedEvents, and_assoc]

/-! ### Two orders of a cycle -/

namespace Scheduler

/-- What the rules do, each as the first of a cycle. -/
def openings (scheduler : Scheduler file) (start : State file) : List (Firing file) :=
  scheduler.rules.map fun rule => rule.opening start

/-- Every rule is inside its scope, and the scopes are apart. -/
structure Independent (scheduler : Scheduler file) (start : State file)
    (scope : Rule file → Scope file) : Prop where
  within : ∀ rule ∈ scheduler.rules, rule.Within start (scope rule)
  apart : scheduler.rules.Pairwise fun a b => (scope a).Apart (scope b)

variable {scheduler permuted : Scheduler file} {log : Log file}
  {scope : Rule file → Scope file}

theorem Independent.of_perm {start : State file} (h : scheduler.Independent start scope)
    (hPerm : permuted.rules.Perm scheduler.rules) : permuted.Independent start scope where
  within rule hMem := h.within rule (hPerm.mem_iff.1 hMem)
  apart := (hPerm.pairwise_iff Scope.Apart.symm).2 h.apart

theorem Independent.firings_eq (h : scheduler.Independent log.state scope) :
    (scheduler.runCycle log).firings = upToViolation (scheduler.openings log.state) := by
  rw [runCycle_firings]
  exact sweep_of_apart scheduler.rules h.within h.apart (Log.reflects_ofState log.state)
    fun rule _ event hEvent => absurd hEvent List.not_mem_nil

theorem Independent.outcome_eq_ok_iff (h : scheduler.Independent log.state scope)
    {report : CycleReport} :
    (scheduler.runCycle log).outcome = .ok report ↔
      (∀ firing ∈ scheduler.openings log.state, firing.Completed) ∧
        report = ⟨(scheduler.openings log.state).countP Firing.committed,
          (scheduler.openings log.state).countP Firing.aborted⟩ := by
  rw [runCycle_outcome, ← runCycle_firings, h.firings_eq, tally_upToViolation, tally_eq_ok_iff,
    Nat.zero_add, Nat.zero_add]

/-- When a rule fires, it does what it would do as the first rule of the cycle. -/
theorem Independent.eq_opening (h : scheduler.Independent log.state scope) {place : Nat}
    {rule : Rule file} {firing : Firing file} (hRule : scheduler.rules[place]? = some rule)
    (hFiring : (scheduler.runCycle log).firings[place]? = some firing) :
    firing = rule.opening log.state := by
  rw [h.firings_eq] at hFiring
  obtain ⟨hPlace, hEntry⟩ := List.getElem?_eq_some_iff.1 hFiring
  have hOpening := List.prefix_iff_getElem?.1 (prefix_upToViolation _) place hPlace
  rw [hEntry, openings, List.getElem?_map, hRule] at hOpening
  exact (Option.some.inj hOpening).symm

/-- Rules that are apart can fire in any order. The cycle is run to its end in one order
exactly when it is in another, with the same report; the committed log after it is the
same, flags included, and every rule ends as in the other order and gets the same answers
to its accesses. Where a rule leaves its footprint, the order decides which rules still
fire, but those that fire in both orders do the same.

That a rule keeps to its scope is asked of its run as the first rule of the cycle only;
the other runs follow. -/
theorem runCycle_of_perm (scheduler permuted : Scheduler file) (log : Log file)
    (scope : Rule file → Scope file) (hIndependent : scheduler.Independent log.state scope)
    (hPerm : permuted.rules.Perm scheduler.rules) :
    (∀ report, (permuted.runCycle log).outcome = .ok report ↔
        (scheduler.runCycle log).outcome = .ok report) ∧
      (∀ report, (scheduler.runCycle log).outcome = .ok report →
        (permuted.runCycle log).log = (scheduler.runCycle log).log ∧
          ∀ (place place' : Nat) rule, scheduler.rules[place]? = some rule →
            permuted.rules[place']? = some rule →
              ∃ firing, (scheduler.runCycle log).firings[place]? = some firing ∧
                (permuted.runCycle log).firings[place']? = some firing) ∧
      ∀ (place place' : Nat) rule firing firing', scheduler.rules[place]? = some rule →
        permuted.rules[place']? = some rule →
          (scheduler.runCycle log).firings[place]? = some firing →
            (permuted.runCycle log).firings[place']? = some firing' → firing' = firing := by
  have hPermuted : permuted.Independent log.state scope := hIndependent.of_perm hPerm
  have hOpenings : (permuted.openings log.state).Perm (scheduler.openings log.state) :=
    hPerm.map _
  have hOutcome (report : CycleReport) : (permuted.runCycle log).outcome = .ok report ↔
      (scheduler.runCycle log).outcome = .ok report := by
    rw [hIndependent.outcome_eq_ok_iff, hPermuted.outcome_eq_ok_iff, hOpenings.countP_eq,
      hOpenings.countP_eq]
    simp only [hOpenings.mem_iff]
  refine ⟨hOutcome, fun report hReport => ?_, ?_⟩
  · have hFirings : (scheduler.runCycle log).firings = scheduler.openings log.state := by
      rw [hIndependent.firings_eq,
        upToViolation_of_completed (hIndependent.outcome_eq_ok_iff.1 hReport).1]
    have hFirings' : (permuted.runCycle log).firings = permuted.openings log.state := by
      rw [hPermuted.firings_eq, upToViolation_of_completed
        (hPermuted.outcome_eq_ok_iff.1 ((hOutcome report).2 hReport)).1]
    constructor
    · refine (permuted.reflects_runCycle log).eq_of_mem_iff (scheduler.reflects_runCycle log) ?_
      intro event
      rw [hFirings, hFirings', mem_committedEvents, mem_committedEvents]
      simp only [hOpenings.mem_iff]
    · intro place place' rule hRule hRule'
      refine ⟨rule.opening log.state, ?_, ?_⟩
      · rw [hFirings, openings, List.getElem?_map, hRule]
        rfl
      · rw [hFirings', openings, List.getElem?_map, hRule']
        rfl
  · intro place place' rule firing firing' hRule hRule' hFiring hFiring'
    rw [hIndependent.eq_opening hRule hFiring, hPermuted.eq_opening hRule' hFiring']

end Scheduler

end Reordering

namespace Collatz

/-- Looks at the running value as it is now and at the counter as it was. -/
def watch : Rule file where
  name := "watch"
  footprint := .dynamic
  body := do
    let _now ← Action.read1 x
    let _before ← Action.read0 steps
    pure ()

/-- Looks at the running value and gives up. -/
def giveUp : Rule file where
  name := "giveUp"
  footprint := .declared [x]
  body := do
    let _now ← Action.read1 x
    Action.fail ⟨"x", .write0⟩

/-- A writer of the counter and two readers. -/
def watched : List (Rule file) :=
  [{ name := "count", footprint := .whole, body := count }, watch, giveUp]

/-- The counter is written by `count` only. -/
def watchedScope (rule : Rule file) : Scope file :=
  ⟨[x, steps], if rule.name = "count" then [steps] else []⟩

/-- All three read the ephemeral history register, two of them the counter that the third
one writes, and one aborts. In the opposite order nothing is different. -/
theorem runCycle_of_perm_watched :
    let scheduler := Scheduler.ofRules watched
    let permuted := Scheduler.ofRules watched.reverse
    let log := Log.initial file
    (scheduler.Independent log.state watchedScope ∧ permuted.rules.Perm scheduler.rules) ∧
      (permuted.runCycle log).outcome = .ok ⟨2, 1⟩ ∧
      (permuted.runCycle log).log = (scheduler.runCycle log).log ∧
      (permuted.runCycle log).firings = (scheduler.runCycle log).firings.reverse := by
  have hIndependent :
      (Scheduler.ofRules watched).Independent (Log.initial file).state watchedScope :=
    ⟨by decide, by decide⟩
  have hPerm : (Scheduler.ofRules watched.reverse).rules.Perm
      (Scheduler.ofRules watched).rules := watched.reverse_perm
  obtain ⟨hOutcome, hCompleted, -⟩ := (Scheduler.ofRules watched).runCycle_of_perm
    (Scheduler.ofRules watched.reverse) (Log.initial file) watchedScope hIndependent hPerm
  exact ⟨⟨hIndependent, hPerm⟩, (hOutcome ⟨2, 1⟩).2 rfl, (hCompleted ⟨2, 1⟩ rfl).1, rfl⟩

end Collatz

end AtomicRules
