import AtomicRules.Design.Collatz
import AtomicRules.Proofs.History

/-!
# One rule at a time

The rules of a cycle share it, but the state they reach is that of running the
rules that commit one after the other, each in a cycle of its own. This needs
bodies that stop where they are refused: a body that goes on could tell a refusal
in the shared cycle from the grant it would get alone.

A rule that fires alone sees fewer flags, so whatever was granted is granted
again. What it reads through `read1` is the tentative state in both cases. What
it reads through `read0` is the state at the start of its cycle, and that is the
one place where the two differ: an ehr refuses the read after a committed write,
a plain register does not and answers the value of the shared start.

## Main results

* `Action.run_lighter` — a run that was granted everything is repeated with fewer
  flags and its own start.
* `sweep_oneByOne` — a sweep against the cycles of its committed rules.
* `Scheduler.runCycle_oneByOne` — a cycle against them.
-/

namespace AtomicRules

section OneByOne

variable {file : RegisterFile} {α β : Type}

/-! ### Bodies that stop where they are refused -/

/-- After a refusal the action makes no access any more and ends in conflict. -/
def Action.StopsAtRefusal : Action file α → Prop
  | .done _ => True
  | .fail _ => True
  | .access a next =>
      (∃ conflict, next (.error a.refusal) = .fail conflict) ∧
        ∀ answer, (next (.ok answer)).StopsAtRefusal

theorem Action.stopsAtRefusal_perform (a : Access file) : (perform a).StopsAtRefusal :=
  ⟨⟨a.refusal, rfl⟩, fun _ => trivial⟩

theorem Action.StopsAtRefusal.bind {action : Action file α} {next : α → Action file β}
    (h : action.StopsAtRefusal) (hNext : ∀ value, (next value).StopsAtRefusal) :
    (action.bind next).StopsAtRefusal := by
  induction action with
  | done value => exact hNext value
  | fail conflict => trivial
  | access a rest ih =>
      obtain ⟨⟨conflict, hRefused⟩, hGranted⟩ := h
      refine ⟨⟨conflict, ?_⟩, fun answer => ih _ (hGranted answer)⟩
      show (rest (.error a.refusal)).bind next = fail conflict
      rw [hRefused, bind_fail]

/-! ### Fewer flags -/

/-- Clearing flags refuses nothing that was granted. -/
theorem RegisterKind.grants_of_fewer {kind : RegisterKind} {port : Port}
    {committed committed' tentative tentative' : ConflictSet}
    (h : kind.grants port committed tentative = true)
    (hCommitted : ∀ port, committed'.marked port = true → committed.marked port = true)
    (hTentative : ∀ port, tentative'.marked port = true → tentative.marked port = true) :
    kind.grants port committed' tentative' = true := by
  have hC0 := hCommitted .write0
  have hC1 := hCommitted .write1
  have hT0 := hTentative .write0
  have hT1 := hTentative .write1
  have hTr := hTentative .read1
  simp only [ConflictSet.marked] at hC0 hC1 hT0 hT1 hTr
  cases kind <;> cases port <;> simp only [grants] at h ⊢ <;> grind

/-- The same values, and no flag that the other log has not. -/
structure Log.Lighter (light heavy : Log file) : Prop where
  state_eq : light.state = heavy.state
  marked : ∀ reg port, (light.conflict reg).marked port = true →
    (heavy.conflict reg).marked port = true

theorem Log.lighter_ofState (log : Log file) : (Log.ofState log.state).Lighter log where
  state_eq := rfl
  marked reg port h := by simp at h

theorem Log.Lighter.apply {light heavy : Log file} (h : light.Lighter heavy)
    (access : Access file) : (access.apply light).Lighter (access.apply heavy) := by
  constructor
  · have hState := h.state_eq
    cases access with
    | read0 reg => exact hState
    | read1 reg => exact hState
    | write0 reg value => exact congrArg (fun state => state.set reg value) hState
    | write1 reg value => exact congrArg (fun state => state.set reg value) hState
  · intro reg port hMarked
    by_cases hReg : reg = access.reg
    · subst hReg
      rw [Access.conflict_apply_self] at hMarked ⊢
      by_cases hPort : port = access.port
      · subst hPort
        by_cases hRead : access.port = .read0
        · rw [hRead] at hMarked
          cases hMarked
        · exact ConflictSet.marked_mark_self hRead _
      · rw [ConflictSet.marked_mark_of_ne hPort] at hMarked ⊢
        exact h.marked access.reg port hMarked
    · rw [(Access.get_apply_of_ne _ access hReg).2] at hMarked ⊢
      exact h.marked reg port hMarked

theorem Log.Lighter.granted {light heavy committed : Log file} (h : light.Lighter heavy)
    {access : Access file} (hGranted : access.granted committed heavy = true) :
    access.granted (Log.ofState committed.state) light = true :=
  RegisterKind.grants_of_fewer hGranted ((Log.lighter_ofState committed).marked access.reg)
    (h.marked access.reg)

/-! ### A rule alone -/

/-- Where the starts agree as far as `read0` is concerned, a granted access answers
the same on a lighter log. -/
theorem Log.Lighter.answer_eq {light heavy committed : Log file} (h : light.Lighter heavy)
    {start : State file} {access : Access file}
    (hRead0 : access.port = .read0 → committed.value access.reg = start.get access.reg) :
    access.answer committed.state light = access.answer start heavy := by
  cases access with
  | read0 reg => exact hRead0 rfl
  | read1 reg => exact congrArg (fun state => Row.get state reg) h.state_eq
  | write0 reg value => rfl
  | write1 reg value => rfl

/-- A run that ends with a value is repeated on a lighter tentative log, with the
committed values for its start and without committed flags. The start is seen
through `read0` only, so it has to agree where that is used. -/
theorem Action.run_lighter {start : State file} {committed : Log file}
    {footprint : Footprint file} {action : Action file α} (hStops : action.StopsAtRefusal)
    {tentative light : Log file} (hLight : light.Lighter tentative) {journal : Journal file}
    {value : α}
    (hOutcome : (action.run start committed footprint tentative journal).outcome = .ok (.ok value))
    (hRead0 : ∀ reg log, (Access.read0 reg).granted committed log = true →
      Used (action.run start committed footprint tentative journal).events reg .read0 →
        committed.value reg = start.get reg) :
    (action.run committed.state (Log.ofState committed.state) footprint light journal).outcome =
        .ok (.ok value) ∧
      (action.run committed.state (Log.ofState committed.state) footprint light
          journal).tentative.state =
        (action.run start committed footprint tentative journal).tentative.state := by
  induction action generalizing tentative light journal with
  | done last => exact ⟨hOutcome, hLight.state_eq⟩
  | fail conflict => cases hOutcome
  | access a next ih =>
      simp only [run] at hOutcome hRead0 ⊢
      cases hTrack : footprint.track journal a with
      | error violation => simp [hTrack] at hOutcome
      | ok journal' =>
          simp only [hTrack] at hOutcome hRead0 ⊢
          cases hGranted : a.granted committed tentative with
          | false =>
              -- the body would have ended in conflict here
              obtain ⟨⟨conflict, hRefused⟩, -⟩ := hStops
              simp [Access.attempt_of_refused hGranted, hRefused, run] at hOutcome
          | true =>
              have hAnswer : a.answer committed.state light = a.answer start tentative := by
                refine hLight.answer_eq fun hPort => ?_
                cases a with
                | read0 reg =>
                    refine hRead0 reg tentative hGranted ⟨_, List.mem_cons_self, rfl, rfl, ?_⟩
                    rw [Access.attempt_of_granted hGranted]
                    rfl
                | read1 reg => cases hPort
                | write0 reg value => cases hPort
                | write1 reg value => cases hPort
              rw [Access.attempt_of_granted hGranted] at hOutcome hRead0
              simp only [Access.attempt_of_granted hGranted,
                Access.attempt_of_granted (hLight.granted hGranted), hAnswer]
              refine ih _ (hStops.2 _) (hLight.apply a) hOutcome fun reg log hRead hUsed => ?_
              obtain ⟨event, hMem, hUses⟩ := hUsed
              exact hRead0 reg log hRead ⟨event, List.mem_cons_of_mem _ hMem, hUses⟩

/-- The cycle of one rule, on given values and without flags. -/
def Rule.alone (rule : Rule file) (state : State file) : Cycle file :=
  (Scheduler.ofRules [rule]).runCycle (Log.ofState state)

/-- A rule that commits in a shared cycle commits alone, and leaves the same values. -/
theorem Rule.alone_of_commit {rule : Rule file} (hStops : rule.body.StopsAtRefusal)
    {start : State file} {log last : Log file} {firing : Firing file}
    (hFire : (rule.fire start (Workspace.level log)).1 = firing)
    (hAttempts : attemptAll start log log (firing.events.map Event.access) =
      (firing.events, last))
    (hOutcome : firing.outcome = .ok (.ok ()))
    (hRead0 : ∀ reg heavy, (Access.read0 reg).granted log heavy = true →
      Used firing.events reg .read0 → log.value reg = start.get reg) :
    (rule.alone log.state).outcome = .ok ⟨1, 0⟩ ∧
      (rule.alone log.state).log.state = last.state := by
  rw [fire_level_fst] at hFire
  subst hFire
  obtain ⟨hAlone, hState⟩ :
      (rule.runOn log.state (Log.ofState log.state)).outcome = .ok (.ok ()) ∧
        (rule.runOn log.state (Log.ofState log.state)).tentative.state =
          (rule.runOn start log).tentative.state :=
    Action.run_lighter hStops (Log.lighter_ofState log) hOutcome hRead0
  obtain ⟨firing, after, hFire, hAfter, hCases⟩ :=
    sweep_cons log.state rule (Log.ofState log.state)
  rw [fire_level_fst] at hFire
  subst hFire
  simp only [hAlone] at hCases
  rcases hCases with ⟨-, hSweep⟩ | ⟨conflict, hAbort, -⟩ | ⟨violation, hViolation, -⟩
  · have hSwept : (Scheduler.ofRules [rule]).swept (Log.ofState log.state) = (_, after) :=
      hSweep []
    constructor
    · rw [alone, Scheduler.runCycle_outcome, hSwept]
      rfl
    · rw [alone, Scheduler.runCycle_log, hSwept, eq_tentative_of_attempts hAttempts,
        eq_tentative_of_attempts hAfter]
      exact hState
  · cases hAbort
  · cases hViolation

/-! ### All rules -/

/-- The rules whose firings committed, in priority order. -/
def committedRules (rules : List (Rule file)) (firings : List (Firing file)) :
    List (Rule file) :=
  ((rules.zip firings).filter fun pair => pair.2.committed).map Prod.fst

/-- Runs rules one after the other, each in a cycle of its own: how the cycles end,
and the values after the last. -/
def oneByOne : List (Rule file) → State file →
    List (Except FootprintViolation CycleReport) × State file
  | [], state => ([], state)
  | rule :: rest, state =>
      let cycle := rule.alone state
      let after := oneByOne rest cycle.log.state
      (cycle.outcome :: after.1, after.2)

/-- A rule uses `read0` on a plain register that another one wrote. -/
def Firing.ReadsStale (earlier later : Firing file) : Prop :=
  ∃ reg, file.kindOf reg = .plain ∧ Used earlier.events reg .write0 ∧
    Used later.events reg .read0

instance (earlier later : Firing file) : Decidable (earlier.ReadsStale later) :=
  inferInstanceAs (Decidable (∃ reg, file.kindOf reg = .plain ∧ _))

/-- No committed rule uses `read0` on a plain register to which a rule before it has
committed a `write0`. -/
def ReadsFresh (firings : List (Firing file)) : Prop :=
  (firings.filter Firing.committed).Pairwise fun earlier later => ¬ earlier.ReadsStale later

instance (firings : List (Firing file)) : Decidable (ReadsFresh firings) :=
  inferInstanceAs (Decidable (List.Pairwise _ _))

theorem readsFresh_of_no_plain (h : ∀ reg, file.kindOf reg ≠ .plain)
    (firings : List (Firing file)) : ReadsFresh firings := by
  apply List.pairwise_of_forall
  rintro earlier later ⟨reg, hPlain, -, -⟩
  exact h reg hPlain

/-- A sweep against the cycles of the rules that commit in it. The events are those
committed before; the rules still to come read none of the plain registers they
wrote. -/
theorem sweep_oneByOne {start : State file} (rules : List (Rule file))
    (hStops : ∀ rule ∈ rules, rule.body.StopsAtRefusal) {log : Log file}
    {events : List (Event file)} (hReflects : log.Reflects start events)
    (hFresh : ReadsFresh (sweep start rules log).1)
    (hEvents : ∀ later ∈ (sweep start rules log).1.filter Firing.committed, ∀ reg,
      file.kindOf reg = .plain → Used events reg .write0 → ¬ Used later.events reg .read0) :
    oneByOne (committedRules rules (sweep start rules log).1) log.state =
      (List.replicate (committedRules rules (sweep start rules log).1).length (.ok ⟨1, 0⟩),
        (sweep start rules log).2.state) := by
  induction rules generalizing log events with
  | nil => rfl
  | cons rule rest ih =>
      have hRest : ∀ rule ∈ rest, rule.body.StopsAtRefusal := fun later hMem =>
        hStops later (List.mem_cons_of_mem rule hMem)
      obtain ⟨firing, last, hFire, hAttempts, hCases⟩ := sweep_cons start rule log
      rcases hCases with ⟨hOutcome, hSweep⟩ | ⟨conflict, hOutcome, hSweep⟩ |
        ⟨violation, hOutcome, hSweep⟩
      · have hCommitted := Firing.committed_of_ok hOutcome
        rw [hSweep rest] at hFresh hEvents ⊢
        simp only [ReadsFresh, List.filter_cons_of_pos hCommitted, List.pairwise_cons] at hFresh
        simp only [List.filter_cons_of_pos hCommitted, List.forall_mem_cons] at hEvents
        obtain ⟨hAlone, hState⟩ := rule.alone_of_commit (hStops rule List.mem_cons_self)
          hFire hAttempts hOutcome fun reg heavy hGranted hUsed =>
            hReflects.value_eq_start hGranted fun hPlain hWritten =>
              hEvents.1 reg hPlain hWritten hUsed
        have hLast := hReflects.attempts log (firing.events.map Event.access)
        rw [hAttempts] at hLast
        have hLater := ih hRest hLast hFresh.2 fun later hMem reg hPlain hWritten hRead => by
          rcases used_append.1 hWritten with hOld | hNew
          · exact hEvents.2 later hMem reg hPlain hOld hRead
          · exact hFresh.1 later hMem ⟨reg, hPlain, hNew, hRead⟩
        have hRules : committedRules (rule :: rest) (firing :: (sweep start rest last).1) =
            rule :: committedRules rest (sweep start rest last).1 := by
          simp [committedRules, hCommitted]
        rw [hRules, oneByOne, hState, hAlone, hLater]
        rfl
      · have hCommitted := Firing.committed_of_conflict hOutcome
        rw [hSweep rest] at hFresh hEvents ⊢
        simp only [ReadsFresh, List.filter_cons, hCommitted] at hFresh
        simp only [List.filter_cons, hCommitted] at hEvents
        have hRules : committedRules (rule :: rest) (firing :: (sweep start rest log).1) =
            committedRules rest (sweep start rest log).1 := by
          simp [committedRules, hCommitted]
        rw [hRules]
        exact ih hRest hReflects hFresh hEvents
      · have hCommitted := Firing.committed_of_violation hOutcome
        rw [hSweep rest]
        simp [committedRules, hCommitted, oneByOne]

/-- The rules that commit in a cycle on a log, in priority order. -/
def Scheduler.committedRules (scheduler : Scheduler file) (log : Log file) :
    List (Rule file) :=
  AtomicRules.committedRules scheduler.rules (scheduler.runCycle log).firings

/-- The state after a cycle is the one after as many cycles of a single rule as
rules commit, and each of those commits. The proviso on plain registers is met by
every file that has none. -/
theorem Scheduler.runCycle_oneByOne (scheduler : Scheduler file) (log : Log file)
    (hStops : ∀ rule ∈ scheduler.rules, rule.body.StopsAtRefusal) :
    ((∀ reg, file.kindOf reg ≠ .plain) → ReadsFresh (scheduler.runCycle log).firings) ∧
      (ReadsFresh (scheduler.runCycle log).firings →
        oneByOne (scheduler.committedRules log) log.state =
          (List.replicate (scheduler.committedRules log).length (.ok ⟨1, 0⟩),
            (scheduler.runCycle log).log.state)) := by
  refine ⟨fun hNone => readsFresh_of_no_plain hNone _, fun hFresh => ?_⟩
  rw [runCycle_firings] at hFresh
  rw [committedRules, runCycle_firings, runCycle_log]
  exact sweep_oneByOne scheduler.rules hStops (Log.reflects_ofState log.state) hFresh
    fun later _ reg _ hUsed => by simp [Used] at hUsed

end OneByOne

namespace Collatz

theorem stopsAtRefusal_rules : ∀ rule ∈ rules, rule.body.StopsAtRefusal := by
  have hCount : count.StopsAtRefusal := by
    refine (Action.stopsAtRefusal_perform (.read0 x)).bind fun value => ?_
    cases hOne : isOne value with
    | true => trivial
    | false =>
        exact (Action.stopsAtRefusal_perform (.read0 steps)).bind fun before =>
          Action.stopsAtRefusal_perform (.write0 steps _)
  have hDivide : divide.StopsAtRefusal := by
    refine (Action.stopsAtRefusal_perform (.read0 x)).bind fun value => ?_
    split
    · trivial
    · exact Action.stopsAtRefusal_perform (.write0 x _)
  have hMultiply : multiply.StopsAtRefusal := by
    refine (Action.stopsAtRefusal_perform (.read1 x)).bind fun value => ?_
    split
    · exact Action.stopsAtRefusal_perform (.write1 x _)
    · trivial
  simp only [rules, List.forall_mem_cons]
  exact ⟨hCount, hDivide, hMultiply, fun rule hMem => absurd hMem List.not_mem_nil⟩

/-- The value 6, which takes both steps in one cycle. -/
def six : State file := ((Bits.ofNat128 32 6 : Bits 32), (Bits.zero 16 : Bits 16), ())

/-- From 6 the three rules reach 10 together as they do one after the other. -/
theorem runCycle_oneByOne_six :
    let scheduler := Scheduler.ofRules rules
    let cycle := scheduler.runCycle (Log.ofState six)
    ((∀ rule ∈ scheduler.rules, rule.body.StopsAtRefusal) ∧ ReadsFresh cycle.firings) ∧
      scheduler.committedRules (Log.ofState six) = rules ∧
      cycle.log.value x = (Bits.ofNat128 32 10 : Bits 32) ∧
      oneByOne rules six = (List.replicate 3 (.ok ⟨1, 0⟩), cycle.log.state) := by
  have hFresh : ReadsFresh ((Scheduler.ofRules rules).runCycle (Log.ofState six)).firings := by
    decide
  have hSerial := (Scheduler.ofRules rules).runCycle_oneByOne (Log.ofState six)
    stopsAtRefusal_rules
  exact ⟨⟨stopsAtRefusal_rules, hFresh⟩, rfl, rfl, hSerial.2 hFresh⟩

end Collatz

end AtomicRules
