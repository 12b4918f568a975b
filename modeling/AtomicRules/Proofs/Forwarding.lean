import AtomicRules.Design.Collatz
import AtomicRules.Proofs.History

/-!
# Forwarding through an ephemeral history register

The four ports of an ephemeral history register act in one order, so `read1`
should answer what `write0` left, and nothing that `write1` writes. Between rules
it is so: after a committed `write1` the read is refused. Within one rule it is
not. `read1` is checked against the committed flags but answers from the
tentative log, and so a rule that has used `write1` reads its own value back.

## Main results

* `Scheduler.answer_read1_of_ehr` — what every granted `read1` answers, and that
  it is the value after the `write0` slot exactly when each `write1` the running
  rule made before had that value too.
* `Collatz.read1_answers_own_write1` — a rule that reads a later slot.
-/

namespace AtomicRules

section Answers

variable {file : RegisterFile}

/-- The value a register has after the `write0` slot of a cycle with given events:
what `write0` wrote if it was granted, else what the register held at the start. -/
def AfterWrite0 (start : State file) (events : List (Event file)) (reg : file.Reg)
    (value : file.Val reg) : Prop :=
  (∀ written, ⟨.write0 reg written, .ok ()⟩ ∈ events → value = written) ∧
    (¬ Used events reg .write0 → value = start.get reg)

/-- A tentative log without a `write1` holds the value after the `write0` slot. -/
theorem Log.Reflects.afterWrite0 {log : Log file} {start : State file}
    {events : List (Event file)} (h : log.Reflects start events) {reg : file.Reg}
    (hNot : ¬ Used events reg .write1) : AfterWrite0 start events reg (log.value reg) := by
  constructor
  · intro written hEvent
    exact h.value_write0 reg written hEvent hNot
  · intro hNot0
    exact h.value_start reg hNot0 hNot

/-- Every granted `read1` of an ephemeral history register answers what the running
rule wrote through `write1` before, if it did, and otherwise the value after the
`write0` slot. No earlier rule has committed a `write1` then. -/
theorem Scheduler.answer_read1_of_ehr (scheduler : Scheduler file) (log : Log file)
    {before after : List (Firing file)} {firing : Firing file}
    (hFirings : (scheduler.runCycle log).firings = before ++ firing :: after)
    {earlier later : List (Event file)} {reg : file.Reg} {value : file.Val reg}
    (hEvents : firing.events = earlier ++ ⟨.read1 reg, .ok value⟩ :: later)
    (hKind : file.kindOf reg = .ehr) :
    ¬ Used (committedEvents before) reg .write1 ∧
      (∀ own, ⟨.write1 reg own, .ok ()⟩ ∈ earlier → value = own) ∧
      (¬ Used earlier reg .write1 →
        AfterWrite0 log.state (committedEvents before ++ earlier) reg value) ∧
      (AfterWrite0 log.state (committedEvents before ++ earlier) reg value ↔
        ∀ own, ⟨.write1 reg own, .ok ()⟩ ∈ earlier →
          AfterWrite0 log.state (committedEvents before ++ earlier) reg own) := by
  obtain ⟨committed, tentative, hCommitted, hTentative, hEvent⟩ :=
    reflects_of_event hFirings hEvents
  have hGranted : (Access.read1 reg).granted committed tentative = true := by
    cases hGranted : (Access.read1 reg).granted committed tentative with
    | true => rfl
    | false => simp [Access.attempt_of_refused hGranted] at hEvent
  obtain rfl : value = tentative.value reg := by
    rw [Access.attempt_of_granted hGranted] at hEvent
    exact Except.ok.inj (eq_of_heq (Event.mk.inj hEvent).2)
  have hFlag : (committed.conflict reg).marked .write1 = false := by
    simpa [Access.granted, Access.reg, Access.port, hKind, RegisterKind.grants,
      ConflictSet.marked] using hGranted
  have hBefore : ¬ Used (committedEvents before) reg .write1 :=
    hCommitted.not_used_of_unmarked Port.noConfusion hFlag
  have hOwn : ∀ own, ⟨.write1 reg own, .ok ()⟩ ∈ earlier → tentative.value reg = own :=
    fun own hMem => hTentative.value_write1 reg own (List.mem_append_right _ hMem)
  have hSlot : ¬ Used earlier reg .write1 →
      AfterWrite0 log.state (committedEvents before ++ earlier) reg (tentative.value reg) :=
    fun hNot => hTentative.afterWrite0 fun hUsed =>
      (used_append.1 hUsed).elim hBefore hNot
  refine ⟨hBefore, hOwn, hSlot, ?_⟩
  constructor
  · intro hAfter own hMem
    rw [← hOwn own hMem]
    exact hAfter
  · intro hAll
    by_cases hUsed : Used earlier reg .write1
    · obtain ⟨own, hMem⟩ := exists_mem_of_used_write1 hUsed
      rw [hOwn own hMem]
      exact hAll own hMem
    · exact hSlot hUsed

end Answers

namespace Collatz

/-- The value 10, which is halved and then tripled in one cycle. -/
def ten : State file := ((Bits.ofNat128 32 10 : Bits 32), (Bits.zero 16 : Bits 16), ())

/-- The cycle from there. -/
def forwardedCycle : Cycle file := (Scheduler.ofRules rules).runCycle (Log.ofState ten)

/-- What `multiply` does in it: `divide` has left 5 through `write0`, so it reads 5
through `read1`. -/
def multiplied : Firing file where
  rule := "multiply"
  outcome := .ok (.ok ())
  events := [⟨.read1 x, .ok (Bits.ofNat128 32 5 : Bits 32)⟩,
    ⟨.write1 x (Bits.ofNat128 32 16 : Bits 32), .ok ()⟩]

theorem answer_read1_multiplied :
    forwardedCycle.firings = forwardedCycle.firings.take 2 ++ multiplied :: [] ∧
      file.kindOf x = .ehr ∧
      ⟨.write0 x (Bits.ofNat128 32 5 : Bits 32), .ok ()⟩ ∈
        committedEvents (forwardedCycle.firings.take 2) ∧
      AfterWrite0 ten (committedEvents (forwardedCycle.firings.take 2) ++ []) x
        (Bits.ofNat128 32 5 : Bits 32) := by
  have hFirings :
      forwardedCycle.firings = forwardedCycle.firings.take 2 ++ multiplied :: [] := rfl
  have hEvents : multiplied.events = [] ++ ⟨.read1 x, .ok (Bits.ofNat128 32 5 : Bits 32)⟩ ::
      [⟨.write1 x (Bits.ofNat128 32 16 : Bits 32), .ok ()⟩] := rfl
  have hWritten : (committedEvents (forwardedCycle.firings.take 2))[4]?
      = some ⟨.write0 x (Bits.ofNat128 32 5 : Bits 32), .ok ()⟩ := rfl
  obtain ⟨-, -, hSlot, -⟩ :=
    (Scheduler.ofRules rules).answer_read1_of_ehr (Log.ofState ten) hFirings hEvents rfl
  exact ⟨hFirings, rfl, List.mem_of_getElem? hWritten, hSlot (by decide)⟩

/-- Writes the running value through the last port and reads it back. -/
def readBack : Rule file where
  name := "read-back"
  footprint := .whole
  body := do
    Action.write1 x (Bits.ofNat128 32 1 : Bits 32)
    let _ ← Action.read1 x

/-- The cycle of `readBack` alone. -/
def readBackCycle : Cycle file := (Scheduler.ofRules [readBack]).runCycle (Log.initial file)

/-- The read is granted, and its answer is the value of the later slot: no `write0`
was made, and the register held 27. -/
theorem read1_answers_own_write1 :
    ∃ (firing : Firing file) (earlier : List (Event file)) (value : file.Val x),
      readBackCycle.firings = [] ++ firing :: [] ∧
        firing.events = earlier ++ ⟨.read1 x, .ok value⟩ :: [] ∧
        ⟨.write1 x value, .ok ()⟩ ∈ earlier ∧
        ¬ AfterWrite0 (State.initial file) (committedEvents [] ++ earlier) x value := by
  refine ⟨_, [⟨.write1 x (Bits.ofNat128 32 1 : Bits 32), .ok ()⟩],
    (Bits.ofNat128 32 1 : Bits 32), rfl, rfl, List.mem_singleton.2 rfl, ?_⟩
  rintro ⟨-, hStart⟩
  have hNot : ¬ Used (committedEvents [] ++
      [(⟨.write1 x (Bits.ofNat128 32 1 : Bits 32), .ok ()⟩ : Event file)]) x .write0 := by
    decide
  have hDistinct : (Bits.ofNat128 32 1 : Bits 32) ≠ Bits.ofNat128 32 27 := by decide
  exact hDistinct (hStart hNot)

end Collatz

end AtomicRules
