import AtomicRules.Proofs.Aborts
import AtomicRules.Proofs.Serial
import AtomicRules.Proofs.Writes

/-!
# Reads are isolated

A read looks into one of three copies of the register file: `read0` into the values
kept from the start of the cycle, `read1` into the tentative log, and both are
checked against the committed log. What it answers can be said without them.
`read0` answers the value at the start, whatever was written since. `read1` answers
that value too, or one that a committed rule or the running rule wrote before. A rule
that aborted is no source for anyone else.

## Main results

* `Log.Reflects.value_cases` — where the value of a log can come from.
* `Scheduler.answer_of_read` — where the answer to a read comes from, in a rule that
  commits and in one that does not.
-/

namespace AtomicRules

section Reads

variable {file : RegisterFile}

/-- A write of the value to the register was granted, through either port. -/
def Wrote (events : List (Event file)) (reg : file.Reg) (value : file.Val reg) : Prop :=
  value ∈ writes events reg .write0 ∨ value ∈ writes events reg .write1

instance (events : List (Event file)) (reg : file.Reg) (value : file.Val reg) :
    Decidable (Wrote events reg value) :=
  inferInstanceAs (Decidable (_ ∨ _))

theorem wrote_append {before after : List (Event file)} {reg : file.Reg}
    {value : file.Val reg} :
    Wrote (before ++ after) reg value ↔ Wrote before reg value ∨ Wrote after reg value := by
  simp only [Wrote, writes, List.filterMap_append, List.mem_append]
  exact or_or_or_comm

/-- The value of a log that reflects a history is the one at the start or one that the
history has a write of. -/
theorem Log.Reflects.value_cases {log : Log file} {start : State file}
    {events : List (Event file)} (h : log.Reflects start events) (reg : file.Reg) :
    log.value reg = start.get reg ∨ Wrote events reg (log.value reg) := by
  rw [h.value_eq reg]
  cases hWritten : (writes events reg .write1).head?.or (writes events reg .write0).head? with
  | none => exact Or.inl rfl
  | some value =>
      rcases Option.or_eq_some_iff.1 hWritten with hLast | ⟨-, hFirst⟩
      · exact Or.inr (Or.inr (List.mem_of_mem_head? hLast))
      · exact Or.inr (Or.inl (List.mem_of_mem_head? hFirst))

/-- So far in the cycle only rules that aborted wrote the value to the register. -/
def OnlyAbortedWrote (start : State file) (before : List (Firing file))
    (own : List (Event file)) (reg : file.Reg) (value : file.Val reg) : Prop :=
  (∃ firing ∈ before, firing.aborted = true ∧ Wrote firing.events reg value) ∧
    value ≠ start.get reg ∧ ¬ Wrote (committedEvents before) reg value ∧ ¬ Wrote own reg value

/-- A granted `read0` answers the value at the start of the cycle; on an ephemeral
history register this is the committed value, too. A granted `read1` answers the value
at the start, or one that an earlier rule wrote and committed, or one that the rule
itself wrote before. So no read answers a value that only aborted rules wrote. Nothing
is asked of the outcome of the rule that reads. -/
theorem Scheduler.answer_of_read (scheduler : Scheduler file) (log : Log file)
    {before after : List (Firing file)} {firing : Firing file}
    (hFirings : (scheduler.runCycle log).firings = before ++ firing :: after)
    {earlier later : List (Event file)} {event : Event file}
    (hEvents : firing.events = earlier ++ event :: later) (reg : file.Reg)
    (value : file.Val reg) :
    (event = ⟨.read0 reg, .ok value⟩ →
        value = log.value reg ∧
          (file.kindOf reg = .ehr →
            value = (scheduler.committedBefore log before.length).value reg)) ∧
      (event = ⟨.read1 reg, .ok value⟩ →
        value = log.value reg ∨ Wrote (committedEvents before) reg value ∨
          Wrote earlier reg value) ∧
      (event = ⟨.read0 reg, .ok value⟩ ∨ event = ⟨.read1 reg, .ok value⟩ →
        ¬ OnlyAbortedWrote log.state before earlier reg value) := by
  have hRead0 : event = ⟨.read0 reg, .ok value⟩ →
      value = log.value reg ∧
        (file.kindOf reg = .ehr →
          value = (scheduler.committedBefore log before.length).value reg) := by
    rintro rfl
    obtain ⟨tentative, -, hGranted, hAnswer⟩ := granted_of_event hFirings hEvents
    have hStart : value = log.state.get reg := hAnswer
    refine ⟨hStart, fun hEhr => ?_⟩
    have hCommitted := (reflects_committedBefore hFirings).value_eq_start hGranted
      fun hPlain => by rw [hEhr] at hPlain; cases hPlain
    rw [hStart, hCommitted]
  have hRead1 : event = ⟨.read1 reg, .ok value⟩ →
      value = log.value reg ∨ Wrote (committedEvents before) reg value ∨
        Wrote earlier reg value := by
    rintro rfl
    obtain ⟨tentative, hTentative, -, hAnswer⟩ := granted_of_event hFirings hEvents
    obtain rfl : value = tentative.value reg := hAnswer
    rw [← wrote_append]
    exact hTentative.value_cases reg
  refine ⟨hRead0, hRead1, ?_⟩
  rintro hRead ⟨-, hNotStart, hNotCommitted, hNotOwn⟩
  rcases hRead with hRead | hRead
  · exact hNotStart (hRead0 hRead).1
  · rcases hRead1 hRead with hStart | hCommitted | hOwn
    · exact hNotStart hStart
    · exact hNotCommitted hCommitted
    · exact hNotOwn hOwn

end Reads

namespace Collatz

/-- A number as the running value. -/
def number (n : Nat) : file.Val x := (Bits.ofNat128 32 n : Bits 32)

/-- A cycle from 6 with `spill` in front, which writes 5 and is undone. -/
def spilledCycle : Cycle file :=
  (Scheduler.ofRules (spill :: rules)).runCycle (Log.ofState six)

/-- What `divide` does in it. -/
def halved : Firing file where
  rule := "divide"
  outcome := .ok (.ok ())
  events := [⟨.read0 x, .ok (number 6)⟩, ⟨.write0 x (number 3), .ok ()⟩]

/-- What `multiply` does in it. -/
def tripled : Firing file where
  rule := "multiply"
  outcome := .ok (.ok ())
  events := [⟨.read1 x, .ok (number 3)⟩, ⟨.write1 x (number 10), .ok ()⟩]

/-- Only `spill` wrote 5. `divide` reads the 6 at the start, which is also the
committed value, and `multiply` the 3 that `divide` committed. -/
theorem answer_of_read_after_spill :
    (spilledCycle.firings = spilledCycle.firings.take 2 ++ halved :: [tripled] ∧
        spilledCycle.firings = spilledCycle.firings.take 3 ++ tripled :: [] ∧
        OnlyAbortedWrote six (spilledCycle.firings.take 3) [] x (number 5)) ∧
      number 6 =
        ((Scheduler.ofRules (spill :: rules)).committedBefore (Log.ofState six) 2).value x ∧
      Wrote (committedEvents (spilledCycle.firings.take 3)) x (number 3) ∧
      ¬ OnlyAbortedWrote six (spilledCycle.firings.take 3) [] x (number 3) := by
  have hHalved : spilledCycle.firings = spilledCycle.firings.take 2 ++ halved :: [tripled] := rfl
  have hTripled : spilledCycle.firings = spilledCycle.firings.take 3 ++ tripled :: [] := rfl
  have hRead6 : halved.events =
      [] ++ ⟨.read0 x, .ok (number 6)⟩ :: [⟨.write0 x (number 3), .ok ()⟩] := rfl
  have hRead3 : tripled.events =
      [] ++ ⟨.read1 x, .ok (number 3)⟩ :: [⟨.write1 x (number 10), .ok ()⟩] := rfl
  have hSpilled : ∃ firing ∈ spilledCycle.firings.take 3,
      firing.aborted = true ∧ Wrote firing.events x (number 5) := by decide
  have hOnlySpill : OnlyAbortedWrote six (spilledCycle.firings.take 3) [] x (number 5) :=
    ⟨hSpilled, by decide, by decide, by decide⟩
  have hNotStart : number 3 ≠ (Log.ofState six).value x := by decide
  have hNotOwn : ¬ Wrote [] x (number 3) := by decide
  obtain ⟨hRead0, -, -⟩ := (Scheduler.ofRules (spill :: rules)).answer_of_read
    (Log.ofState six) hHalved hRead6 x (number 6)
  obtain ⟨-, hRead1, hClean⟩ := (Scheduler.ofRules (spill :: rules)).answer_of_read
    (Log.ofState six) hTripled hRead3 x (number 3)
  refine ⟨⟨hHalved, hTripled, hOnlySpill⟩, (hRead0 rfl).2 rfl, ?_, hClean (Or.inr rfl)⟩
  exact ((hRead1 rfl).resolve_left hNotStart).resolve_right hNotOwn

end Collatz

end AtomicRules
