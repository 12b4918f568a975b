import AtomicRules.Design.Collatz
import AtomicRules.Proofs.Sweep

/-!
# Aborted rules are invisible

A rule that ends in conflict leaves no trace: not in the committed log, not in
the flags that later rules are checked against, and not in what they read. So a
cycle can be compared with the cycle of a shorter list, in which some of the
rules that abort are missing, and the two go through the same logs.

Nothing is assumed about the bodies. An aborted rule may have caught conflicts
and gone on, and it may have written any number of registers before it stopped.

## Main results

* `sweep_without` — a sweep over the shorter list.
* `Scheduler.runCycle_without_aborted` — a cycle of the shorter list.
-/

namespace AtomicRules

/-- A list without the entries at the dropped places. -/
def without {α : Type} (dropped : Nat → Bool) : List α → List α
  | [] => []
  | entry :: rest =>
      if dropped 0 then without (fun place => dropped (place + 1)) rest
      else entry :: without (fun place => dropped (place + 1)) rest

theorem without_cons_of_dropped {α : Type} {dropped : Nat → Bool} (h : dropped 0 = true)
    (entry : α) (rest : List α) :
    without dropped (entry :: rest) = without (fun place => dropped (place + 1)) rest :=
  if_pos h

theorem without_cons_of_kept {α : Type} {dropped : Nat → Bool} (h : dropped 0 = false)
    (entry : α) (rest : List α) :
    without dropped (entry :: rest) =
      entry :: without (fun place => dropped (place + 1)) rest :=
  if_neg (by simp [h])

section Sweeps

variable {file : RegisterFile}

/-- The rules at the dropped places abort, so far as they fire at all. -/
def DropsAborted (dropped : Nat → Bool) (firings : List (Firing file)) : Prop :=
  ∀ place firing, dropped place = true → firings[place]? = some firing →
    firing.aborted = true

theorem DropsAborted.tail {dropped : Nat → Bool} {firing : Firing file}
    {rest : List (Firing file)} (h : DropsAborted dropped (firing :: rest)) :
    DropsAborted (fun place => dropped (place + 1)) rest :=
  fun place later hDropped hLater => h (place + 1) later hDropped hLater

/-- A sweep over the list without some aborted rules makes the same firings but
theirs and ends on the same log. -/
theorem sweep_without {start : State file} (rules : List (Rule file)) {log : Log file}
    {dropped : Nat → Bool} (h : DropsAborted dropped (sweep start rules log).1) :
    sweep start (without dropped rules) log =
      (without dropped (sweep start rules log).1, (sweep start rules log).2) := by
  induction rules generalizing log dropped with
  | nil => rfl
  | cons rule rest ih =>
      obtain ⟨firing, last, -, -, hCases⟩ := sweep_cons start rule log
      cases hHead : dropped 0 with
      | true =>
          -- only an aborted rule may be dropped, and it hands on the log it got
          rcases hCases with ⟨hOutcome, hSweep⟩ | ⟨conflict, hOutcome, hSweep⟩ |
            ⟨violation, hOutcome, hSweep⟩
          · rw [hSweep rest] at h
            have hAborted := h 0 firing hHead rfl
            simp [Firing.aborted, hOutcome] at hAborted
          · rw [hSweep rest] at h ⊢
            rw [without_cons_of_dropped hHead, without_cons_of_dropped hHead]
            exact ih h.tail
          · rw [hSweep rest] at h
            have hAborted := h 0 firing hHead rfl
            simp [Firing.aborted, hOutcome] at hAborted
      | false =>
          rw [without_cons_of_kept hHead]
          rcases hCases with ⟨hOutcome, hSweep⟩ | ⟨conflict, hOutcome, hSweep⟩ |
            ⟨violation, hOutcome, hSweep⟩
          · rw [hSweep rest] at h ⊢
            rw [hSweep, ih h.tail, without_cons_of_kept hHead]
          · rw [hSweep rest] at h ⊢
            rw [hSweep, ih h.tail, without_cons_of_kept hHead]
          · rw [hSweep rest, hSweep, without_cons_of_kept hHead]
            rfl

/-- Leaving out of a scheduler any of the rules that abort in a cycle changes
neither the committed log after the cycle nor the firing of any rule that is
left, its outcome and the answer to each of its accesses included. -/
theorem Scheduler.runCycle_without_aborted (scheduler shorter : Scheduler file)
    (log : Log file) (dropped : Nat → Bool)
    (hDropped : DropsAborted dropped (scheduler.runCycle log).firings)
    (hRules : shorter.rules = without dropped scheduler.rules) :
    (shorter.runCycle log).log = (scheduler.runCycle log).log ∧
      (shorter.runCycle log).firings = without dropped (scheduler.runCycle log).firings := by
  rw [runCycle_firings] at hDropped
  have hSweep : shorter.swept log =
      (without dropped (scheduler.swept log).1, (scheduler.swept log).2) := by
    rw [swept, hRules]
    exact sweep_without scheduler.rules hDropped
  rw [runCycle_log, runCycle_log, runCycle_firings, runCycle_firings, hSweep]
  exact ⟨rfl, rfl⟩

end Sweeps

namespace Collatz

/-- Uses both ports of the running value and the counter, and is refused only then. -/
def spill : Rule file where
  name := "spill"
  footprint := .dynamic
  body := do
    Action.write1 x (Bits.ofNat128 32 5 : Bits 32)
    let seen ← Action.read1 x
    Action.write0 steps (Bits.ofNat128 16 9 : Bits 16)
    Action.write1 x seen

/-- With `spill` in front, the first cycle of the design is the one without it. -/
theorem runCycle_without_spill :
    let spilled := (Scheduler.ofRules (spill :: rules)).runCycle (Log.initial file)
    let cycle := (Scheduler.ofRules rules).runCycle (Log.initial file)
    (spilled.firings.map Firing.aborted = [true, false, false, false] ∧
        spilled.outcome = .ok ⟨3, 1⟩) ∧
      cycle.log = spilled.log ∧ cycle.firings = without (· == 0) spilled.firings := by
  refine ⟨⟨rfl, rfl⟩, ?_⟩
  refine (Scheduler.ofRules (spill :: rules)).runCycle_without_aborted
    (Scheduler.ofRules rules) (Log.initial file) (· == 0) ?_ rfl
  intro place firing hPlace hFiring
  obtain rfl : place = 0 := by simpa using hPlace
  obtain rfl := Option.some.inj hFiring
  rfl

end Collatz

end AtomicRules
