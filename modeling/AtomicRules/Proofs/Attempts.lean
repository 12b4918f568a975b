import AtomicRules.Proofs.Copying
import AtomicRules.Rule.Basic

/-!
# Runs as sequences of attempts

The body of a rule is a tree, but what one run of it does to the tentative log is
a plain sequence of attempted accesses. Facts about runs are therefore proved by
induction over that sequence: one lemma for what an attempt preserves, and the
sequence does the rest.

## Main results

* `Action.attemptAll_run` — a run attempts the accesses of its events in order,
  with those answers, and leaves that tentative log.
* `attemptAll_split` — an event in the middle is one attempt, made after the
  events before it.
* `attemptAll_induction` — what each attempt preserves, a sequence preserves.
* `Action.run_agreesAt` — a run changes the registers its footprint copies and
  no other.
-/

namespace AtomicRules

variable {file : RegisterFile} {α : Type}

/-! ### Attempting one access after the other -/

/-- Attempts accesses one after the other, the refused ones included: what came
of each, and the tentative log after the last. -/
def attemptAll (start : State file) (committed : Log file) :
    Log file → List (Access file) → List (Event file) × Log file
  | tentative, [] => ([], tentative)
  | tentative, access :: rest =>
      let step := access.attempt start committed tentative
      let after := attemptAll start committed step.2 rest
      (⟨access, step.1⟩ :: after.1, after.2)

variable {start : State file} {committed : Log file}

@[simp] theorem attemptAll_nil (tentative : Log file) :
    attemptAll start committed tentative [] = ([], tentative) := rfl

theorem attemptAll_cons (tentative : Log file) (access : Access file)
    (rest : List (Access file)) :
    attemptAll start committed tentative (access :: rest) =
      (⟨access, (access.attempt start committed tentative).1⟩ ::
          (attemptAll start committed (access.attempt start committed tentative).2 rest).1,
        (attemptAll start committed (access.attempt start committed tentative).2 rest).2) := rfl

/-- An event in the middle of a sequence is the attempt of its access on the log
that the events before it left. -/
theorem attemptAll_split {accesses : List (Access file)} {before after : List (Event file)}
    {event : Event file} {tentative : Log file}
    (h : (attemptAll start committed tentative accesses).1 = before ++ event :: after) :
    ∃ between : Log file,
      attemptAll start committed tentative (before.map Event.access) = (before, between) ∧
        event = ⟨event.access, (event.access.attempt start committed between).1⟩ := by
  induction accesses generalizing tentative before with
  | nil => simp at h
  | cons access rest ih =>
      rw [attemptAll_cons] at h
      cases before with
      | nil =>
          obtain ⟨hHead, -⟩ := List.cons.inj h
          refine ⟨tentative, rfl, ?_⟩
          rw [← hHead]
      | cons first before =>
          obtain ⟨hHead, hTail⟩ := List.cons.inj h
          obtain ⟨between, hBefore, hEvent⟩ := ih hTail
          refine ⟨between, ?_, hEvent⟩
          rw [List.map_cons, ← hHead, attemptAll_cons, hBefore]

/-- What every attempt preserves, given the events so far, holds after a whole
sequence of them. -/
theorem attemptAll_induction {P : List (Event file) → Log file → Prop}
    (step : ∀ events tentative (access : Access file), P events tentative →
      P (events ++ [⟨access, (access.attempt start committed tentative).1⟩])
        (access.attempt start committed tentative).2)
    (accesses : List (Access file)) {events : List (Event file)} {tentative : Log file}
    (h : P events tentative) :
    P (events ++ (attemptAll start committed tentative accesses).1)
      (attemptAll start committed tentative accesses).2 := by
  induction accesses generalizing events tentative with
  | nil => simpa using h
  | cons access rest ih =>
      have hRest := ih (step events tentative access h)
      rw [attemptAll_cons]
      simpa using hRest

/-- A run is the sequence of its attempts. -/
theorem Action.attemptAll_run (start : State file) (committed : Log file)
    (footprint : Footprint file) (action : Action file α) (tentative : Log file)
    (journal : Journal file) :
    let run := action.run start committed footprint tentative journal
    attemptAll start committed tentative (run.events.map Event.access) =
      (run.events, run.tentative) := by
  induction action generalizing tentative journal with
  | done value => rfl
  | fail conflict => rfl
  | access a next ih =>
      simp only [Action.run]
      cases hTrack : footprint.track journal a with
      | error violation => rfl
      | ok journal' =>
          have hRest := ih (a.attempt start committed tentative).1
            (a.attempt start committed tentative).2 journal'
          simp only at hRest ⊢
          rw [List.map_cons, attemptAll_cons, hRest]

/-! ### Which registers a run changes -/

/-- An attempt leaves every register alone but its own. -/
theorem Access.attempt_agreesAt (access : Access file) (tentative : Log file)
    {reg : file.Reg} (h : reg ≠ access.reg) :
    (access.attempt start committed tentative).2.AgreesAt tentative reg := by
  cases hGranted : access.granted committed tentative with
  | true =>
      rw [attempt_of_granted hGranted]
      exact get_apply_of_ne tentative access h
  | false =>
      rw [attempt_of_refused hGranted]
      exact Log.AgreesAt.refl tentative reg

/-- The registers that a footprint brings over when the rule ends, given the
journal of the rule. -/
def Footprint.Copies (footprint : Footprint file) (journal : Journal file)
    (reg : file.Reg) : Prop :=
  match footprint with
  | .whole => True
  | .declared regs => reg ∈ regs
  | .dynamic => reg ∈ journal.registers

/-- Tracking an access adds its register to the copied ones and takes none away. -/
theorem Footprint.copies_of_track {footprint : Footprint file}
    {journal journal' : Journal file} {access : Access file}
    (h : footprint.track journal access = .ok journal') :
    footprint.Copies journal' access.reg ∧
      ∀ reg, footprint.Copies journal reg → footprint.Copies journal' reg := by
  cases footprint with
  | whole => exact ⟨trivial, fun _ _ => trivial⟩
  | declared regs =>
      simp only [track] at h
      split at h
      · rename_i hMem
        exact ⟨by simpa [Copies] using hMem, fun _ hReg => hReg⟩
      · cases h
  | dynamic =>
      simp only [track_dynamic, Except.ok.injEq] at h
      subst h
      refine ⟨?_, fun reg hReg => ?_⟩
      · simp [Copies]
      · simp only [Copies, Journal.registers_push, List.mem_cons] at hReg ⊢
        exact Or.inr hReg

/-- Where the logs agree outside the copied registers before a run, they do so
after it. The journal grows with the run, and the copied registers with it. -/
theorem Action.run_agreesAt (start : State file) (committed : Log file)
    (footprint : Footprint file) (action : Action file α) {log tentative : Log file}
    {journal : Journal file}
    (h : ∀ reg, ¬ footprint.Copies journal reg → tentative.AgreesAt log reg) :
    let run := action.run start committed footprint tentative journal
    ∀ reg, ¬ footprint.Copies run.journal reg → run.tentative.AgreesAt log reg := by
  induction action generalizing tentative journal with
  | done value => exact h
  | fail conflict => exact h
  | access a next ih =>
      simp only [Action.run]
      cases hTrack : footprint.track journal a with
      | error violation => exact h
      | ok journal' =>
          obtain ⟨hSelf, hGrows⟩ := Footprint.copies_of_track hTrack
          refine ih _ fun reg hReg => ?_
          have hNe : reg ≠ a.reg := fun e => hReg (e ▸ hSelf)
          exact (a.attempt_agreesAt tentative hNe).trans (h reg fun hOld => hReg (hGrows reg hOld))

end AtomicRules
