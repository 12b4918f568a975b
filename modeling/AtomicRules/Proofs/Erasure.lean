import AtomicRules.Proofs.Footprints

/-!
# Refused accesses can be erased

A body may go on after a refusal, and may do so as often as it likes. A refusal is answered
before anything is marked or stored, so the accesses that come after it meet the logs as if
it had not been there. From the same logs, the granted accesses alone are therefore granted
again, with the same answers, and lead to the same tentative log.

The sequence of accesses is the one of a run, with what came of each. A body that is
nothing but a sequence comes in two forms: `regardless` goes on after every refusal, so any
sequence is the one of some run, and `inOrder` ends at the first.

## Main results

* `attemptAll_grantedEvents` — a sequence of attempts without those that were refused.
* `agreesAt_attemptAll_or` — which registers a sequence of attempts can change.
* `Action.run_inOrder` — a body whose accesses are all granted.
* `Action.refused_erasable` — both facts, for the run of any body.
-/

namespace AtomicRules

section Erasure

variable {file : RegisterFile} {α : Type} {start : State file} {committed tentative : Log file}

/-! ### Sequences of attempts -/

/-- The events whose access was granted. -/
def grantedEvents (events : List (Event file)) : List (Event file) :=
  events.filter fun event => event.outcome.isOk

/-- The refused accesses of a sequence are not missed. -/
theorem attemptAll_grantedEvents (start : State file) (committed tentative : Log file)
    (accesses : List (Access file)) :
    let attempts := attemptAll start committed tentative accesses
    attemptAll start committed tentative ((grantedEvents attempts.1).map Event.access) =
      (grantedEvents attempts.1, attempts.2) := by
  induction accesses generalizing tentative with
  | nil => rfl
  | cons access rest ih =>
      simp only [attemptAll_cons, grantedEvents, List.filter_cons, Access.isOk_attempt]
      cases hGranted : access.granted committed tentative with
      | true =>
          rw [if_pos rfl, List.map_cons, attemptAll_cons]
          have hRest := ih (access.attempt start committed tentative).2
          simp only [grantedEvents] at hRest
          rw [hRest]
      | false =>
          -- the rest was attempted on the same log as if this access had not been there
          rw [if_neg Bool.false_ne_true, Access.attempt_of_refused hGranted]
          exact ih tentative

theorem mem_grantedEvents {event : Event file} {events : List (Event file)} :
    event ∈ grantedEvents events ↔ event ∈ events ∧ event.outcome.isOk = true :=
  List.mem_filter

/-- An attempt changes a register only when it is granted, on that register and through a
port that leaves a mark. -/
theorem Access.attempt_agreesAt_or (access : Access file) (reg : file.Reg) :
    let attempt := access.attempt start committed tentative
    attempt.2.AgreesAt tentative reg ∨
      attempt.1.isOk = true ∧ access.reg = reg ∧ access.port ≠ .read0 := by
  by_cases hReg : reg = access.reg
  · cases hGranted : access.granted committed tentative with
    | false =>
        left
        rw [attempt_of_refused hGranted]
        exact Log.AgreesAt.refl tentative reg
    | true =>
        by_cases hPort : access.port = .read0
        · left
          rw [attempt_of_granted hGranted]
          cases access with
          | read0 reg' => exact Log.AgreesAt.refl tentative reg
          | _ => cases hPort
        · right
          exact ⟨(access.isOk_attempt start committed tentative).trans hGranted, hReg.symm, hPort⟩
  · exact .inl (access.attempt_agreesAt tentative hReg)

/-- A register is as it was, unless an access to it was granted through a port that leaves a
mark. -/
theorem agreesAt_attemptAll_or (start : State file) (committed tentative : Log file)
    (accesses : List (Access file)) (reg : file.Reg) :
    let attempts := attemptAll start committed tentative accesses
    attempts.2.AgreesAt tentative reg ∨
      ∃ event ∈ grantedEvents attempts.1, event.access.reg = reg ∧ event.access.port ≠ .read0 := by
  induction accesses generalizing tentative with
  | nil => exact .inl (Log.AgreesAt.refl tentative reg)
  | cons access rest ih =>
      simp only [attemptAll_cons]
      rcases ih (access.attempt start committed tentative).2 with hSame | ⟨event, hEvent, hPort⟩
      · rcases access.attempt_agreesAt_or reg with hStep | ⟨hOk, hPort⟩
        · exact .inl (hSame.trans hStep)
        · exact .inr ⟨_, mem_grantedEvents.mpr ⟨List.mem_cons_self, hOk⟩, hPort⟩
      · obtain ⟨hMem, hOk⟩ := mem_grantedEvents.mp hEvent
        exact .inr ⟨event, mem_grantedEvents.mpr ⟨List.mem_cons_of_mem _ hMem, hOk⟩, hPort⟩

/-! ### Bodies that are a sequence -/

namespace Action

/-- Attempts accesses one after the other and goes on after a refusal. -/
def regardless : List (Access file) → Action file Unit
  | [] => done ()
  | a :: rest => access a fun _ => regardless rest

/-- Attempts accesses one after the other and ends in conflict at the first refusal. -/
def inOrder : List (Access file) → Action file Unit
  | [] => done ()
  | a :: rest => (perform a).bind fun _ => inOrder rest

/-- A body that goes on attempts all of its accesses. -/
theorem run_regardless (accesses : List (Access file)) (journal : Journal file) :
    ((regardless accesses).run start committed .whole tentative journal).events.map Event.access =
      accesses := by
  induction accesses generalizing tentative journal with
  | nil => rfl
  | cons a rest ih =>
      simp only [regardless, run, Footprint.track_whole, List.map_cons]
      rw [ih]

/-- A body that ends at a refusal attempts all of its accesses when they are granted and
within the footprint. -/
theorem run_inOrder {footprint : Footprint file} {accesses : List (Access file)}
    (hAdmits : ∀ access ∈ accesses, footprint.admits access = true)
    (hGranted : ∀ event ∈ (attemptAll start committed tentative accesses).1,
      event.outcome.isOk = true) (journal : Journal file) :
    let run := (inOrder accesses).run start committed footprint tentative journal
    run.outcome = .ok (.ok ()) ∧
      (run.events, run.tentative) = attemptAll start committed tentative accesses := by
  induction accesses generalizing tentative journal with
  | nil => exact ⟨rfl, rfl⟩
  | cons a rest ih =>
      rw [attemptAll_cons] at hGranted ⊢
      obtain ⟨hFirst, hRest⟩ := List.forall_mem_cons.mp hGranted
      obtain ⟨hAdmitsFirst, hAdmitsRest⟩ := List.forall_mem_cons.mp hAdmits
      obtain ⟨journal', hTrack⟩ := Footprint.track_of_admits hAdmitsFirst journal
      obtain ⟨hOutcome, hAttempts⟩ := ih hAdmitsRest hRest journal'
      simp only [inOrder, perform, bind_access, run, hTrack]
      rw [← hAttempts]
      cases hAnswer : (a.attempt start committed tentative).1 with
      | error conflict => rw [hAnswer] at hFirst; cases hFirst
      | ok answer => exact ⟨hOutcome, rfl⟩

/-- A run has attempted only what its footprint admits. -/
theorem admits_of_mem_events {footprint : Footprint file} {action : Action file α}
    {journal : Journal file} {event : Event file}
    (h : event ∈ (action.run start committed footprint tentative journal).events) :
    footprint.admits event.access = true := by
  obtain ⟨-, hEvents⟩ := run_confined start committed footprint action tentative journal journal
  rw [hEvents] at h
  exact List.mem_takeWhile_imp (p := fun event : Event file => footprint.admits event.access) h

/-- Any sequence of accesses is the one of a body that goes on after refusals. And when any
body has run, under any footprint, then a body with nothing but the granted accesses, in the
same order and from the same logs, is granted all of them, with the same answers, and leaves
the same tentative log. Only registers with a granted access through another port than
`read0` have changed in it. -/
theorem refused_erasable (start : State file) (committed tentative : Log file)
    (journal : Journal file) :
    (∀ accesses : List (Access file),
        ((regardless accesses).run start committed .whole tentative journal).events.map
          Event.access = accesses) ∧
      ∀ (footprint : Footprint file) (action : Action file α),
        let run := action.run start committed footprint tentative journal
        let kept := grantedEvents run.events
        let again := (inOrder (kept.map Event.access)).run start committed footprint tentative
          journal
        again.outcome = .ok (.ok ()) ∧ again.events = kept ∧ again.tentative = run.tentative ∧
          ∀ reg, run.tentative.AgreesAt tentative reg ∨
            ∃ event ∈ kept, event.access.reg = reg ∧ event.access.port ≠ .read0 := by
  refine ⟨fun accesses => run_regardless accesses journal, fun footprint action => ?_⟩
  intro run kept again
  have hAttempts : attemptAll start committed tentative (run.events.map Event.access) =
      (run.events, run.tentative) :=
    attemptAll_run start committed footprint action tentative journal
  have hKept : attemptAll start committed tentative (kept.map Event.access) =
      (kept, run.tentative) := by
    have hErased := attemptAll_grantedEvents start committed tentative
      (run.events.map Event.access)
    rwa [hAttempts] at hErased
  have hAdmits : ∀ access ∈ kept.map Event.access, footprint.admits access = true := by
    intro access hAccess
    obtain ⟨event, hEvent, rfl⟩ := List.mem_map.mp hAccess
    exact admits_of_mem_events (mem_grantedEvents.mp hEvent).1
  have hGranted : ∀ event ∈ (attemptAll start committed tentative (kept.map Event.access)).1,
      event.outcome.isOk = true := by
    rw [hKept]
    exact fun event hEvent => (mem_grantedEvents.mp hEvent).2
  obtain ⟨hOutcome, hAgain⟩ := run_inOrder hAdmits hGranted journal
  obtain ⟨hEvents, hTentative⟩ := Prod.ext_iff.mp (hAgain.trans hKept)
  refine ⟨hOutcome, hEvents, hTentative, fun reg => ?_⟩
  have hChanged := agreesAt_attemptAll_or start committed tentative
    (run.events.map Event.access) reg
  rwa [hAttempts] at hChanged

end Action

end Erasure

end AtomicRules
