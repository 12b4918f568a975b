import AtomicRules.Design.Scatter
import AtomicRules.Proofs.Endings
import AtomicRules.Proofs.SignedView

/-!
# The Scatter design computes its recurrence

A cycle takes a value from the generator over the wire to the target under the cursor. `produce`
drives the wire with the old value of the generator, and `scatter`, which comes later, hears it
in the same cycle. `total` reads the targets through `read0`, so it sums what they held before
`scatter` wrote one of them; ten bits have room for that. `jam` finds that the wire has been
read, whatever the values are.

`Content` is what the registers hold, as numbers, and `Content.next` is one cycle. Each rule is
followed on any log on which the registers it writes are still free, and says what it leaves of
the content and which sets it leaves alone.

## Main results

* `produce_ends`, `scatter_ends`, `total_ends`, `jam_ends` — what each of the rules does.
* `cycleFrom_ends` — one cycle from any values.
* `contentOf_iterate` — the content after any number of cycles.
* `run_iterates` — the runs of the design.
-/

namespace AtomicRules.Scatter

/-! ### The recurrence -/

/-- What the registers hold, as numbers. The cursor is the place of a target. -/
structure Content where
  seed : Nat
  value : Nat
  cursor : Fin 4
  targets : Vector Nat 4
  totals : Vector Nat 2
  deriving DecidableEq

/-- The sum of the even targets and the sum of the odd ones. -/
def Content.sums (content : Content) : Vector Nat 2 :=
  #v[content.targets[0] + content.targets[2], content.targets[1] + content.targets[3]]

/-- The generator steps, its old value is on the wire and in the target under the cursor, the
cursor goes around, and the totals are those of the old targets. -/
def Content.next (content : Content) : Content where
  seed := (5 * content.seed + 1) % 256
  value := content.seed
  cursor := content.cursor + 1
  targets := content.targets.set content.cursor content.seed
  totals := content.sums

/-- What a state holds. -/
def contentOf (state : State file) : Content where
  seed := (show Bits 8 from state.get seed).toNat
  value := (show Bits 8 from state.get value).toNat
  cursor := ⟨(show Bits 2 from state.get cursor).toNat, Bits.toNat_lt _⟩
  targets := #v[(show Bits 8 from state.get r0).toNat, (show Bits 8 from state.get r1).toNat,
    (show Bits 8 from state.get r2).toNat, (show Bits 8 from state.get r3).toNat]
  totals := (show Vector (Bits 10) 2 from state.get totals).map Bits.toNat

/-- States that hold the same numbers are the same. -/
theorem contentOf_injective : Function.Injective contentOf := by
  intro a b h
  obtain ⟨hSeed, hValue, hCursor, hTargets, hTotals⟩ := Content.mk.inj h
  have hTarget (place : Nat) (hPlace : place < 4) :=
    congrArg (fun targets : Vector Nat 4 => targets[place]) hTargets
  refine Prod.ext (Bits.ext_toNat hSeed) (Prod.ext (Bits.ext_toNat hValue)
    (Prod.ext (Bits.ext_toNat (congrArg Fin.val hCursor)) ?_))
  refine Prod.ext (Bits.ext_toNat (hTarget 0 (by decide)))
    (Prod.ext (Bits.ext_toNat (hTarget 1 (by decide)))
      (Prod.ext (Bits.ext_toNat (hTarget 2 (by decide)))
        (Prod.ext (Bits.ext_toNat (hTarget 3 (by decide))) ?_)))
  refine Prod.ext ?_ rfl
  exact Vector.map_inj_right (fun _ _ => Bits.ext_toNat) |>.mp hTotals

/-! ### The operations on vectors -/

/-- Four times, once more and one: the step of the generator. -/
theorem toNat_generate (now : Bits 8) :
    (now.lsl 2 + now + Bits.ofNat128 8 1).toNat = (5 * now.toNat + 1) % 256 := by
  have hOne : (Bits.ofNat128 8 1).toNat = 1 := rfl
  have hFour : (now.lsl 2).toNat = now.toNat * 4 % 2 ^ 8 :=
    (Bits.toNat_lsl now 2).trans (by rw [Nat.shiftLeft_eq])
  rw [Bits.toNat_add, Bits.toNat_add, hFour, hOne]
  omega

/-- The cursor goes around after the last target. -/
theorem toNat_advance (target : Bits 2) :
    (⟨(target + Bits.ofNat128 2 1).toNat, Bits.toNat_lt _⟩ : Fin 4) =
      ⟨target.toNat, target.toNat_lt⟩ + 1 :=
  Fin.ext (Bits.toNat_add target _)

/-- A width that is greater by one has room for a sum. -/
theorem toNat_zext_add_zext {w n : Nat} (h : w < n) (a b : Bits w) :
    (a.zext n h.le + b.zext n h.le).toNat = a.toNat + b.toNat := by
  have ha : a.toNat < 2 ^ w := a.toNat_lt
  have hb : b.toNat < 2 ^ w := b.toNat_lt
  have hRoom : 2 ^ w * 2 ≤ 2 ^ n := Nat.pow_le_pow_right (by decide : 0 < 2) h
  rw [Bits.toNat_add, Bits.zext, Bits.zext, Bits.toNat_resize, Bits.toNat_resize,
    Nat.mod_eq_of_lt (a := a.toNat) (by omega), Nat.mod_eq_of_lt (a := b.toNat) (by omega),
    Nat.mod_eq_of_lt (by omega)]

/-! ### Writes -/

variable {start : State file} {committed log : Log file}

theorem contentOf_write_seed (log : Log file) (entry : Bits 8) :
    contentOf ((Access.write0 seed entry).apply log).state =
      { contentOf log.state with seed := entry.toNat } := rfl

theorem contentOf_write_value (log : Log file) (entry : Bits 8) :
    contentOf ((Access.write0 value entry).apply log).state =
      { contentOf log.state with value := entry.toNat } := rfl

theorem contentOf_write_cursor (log : Log file) (entry : Bits 2) :
    contentOf ((Access.write0 cursor entry).apply log).state =
      { contentOf log.state with cursor := ⟨entry.toNat, Bits.toNat_lt _⟩ } := rfl

theorem contentOf_write_totals (log : Log file) (entry : Vector (Bits 10) 2) :
    contentOf ((Access.write0 totals entry).apply log).state =
      { contentOf log.state with totals := entry.map Bits.toNat } := rfl

/-! ### The rules -/

/-- `produce` drives the wire with the generator and steps it. -/
theorem produce_ends (hValue : log.conflict value = .clear) (hSeed : log.conflict seed = .clear) :
    ∃ next, produce.Ends start committed .whole log (.ok ()) next ∧
      contentOf next.state =
        { contentOf log.state with
          value := (contentOf start).seed, seed := (5 * (contentOf start).seed + 1) % 256 } ∧
      ∀ other, other ≠ value → other ≠ seed → next.conflict other = log.conflict other := by
  let now : Bits 8 := start.get seed
  let stepped : Bits 8 := now.lsl 2 + now + Bits.ofNat128 8 1
  let driven := (Access.write0 value now).apply log
  have hDriven : ∀ other, other ≠ value → driven.conflict other = log.conflict other :=
    fun _ hOther => Access.conflict_write0_of_ne log _ hOther
  have hFree : driven.conflict seed = .clear := (hDriven seed (by decide)).trans hSeed
  have hEnds : produce.Ends start committed .whole log (.ok ())
      ((Access.write0 seed stepped).apply driven) := by
    refine .granted_bind rfl rfl ?_
    refine .granted_bind rfl (Access.granted_write0_of_clear _ hValue) ?_
    exact .granted rfl (Access.granted_write0_of_clear _ hFree)
  refine ⟨_, hEnds, ?_, fun other hOther hLast => ?_⟩
  · rw [contentOf_write_seed, contentOf_write_value, toNat_generate]
    rfl
  · exact (Access.conflict_write0_of_ne driven _ hLast).trans (hDriven other hOther)

/-- The registers that `store` chooses from. -/
def targetRegs : List file.Reg := [r0, r1, r2, r3]

/-- `store` writes the target of the given number. -/
theorem store_ends (start : State file) (committed : Log file) {target : Bits 2} {place : Fin 4}
    (hPlace : target.toNat = place) (entry : Bits 8)
    (hTargets : ∀ reg ∈ targetRegs, log.conflict reg = .clear) :
    ∃ next, (store target entry).Ends start committed .dynamic log (.ok ()) next ∧
      contentOf next.state =
        { contentOf log.state with
          targets := (contentOf log.state).targets.set place entry.toNat } ∧
      ∀ other ∉ targetRegs, next.conflict other = log.conflict other := by
  have hWrite : ∀ (reg : file.Reg) (given : file.Val reg), reg ∈ targetRegs →
      (Action.write0 reg given).Ends start committed .dynamic log (.ok ())
          ((Access.write0 reg given).apply log) ∧
        ∀ other ∉ targetRegs,
          ((Access.write0 reg given).apply log).conflict other = log.conflict other := by
    intro reg given hReg
    refine ⟨.granted rfl (Access.granted_write0_of_clear given (hTargets reg hReg)), ?_⟩
    intro other hOther
    have hNe : other ≠ reg := fun hSame => hOther (hSame ▸ hReg)
    exact Access.conflict_write0_of_ne log given hNe
  have hLow : target.low64 = place := by
    rw [Bits.low64, Bits.low128_eq (by decide), hPlace]
    omega
  rw [store, hLow]
  -- each target is a field of its own in a state, and a place of one vector in the content
  match place with
  | 0 =>
      obtain ⟨hEnds, hOthers⟩ := hWrite r0 entry (by decide)
      exact ⟨_, hEnds, rfl, hOthers⟩
  | 1 =>
      obtain ⟨hEnds, hOthers⟩ := hWrite r1 entry (by decide)
      exact ⟨_, hEnds, rfl, hOthers⟩
  | 2 =>
      obtain ⟨hEnds, hOthers⟩ := hWrite r2 entry (by decide)
      exact ⟨_, hEnds, rfl, hOthers⟩
  | 3 =>
      obtain ⟨hEnds, hOthers⟩ := hWrite r3 entry (by decide)
      exact ⟨_, hEnds, rfl, hOthers⟩

/-- `scatter` forwards what is on the wire to the target under the cursor, and moves the cursor
on. From then on the wire has been read. -/
theorem scatter_ends (hTargets : ∀ reg ∈ targetRegs, log.conflict reg = .clear)
    (hCursor : log.conflict cursor = .clear) :
    ∃ next, scatter.Ends start committed .dynamic log (.ok ()) next ∧
      contentOf next.state =
        { contentOf log.state with
          cursor := (contentOf start).cursor + 1
          targets := (contentOf log.state).targets.set (contentOf start).cursor
            (contentOf log.state).value } ∧
      (next.conflict value).read1 = true ∧ next.conflict totals = log.conflict totals := by
  let target : Bits 2 := start.get cursor
  let entry : Bits 8 := log.value value
  let heard := (Access.read1 value).apply log
  have hHeard : ∀ other, other ≠ value → heard.conflict other = log.conflict other :=
    fun _ hOther => (Access.get_apply_of_ne log (Access.read1 value) hOther).2
  have hRead : (heard.conflict value).read1 = true := rfl
  have hFree : ∀ reg ∈ targetRegs, heard.conflict reg = .clear := by
    intro reg hReg
    have hNe : ∀ reg ∈ targetRegs, reg ≠ value := by decide
    exact (hHeard reg (hNe reg hReg)).trans (hTargets reg hReg)
  have hPlace : target.toNat = (contentOf start).cursor := rfl
  obtain ⟨stored, hStore, hContent, hOthers⟩ := store_ends start committed hPlace entry hFree
  have hStill : stored.conflict cursor = .clear :=
    (hOthers cursor (by decide)).trans ((hHeard cursor (by decide)).trans hCursor)
  let moved := (Access.write0 cursor (target + Bits.ofNat128 2 1)).apply stored
  have hMoved : ∀ other, other ≠ cursor → moved.conflict other = stored.conflict other :=
    fun _ hOther => Access.conflict_write0_of_ne stored _ hOther
  have hEnds : scatter.Ends start committed .dynamic log (.ok ()) moved := by
    refine .granted_bind rfl rfl ?_
    refine .granted_bind rfl rfl ?_
    refine hStore.bind ?_
    exact .granted rfl (Access.granted_write0_of_clear _ hStill)
  refine ⟨moved, hEnds, ?_, ?_, ?_⟩
  · rw [contentOf_write_cursor, hContent, toNat_advance]
    rfl
  · rw [hMoved value (by decide), hOthers value (by decide), hRead]
  · rw [hMoved totals (by decide), hOthers totals (by decide), hHeard totals (by decide)]

/-- `total` writes the sums of the targets as they were at the start. -/
theorem total_ends (hTotals : log.conflict totals = .clear) :
    ∃ next, total.Ends start committed .whole log (.ok ()) next ∧
      contentOf next.state = { contentOf log.state with totals := (contentOf start).sums } ∧
      next.conflict value = log.conflict value := by
  let a : Bits 8 := start.get r0
  let b : Bits 8 := start.get r2
  let c : Bits 8 := start.get r1
  let d : Bits 8 := start.get r3
  let sums : Vector (Bits 10) 2 := #v[a.zext 10 + b.zext 10, c.zext 10 + d.zext 10]
  have hSums : sums.map Bits.toNat = (contentOf start).sums := by
    simp only [sums, Vector.map_mk, List.map_toArray, List.map_cons, List.map_nil,
      toNat_zext_add_zext (by decide : 8 < 10)]
    rfl
  have hEnds : total.Ends start committed .whole log (.ok ())
      ((Access.write0 totals sums).apply log) := by
    refine .granted_bind rfl rfl ?_
    refine .granted_bind rfl rfl ?_
    refine .granted_bind rfl rfl ?_
    refine .granted_bind rfl rfl ?_
    exact .granted rfl (Access.granted_write0_of_clear _ hTotals)
  refine ⟨_, hEnds, ?_, ?_⟩
  · rw [contentOf_write_totals, hSums]
  · exact Access.conflict_write0_of_ne log _ (by decide)

/-- `jam` is refused once the wire has been read, and changes nothing. -/
theorem jam_ends (start : State file) (committed : Log file)
    (hRead : (log.conflict value).read1 = true) :
    jam.Ends start committed .whole log (.error ⟨"value", .write0⟩) log := by
  refine .refused rfl ?_
  show (!((log.conflict value).read1 || (log.conflict value).write0)) = false
  rw [hRead]
  rfl

/-! ### Cycles -/

/-- How the rules end: `jam` finds that the wire has been read. -/
def endings : List (Except Conflict Unit) := [.ok (), .ok (), .ok (), .error ⟨"value", .write0⟩]

/-- From any values, three rules commit and `jam` aborts. -/
theorem exists_sweep (state : State file) :
    ∃ last, Sweeps state rules (Log.ofState state) endings last ∧
      Sweeps state (rules.take 3) (Log.ofState state) (endings.take 3) last ∧
      contentOf last.state = (contentOf state).next := by
  have hClear : ∀ reg, (Log.ofState state).conflict reg = .clear := Log.conflict_ofState state
  obtain ⟨produced, hProduce, hProduced, hOthers⟩ := produce_ends (hClear value) (hClear seed)
  have hFree : ∀ reg, reg ≠ value → reg ≠ seed → produced.conflict reg = .clear :=
    fun reg hValue hSeed => (hOthers reg hValue hSeed).trans (hClear reg)
  have hTargets : ∀ reg ∈ targetRegs, produced.conflict reg = .clear := by
    have hNe : ∀ reg ∈ targetRegs, reg ≠ value ∧ reg ≠ seed := by decide
    exact fun reg hReg => hFree reg (hNe reg hReg).1 (hNe reg hReg).2
  obtain ⟨scattered, hScatter, hScattered, hRead, hTotals⟩ :=
    scatter_ends hTargets (hFree cursor (by decide) (by decide))
  -- `total` is followed on the log `scatter` left, and its sums are of `state` all the same
  obtain ⟨totalled, hTotal, hTotalled, hValue⟩ :=
    total_ends (hTotals.trans (hFree totals (by decide) (by decide)))
  have hJam := jam_ends state totalled (hValue ▸ hRead)
  refine ⟨totalled, .commit hProduce (.commit hScatter (.commit hTotal (.abort hJam (.nil _)))),
    .commit hProduce (.commit hScatter (.commit hTotal (.nil _))), ?_⟩
  rw [hTotalled, hScattered, hProduced]
  rfl

/-- One cycle from any values is one step of the recurrence, and without `jam` it is the same. -/
theorem cycleFrom_ends (state : State file) :
    let cycle := cycleFrom rules state
    cycle.outcome = .ok ⟨3, 1⟩ ∧
      cycle.firings.map Firing.outcome = endings.map .ok ∧
      cycle.log = (cycleFrom (rules.take 3) state).log ∧
      contentOf (nextState rules state) = (contentOf state).next := by
  obtain ⟨last, hSweeps, hShort, hContent⟩ := exists_sweep state
  obtain ⟨hFirings, hLog, hOutcome⟩ := cycleFrom_of_sweeps hSweeps
  obtain ⟨-, hShortLog, -⟩ := cycleFrom_of_sweeps hShort
  refine ⟨hOutcome, hFirings, hLog.trans hShortLog.symm, ?_⟩
  rw [nextState, hLog, hContent]

/-- The values after any number of cycles. -/
theorem contentOf_iterate (state : State file) (n : Nat) :
    contentOf ((nextState rules)^[n] state) = Content.next^[n] (contentOf state) := by
  have hStep : Function.Semiconj contentOf (nextState rules) Content.next :=
    fun state => (cycleFrom_ends state).2.2.2
  exact hStep.iterate_right n state

/-! ### Runs -/

/-- The statistics after so many cycles. -/
def statsAfter (cycles : Nat) : List (String × RuleStats) :=
  [("produce", ⟨cycles, 0⟩), ("scatter", ⟨cycles, 0⟩), ("total", ⟨cycles, 0⟩),
    ("jam", ⟨0, cycles⟩)]

theorem stats_eq_statsAfter {sim : Simulation file} {cycles : Nat}
    (hRules : sim.scheduler.rules = rules)
    (hStats : sim.scheduler.stats = endings.map (RuleStats.ofEnding cycles)) :
    sim.stats = statsAfter cycles := by
  have hZip : sim.stats = (sim.scheduler.rules.map Rule.name).zip sim.scheduler.stats := by
    rw [Scheduler.rules, Scheduler.stats, List.map_map, List.zip_map']
    rfl
  rw [hZip, hRules, hStats]
  rfl

/-- After `n` cycles from any values, the registers hold the numbers of the `n`-th iterate of
the recurrence, which determine them. In the next cycle `produce`, `scatter` and `total` commit
and `jam` aborts, and the cycle leaves what it would leave without `jam`. So `jam` has aborted in
each of the `n` cycles and the others have committed, as far as the counters reach. -/
theorem run_iterates (state : State file) (n : Nat) :
    let run := Simulation.run n (Simulation.ofState state rules)
    run.1 = .ok () ∧
      (∀ last, run.2.state = last ↔ contentOf last = Content.next^[n] (contentOf state)) ∧
      run.2.next.outcome = .ok ⟨3, 1⟩ ∧
      run.2.next.firings.map Firing.outcome =
        [.ok (.ok ()), .ok (.ok ()), .ok (.ok ()), .ok (.error ⟨"value", .write0⟩)] ∧
      run.2.next.log = (cycleFrom (rules.take 3) run.2.state).log ∧
      run.2.stats = statsAfter (min n (2 ^ 64 - 1)) ∧
      (n < 2 ^ 64 → run.2.stats = statsAfter n) := by
  have hCycles : ∀ state, ∃ report, (cycleFrom rules state).outcome = .ok report :=
    fun state => ⟨_, (cycleFrom_ends state).1⟩
  have hEndings : ∀ state, (cycleFrom rules state).firings.map Firing.outcome = endings.map .ok :=
    fun state => (cycleFrom_ends state).2.1
  intro run
  obtain ⟨hCompleted, hReached, hRulesLeft, hNext⟩ := Simulation.run_ofState hCycles state n
  have hContent : contentOf run.2.state = Content.next^[n] (contentOf state) := by
    rw [hReached, contentOf_iterate]
  obtain ⟨hOutcome, hFirings, hLog, -⟩ := cycleFrom_ends run.2.state
  have hStats : run.2.stats = statsAfter (min n (2 ^ 64 - 1)) := by
    have hFresh : (Simulation.ofState state rules).scheduler.stats =
        endings.map (RuleStats.ofEnding 0) := Scheduler.stats_ofRules rules
    have hCount := Simulation.stats_run_of_endings hEndings (Scheduler.rules_ofRules rules)
      (by decide : 0 < 2 ^ 64) hFresh n
    rw [Nat.zero_add] at hCount
    exact stats_eq_statsAfter hRulesLeft hCount
  refine ⟨hCompleted, fun last => ⟨fun hLast => hLast ▸ hContent, fun hLast => ?_⟩, ?_, ?_, ?_,
    hStats, fun hBound => ?_⟩
  · exact contentOf_injective (hContent.trans hLast.symm)
  · exact (congrArg (fun result => result.2.1) hNext).trans hOutcome
  · exact (congrArg (fun result => result.2.2.map Firing.outcome) hNext).trans hFirings
  · exact (congrArg Prod.fst hNext).trans hLog
  · rw [hStats, Nat.min_eq_left (Nat.le_sub_one_of_lt hBound)]

/-- Four cycles from the initial values fill the four targets and bring the cursor back. -/
theorem run_iterates_four :
    let run := Simulation.run 4 (Simulation.ofState (State.initial file) rules)
    run.1 = .ok () ∧
      contentOf run.2.state = ⟨13, 156, 0, #v[1, 6, 31, 156], #v[32, 6]⟩ ∧
      4 < 2 ^ 64 ∧
      run.2.stats =
        [("produce", ⟨4, 0⟩), ("scatter", ⟨4, 0⟩), ("total", ⟨4, 0⟩), ("jam", ⟨0, 4⟩)] := by
  obtain ⟨hCompleted, hState, -, -, -, -, hStats⟩ := run_iterates (State.initial file) 4
  have hContent := (hState _).mp rfl
  have hBound : 4 < 2 ^ 64 := by decide
  exact ⟨hCompleted, hContent.trans (by decide), hBound, hStats hBound⟩

end AtomicRules.Scatter
