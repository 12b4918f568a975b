import AtomicRules.Design.Collatz
import AtomicRules.Proofs.History

/-!
# No lost or duplicated write

The values of a register travel through the tentative log and back through one of
three ways to commit, so a later commit could put an old value over a newer one, and
an undone rule could leave one behind. It does not happen. In a cycle each write port
of a register takes one write at most from the rules that commit, and what the
register holds afterwards is that of `write1`, else that of `write0`, else the value
it started from.

The bound needs the log as well as the history: it is the flag of the first write
that refuses the second.

## Main results

* `mem_writes_iff`, `writes_eq_nil_iff` — what is in the list of writes.
* `Log.Reflects.value_eq` — the value of a log from the writes of its history.
* `WritesOnce.attempt` — an attempt does not write through a port a second time.
* `Scheduler.value_runCycle` — both, for the rules that commit and the log after a
  cycle.
-/

namespace AtomicRules

variable {file : RegisterFile}

/-! ### The writes of a history -/

/-- The value that an access writes to a register, if it writes that register. -/
def Access.written? (reg : file.Reg) : Access file → Option (file.Val reg)
  | .read0 _ => none
  | .read1 _ => none
  | .write0 target value => if h : target = reg then some (h ▸ value) else none
  | .write1 target value => if h : target = reg then some (h ▸ value) else none

@[simp] theorem Access.written?_write0 (reg : file.Reg) (value : file.Val reg) :
    (Access.write0 reg value).written? reg = some value :=
  dif_pos rfl

@[simp] theorem Access.written?_write1 (reg : file.Reg) (value : file.Val reg) :
    (Access.write1 reg value).written? reg = some value :=
  dif_pos rfl

theorem Access.written?_eq_none_iff {access : Access file} {reg : file.Reg}
    (h : access.reg = reg) : access.written? reg = none ↔ access.port.isWrite = false := by
  subst h
  cases access <;> simp [reg, port, Port.isWrite, written?]

/-- The values that granted accesses wrote to a register through a port, in order. -/
def writes (events : List (Event file)) (reg : file.Reg) (port : Port) : List (file.Val reg) :=
  events.filterMap fun event => if event.Uses reg port then event.access.written? reg else none

/-- A value is in the list when a write of it was granted. -/
theorem mem_writes_iff {events : List (Event file)} {reg : file.Reg} {port : Port}
    {value : file.Val reg} :
    value ∈ writes events reg port ↔
      (port = .write0 ∧ ⟨.write0 reg value, .ok ()⟩ ∈ events) ∨
        (port = .write1 ∧ ⟨.write1 reg value, .ok ()⟩ ∈ events) := by
  constructor
  · intro h
    obtain ⟨⟨access, outcome⟩, hMem, hWritten⟩ := List.mem_filterMap.1 h
    obtain ⟨⟨hReg, hPort, hOk⟩, hValue⟩ := Option.ite_none_right_eq_some.1 hWritten
    obtain rfl : access.reg = reg := hReg
    cases access with
    | read0 _ => cases hValue
    | read1 _ => cases hValue
    | write0 target written =>
        obtain rfl : written = value :=
          Option.some.inj ((Access.written?_write0 target written).symm.trans hValue)
        cases outcome with
        | error conflict => cases hOk
        | ok answer => exact Or.inl ⟨hPort.symm, hMem⟩
    | write1 target written =>
        obtain rfl : written = value :=
          Option.some.inj ((Access.written?_write1 target written).symm.trans hValue)
        cases outcome with
        | error conflict => cases hOk
        | ok answer => exact Or.inr ⟨hPort.symm, hMem⟩
  · rintro (⟨rfl, hMem⟩ | ⟨rfl, hMem⟩)
    · refine List.mem_filterMap.2 ⟨_, hMem, ?_⟩
      rw [if_pos ⟨rfl, rfl, rfl⟩, Access.written?_write0]
    · refine List.mem_filterMap.2 ⟨_, hMem, ?_⟩
      rw [if_pos ⟨rfl, rfl, rfl⟩, Access.written?_write1]

/-- No write is in the list exactly when the port was not granted. -/
theorem writes_eq_nil_iff {events : List (Event file)} {reg : file.Reg} {port : Port}
    (h : port.isWrite = true) : writes events reg port = [] ↔ ¬ Used events reg port := by
  rw [writes, List.filterMap_eq_nil_iff]
  constructor
  · rintro hNone ⟨event, hMem, hUses⟩
    have hWritten := hNone event hMem
    rw [if_pos hUses, Access.written?_eq_none_iff hUses.1, hUses.2.1, h] at hWritten
    cases hWritten
  · intro hNot event hMem
    exact if_neg fun hUses => hNot ⟨event, hMem, hUses⟩

/-! ### The value a history leaves -/

/-- The value of a log that reflects a history: what `write1` wrote, else what
`write0` wrote, else the value at the start. -/
theorem Log.Reflects.value_eq {log : Log file} {start : State file} {events : List (Event file)}
    (h : log.Reflects start events) (reg : file.Reg) :
    log.value reg =
      ((writes events reg .write1).head?.or (writes events reg .write0).head?).getD
        (start.get reg) := by
  cases hLast : writes events reg .write1 with
  | cons value _ =>
      have hMem : value ∈ writes events reg .write1 := hLast ▸ List.mem_cons_self
      have hEvent : ⟨.write1 reg value, .ok ()⟩ ∈ events := by simpa [mem_writes_iff] using hMem
      exact h.value_write1 reg value hEvent
  | nil =>
      have hNot1 := (writes_eq_nil_iff rfl).1 hLast
      cases hFirst : writes events reg .write0 with
      | cons value _ =>
          have hMem : value ∈ writes events reg .write0 := hFirst ▸ List.mem_cons_self
          have hEvent : ⟨.write0 reg value, .ok ()⟩ ∈ events := by
            simpa [mem_writes_iff] using hMem
          exact h.value_write0 reg value hEvent hNot1
      | nil =>
          have hNot0 := (writes_eq_nil_iff rfl).1 hFirst
          exact h.value_start reg hNot0 hNot1

/-! ### One write for each port -/

/-- How often a port of a register was granted. -/
def grantCount (events : List (Event file)) (reg : file.Reg) (port : Port) : Nat :=
  events.countP fun event => event.Uses reg port

theorem grantCount_append (before after : List (Event file)) (reg : file.Reg) (port : Port) :
    grantCount (before ++ after) reg port =
      grantCount before reg port + grantCount after reg port :=
  List.countP_append

theorem grantCount_eq_zero_iff {events : List (Event file)} {reg : file.Reg} {port : Port} :
    grantCount events reg port = 0 ↔ ¬ Used events reg port := by
  simp [grantCount, Used]

/-- No write port of a register was granted twice. -/
def WritesOnce (events : List (Event file)) : Prop :=
  ∀ reg port, port.isWrite = true → grantCount events reg port ≤ 1

theorem writesOnce_nil : WritesOnce ([] : List (Event file)) :=
  fun _ _ _ => Nat.zero_le 1

/-- A granted write finds no earlier one of its port in the history that the tentative
log reflects. -/
theorem WritesOnce.attempt {start : State file} {committed tentative : Log file}
    {events : List (Event file)} (h : WritesOnce events)
    (hReflects : tentative.Reflects start events) (access : Access file) :
    WritesOnce (events ++ [⟨access, (access.attempt start committed tentative).1⟩]) := by
  intro reg port hWrite
  rw [grantCount_append]
  by_cases hUses : Event.Uses ⟨access, (access.attempt start committed tentative).1⟩ reg port
  · obtain ⟨hReg, hPort, hOk⟩ := hUses
    obtain rfl : access.reg = reg := hReg
    obtain rfl : access.port = port := hPort
    have hGranted : access.granted committed tentative = true := by
      rw [← access.isOk_attempt start committed tentative]
      exact hOk
    have hOld : grantCount events access.reg access.port = 0 :=
      grantCount_eq_zero_iff.2 (hReflects.not_used_of_granted_write hGranted hWrite).1
    have hNew : grantCount [⟨access, (access.attempt start committed tentative).1⟩]
        access.reg access.port ≤ 1 := List.countP_le_length
    omega
  · have hNew : grantCount [⟨access, (access.attempt start committed tentative).1⟩]
        reg port = 0 := by
      simp [grantCount, hUses]
    have hOld := h reg port hWrite
    omega

theorem Scheduler.writesOnce_runCycle (scheduler : Scheduler file) (log : Log file) :
    WritesOnce (committedEvents (scheduler.runCycle log).firings) := by
  have hSwept := sweep_induction
    (P := fun events reached => reached.Reflects log.state events ∧ WritesOnce events)
    (fun _ _ _ access hKept => ⟨hKept.1.attempt access, hKept.2.attempt hKept.1 access⟩)
    scheduler.rules ⟨Log.reflects_ofState log.state, writesOnce_nil⟩
  rw [runCycle_firings]
  exact hSwept.2

/-- No write is lost and none is made twice. The rules that commit in a cycle are
granted one write of a register at most through each port, and the value after the
cycle is what `write1` wrote, else what `write0` wrote, else the one at the start. -/
theorem Scheduler.value_runCycle (scheduler : Scheduler file) (log : Log file)
    (reg : file.Reg) :
    let events := committedEvents (scheduler.runCycle log).firings
    grantCount events reg .write0 ≤ 1 ∧
      grantCount events reg .write1 ≤ 1 ∧
      (scheduler.runCycle log).log.value reg =
        ((writes events reg .write1).head?.or (writes events reg .write0).head?).getD
          (log.value reg) := by
  have hOnce := scheduler.writesOnce_runCycle log
  exact ⟨hOnce reg .write0 rfl, hOnce reg .write1 rfl,
    (scheduler.reflects_runCycle log).value_eq reg⟩

/-- From 6 a cycle halves the running value and then triples it. -/
example :
    let six : State Collatz.file := ((Bits.ofNat128 32 6 : Bits 32), (Bits.zero 16 : Bits 16), ())
    let cycle := (Scheduler.ofRules Collatz.rules).runCycle (Log.ofState six)
    let events := committedEvents cycle.firings
    (writes events Collatz.x .write0, writes events Collatz.x .write1,
        cycle.log.value Collatz.x) =
      ([(Bits.ofNat128 32 3 : Bits 32)], [(Bits.ofNat128 32 10 : Bits 32)],
        (Bits.ofNat128 32 10 : Bits 32)) :=
  rfl

end AtomicRules
