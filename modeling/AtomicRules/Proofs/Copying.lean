import AtomicRules.Log.Journal

/-!
# Copying registers between logs

Committing a rule and undoing it are one operation with the logs exchanged:
some registers are brought over from one log to the other. It is sound because
the logs agree everywhere else, and then neither the order nor the repetitions
in the list of registers matter.

## Main results

* `Log.agreesAt_copyRegisters_of_mem`, `Log.agreesAt_copyRegisters_of_notMem` —
  a copied register is the one of the source, every other one is untouched.
* `Log.copyRegisters_eq_source` — copying all registers in which two logs may
  differ makes them equal.
* `Journal.replay_eq_source`, `Journal.unwind_eq_source` — the same for a journal
  in either direction.
-/

namespace AtomicRules

variable {file : RegisterFile}

namespace Log

/-- Two logs hold the same value and the same conflict set at a register. -/
def AgreesAt (a b : Log file) (reg : file.Reg) : Prop :=
  a.value reg = b.value reg ∧ a.conflict reg = b.conflict reg

theorem AgreesAt.refl (log : Log file) (reg : file.Reg) : log.AgreesAt log reg := ⟨rfl, rfl⟩

theorem AgreesAt.symm {a b : Log file} {reg : file.Reg} (h : a.AgreesAt b reg) :
    b.AgreesAt a reg := ⟨h.1.symm, h.2.symm⟩

theorem AgreesAt.trans {a b c : Log file} {reg : file.Reg} (hab : a.AgreesAt b reg)
    (hbc : b.AgreesAt c reg) : a.AgreesAt c reg :=
  ⟨hab.1.trans hbc.1, hab.2.trans hbc.2⟩

theorem agreesAt_copyRegisters_of_notMem (source : Log file) {regs : List file.Reg}
    {reg : file.Reg} (h : reg ∉ regs) (target : Log file) :
    (target.copyRegisters source regs).AgreesAt target reg := by
  induction regs generalizing target with
  | nil => exact AgreesAt.refl target reg
  | cons first rest ih =>
      obtain ⟨hFirst, hRest⟩ := List.ne_and_not_mem_of_not_mem_cons h
      have step : (target.copyRegister source first).AgreesAt target reg :=
        get_copyRegister_of_ne target source hFirst
      exact (ih hRest (target.copyRegister source first)).trans step

/-- The last copy of a register decides, and every copy of it comes from the same
source. -/
theorem agreesAt_copyRegisters_of_mem (source : Log file) {regs : List file.Reg}
    {reg : file.Reg} (h : reg ∈ regs) (target : Log file) :
    (target.copyRegisters source regs).AgreesAt source reg := by
  induction regs generalizing target with
  | nil => cases h
  | cons first rest ih =>
      by_cases hRest : reg ∈ rest
      · exact ih hRest (target.copyRegister source first)
      · obtain rfl : reg = first := (List.mem_cons.1 h).resolve_right hRest
        have step : (target.copyRegister source reg).AgreesAt source reg :=
          get_copyRegister_self target source reg
        exact (agreesAt_copyRegisters_of_notMem source hRest _).trans step

/-- When two logs agree outside a list of registers, copying the list makes the
target equal to the source. -/
theorem copyRegisters_eq_source {target source : Log file} {regs : List file.Reg}
    (h : ∀ reg, reg ∉ regs → target.AgreesAt source reg) :
    target.copyRegisters source regs = source := by
  apply ext_get
  intro reg
  by_cases hMem : reg ∈ regs
  · exact agreesAt_copyRegisters_of_mem source hMem target
  · exact (agreesAt_copyRegisters_of_notMem source hMem target).trans (h reg hMem)

end Log

namespace Journal

/-- The registers of the journal, the newest access first. -/
def registers (journal : Journal file) : List file.Reg :=
  journal.newestFirst.map JournalEntry.reg

@[simp] theorem registers_push (journal : Journal file) (reg : file.Reg) (port : Port) :
    (journal.push reg port).registers = reg :: journal.registers := rfl

theorem map_reg_entries (journal : Journal file) :
    journal.entries.map JournalEntry.reg = journal.registers.reverse := by
  rw [entries, registers, List.map_reverse]

theorem replay_eq_source {journal : Journal file} {target source : Log file}
    (h : ∀ reg, reg ∉ journal.registers → target.AgreesAt source reg) :
    journal.replay target source = source := by
  rw [replay, map_reg_entries]
  apply Log.copyRegisters_eq_source
  intro reg hNot
  exact h reg fun hMem => hNot (List.mem_reverse.2 hMem)

theorem unwind_eq_source {journal : Journal file} {target source : Log file}
    (h : ∀ reg, reg ∉ journal.registers → target.AgreesAt source reg) :
    journal.unwind target source = source :=
  Log.copyRegisters_eq_source h

end Journal

end AtomicRules
