import Mathlib.Data.Fintype.Basic
import AtomicRules.Design.Collatz
import AtomicRules.Proofs.Copying

/-!
# Journals copy as sets

A journal is written in the order of the accesses, one entry for each of them, and a rule may
come back to a register as often as it likes. What a copy along the journal makes of a log has
nothing of that left in it: it is the source on the journaled registers and the target on the
others. So it does not matter from which end the journal is read, how often a register stands
in it and through which ports, or whether the copy is made once more.

## Main results

* `Log.Overlays.unique` — there is one log with given registers of a source and the others
  of a target.
* `Log.overlays_copyRegisters` — copying a list of registers makes that log.
* `Journal.replay_as_set` — a journal in either direction.
-/

namespace AtomicRules

section Overlays

variable {file : RegisterFile}

namespace Log

/-- The log is a source on some registers and a target on all others. -/
structure Overlays (log target source : Log file) (copied : Finset file.Reg) : Prop where
  inside : ∀ reg ∈ copied, log.AgreesAt source reg
  outside : ∀ reg ∉ copied, log.AgreesAt target reg

variable {log other target source : Log file} {copied : Finset file.Reg}

theorem Overlays.unique (h : log.Overlays target source copied)
    (hOther : other.Overlays target source copied) : log = other := by
  apply ext_get
  intro reg
  by_cases hMem : reg ∈ copied
  · exact (h.inside reg hMem).trans (hOther.inside reg hMem).symm
  · exact (h.outside reg hMem).trans (hOther.outside reg hMem).symm

/-- A log that has the copied registers of the source already is left as it is. -/
theorem Overlays.again (h : log.Overlays target source copied)
    (hOther : other.Overlays log source copied) : other = log := by
  refine hOther.unique ⟨h.inside, fun reg _ => ?_⟩
  exact AgreesAt.refl log reg

theorem Overlays.eq_source (h : log.Overlays target source Finset.univ) : log = source := by
  refine h.unique ⟨fun reg _ => AgreesAt.refl source reg, fun reg hNot => ?_⟩
  exact absurd (Finset.mem_univ reg) hNot

theorem overlays_copyRegisters (target source : Log file) (regs : List file.Reg) :
    (target.copyRegisters source regs).Overlays target source regs.toFinset where
  inside _ hMem := agreesAt_copyRegisters_of_mem source (List.mem_toFinset.mp hMem) target
  outside _ hNot :=
    agreesAt_copyRegisters_of_notMem source (fun hMem => hNot (List.mem_toFinset.mpr hMem)) target

end Log

namespace Journal

/-- The registers that have an entry. -/
def touched (journal : Journal file) : Finset file.Reg :=
  (journal.entries.map JournalEntry.reg).toFinset

theorem overlays_replay (journal : Journal file) (target source : Log file) :
    (journal.replay target source).Overlays target source journal.touched :=
  Log.overlays_copyRegisters target source _

theorem overlays_unwind (journal : Journal file) (target source : Log file) :
    (journal.unwind target source).Overlays target source journal.touched := by
  have hTouched : journal.touched = journal.registers.toFinset := by
    rw [touched, map_reg_entries, List.toFinset_reverse]
  rw [hTouched]
  exact Log.overlays_copyRegisters target source _

/-- Replaying a journal and unwinding it leave the same log, with the value and the conflict
set of the source at every journaled register and those of the target at every other one. Any
journal of the same registers leaves that log too, and a second copy changes nothing. A
journal of all registers copies the whole log. -/
theorem replay_as_set (journal : Journal file) (target source : Log file) :
    journal.unwind target source = journal.replay target source ∧
      (∀ reg ∈ journal.touched, (journal.replay target source).AgreesAt source reg) ∧
      (∀ reg ∉ journal.touched, (journal.replay target source).AgreesAt target reg) ∧
      (∀ other : Journal file, other.touched = journal.touched →
        other.replay target source = journal.replay target source ∧
          other.unwind target source = journal.unwind target source) ∧
      journal.replay (journal.replay target source) source = journal.replay target source ∧
      journal.unwind (journal.unwind target source) source = journal.unwind target source ∧
      (journal.touched = Finset.univ →
        journal.replay target source = target.copyAll source ∧
          journal.unwind target source = target.copyAll source) := by
  have hReplay := journal.overlays_replay target source
  have hUnwind := journal.overlays_unwind target source
  refine ⟨hUnwind.unique hReplay, hReplay.inside, hReplay.outside, fun other hSame => ?_, ?_, ?_,
    fun hAll => ?_⟩
  · have hOtherReplay := other.overlays_replay target source
    have hOtherUnwind := other.overlays_unwind target source
    rw [hSame] at hOtherReplay hOtherUnwind
    exact ⟨hOtherReplay.unique hReplay, hOtherUnwind.unique hUnwind⟩
  · exact hReplay.again (journal.overlays_replay _ source)
  · exact hUnwind.again (journal.overlays_unwind _ source)
  · rw [hAll] at hReplay hUnwind
    exact ⟨hReplay.eq_source, hUnwind.eq_source⟩

end Journal

end Overlays

namespace Collatz

/-- The running value twice and the counter in between. -/
def backAndForth : Journal file :=
  ((Journal.empty.push x .write1).push steps .read0).push x .read1

/-- The counter first and then the running value, once each. -/
def inPassing : Journal file := (Journal.empty.push steps .write0).push x .read0

/-- The running value twice. -/
def aside : Journal file := (Journal.empty.push x .read0).push x .write1

/-- The initial log with one register written and the other one marked. -/
def marked : Log file :=
  ((Access.write1 x (Bits.ofNat128 32 5 : Bits 32)).apply (Log.initial file)).mark steps .write0

/-- `marked` copied onto the initial log, along two journals of both registers and along one
of the running value alone. -/
theorem replay_as_set_both :
    (inPassing.touched = backAndForth.touched ∧ backAndForth.touched = Finset.univ ∧
        x ∈ aside.touched ∧ steps ∉ aside.touched) ∧
      inPassing.replay (Log.initial file) marked = backAndForth.replay (Log.initial file) marked ∧
      backAndForth.unwind (Log.initial file) marked = marked ∧
      (aside.replay (Log.initial file) marked).AgreesAt marked x ∧
      (aside.replay (Log.initial file) marked).AgreesAt (Log.initial file) steps ∧
      aside.replay (Log.initial file) marked ≠ marked := by
  have hSame : inPassing.touched = backAndForth.touched := by decide
  have hAll : backAndForth.touched = Finset.univ := by decide
  have hIn : x ∈ aside.touched := by decide
  have hOut : steps ∉ aside.touched := by decide
  obtain ⟨-, -, -, hOther, -, -, hWhole⟩ := backAndForth.replay_as_set (Log.initial file) marked
  obtain ⟨-, hInside, hOutside, -⟩ := aside.replay_as_set (Log.initial file) marked
  exact ⟨⟨hSame, hAll, hIn, hOut⟩, (hOther inPassing hSame).1, (hWhole hAll).2, hInside x hIn,
    hOutside steps hOut, by decide⟩

end Collatz

end AtomicRules
