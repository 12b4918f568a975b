import Mathlib.Algebra.GroupWithZero.Nat
import AtomicRules.Proofs.PackedLayout

/-!
# Chunks, taken or refused

A packer is used by pushing chunk after chunk, and an unpacker by popping width after width.
A chunk that does not fit and a width that is more than what is left are refused, and whoever
asked may go on. Here the steps are looked at as programs on a packer or an unpacker that is
changed in place, so that a refusal has a state after it. The check comes before anything is
written, and a refused step leaves what it found.

So a run is decided by the widths alone. `fitting` passes over what does not fit any more; what
it keeps is what a packer takes and what an unpacker gives. The packer holds the chunks it has
taken side by side, `Packer.Holds`; the unpacker has the chunks in front of it that it has not
given yet, `Unpacker.Faces`. Both are kept by every step, and a refused step needs no more than
that it keeps the state.

## Main results

* `Packer.run_pushing`, `Unpacker.run_popping` — a step in place, by the step that returns.
* `Packer.pushAll_holds` — what a packer holds after any run.
* `Unpacker.popAll_consumes`, `Unpacker.popAll_faces` — what an unpacker consumes in any run,
  and what it gives.
* `Packer.pushAll_exact` — packing with refusals, and unpacking with refusals what was packed.
-/

namespace AtomicRules

/-! ### Runs that go on after a refusal -/

section Runs

variable {α β ε σ : Type}

/-- Runs a step for every input in turn. After a refusal it goes on from the state that the
refused step has left. -/
def tryEach (step : α → ExceptT ε (StateM σ) β) (inputs : List α) : StateM σ (List (Except ε β)) :=
  inputs.mapM fun input => (step input).run

theorem run_tryEach_cons {step : α → ExceptT ε (StateM σ) β} {input : α} {rest : List α}
    {s s' s'' : σ} {outcome : Except ε β} {outcomes : List (Except ε β)}
    (hFirst : (step input).run.run s = (outcome, s'))
    (hRest : (tryEach step rest).run s' = (outcomes, s'')) :
    (tryEach step (input :: rest)).run s = (outcome :: outcomes, s'') := by
  rw [tryEach] at hRest
  rw [tryEach, List.mapM_cons, StateT.run_bind, hFirst]
  change StateT.run (List.mapM _ rest >>= _) s' = _
  rw [StateT.run_bind, hRest]
  rfl

/-- What came of the steps that were not refused. -/
def passed (outcomes : List (Except ε β)) : List β := outcomes.filterMap Except.toOption

@[simp] theorem passed_nil : passed ([] : List (Except ε β)) = [] := rfl

@[simp] theorem passed_ok (value : β) (outcomes : List (Except ε β)) :
    passed (.ok value :: outcomes) = value :: passed outcomes :=
  rfl

@[simp] theorem passed_error (fault : ε) (outcomes : List (Except ε β)) :
    passed (.error fault :: outcomes) = passed outcomes :=
  rfl

/-- What fits into `room` bits, one after another: an item that is wider than what is left is
passed over. -/
def fitting (width : α → Nat) : Nat → List α → List α
  | _, [] => []
  | room, item :: rest =>
      if width item ≤ room then item :: fitting width (room - width item) rest
      else fitting width room rest

theorem fitting_of_le {width : α → Nat} {room : Nat} {item : α} (h : width item ≤ room)
    (rest : List α) :
    fitting width room (item :: rest) = item :: fitting width (room - width item) rest :=
  if_pos h

theorem fitting_of_lt {width : α → Nat} {room : Nat} {item : α} (h : room < width item)
    (rest : List α) : fitting width room (item :: rest) = fitting width room rest :=
  if_neg (Nat.not_le_of_lt h)

end Runs

variable {w n : Nat}

/-! ### Chunks in a row -/

namespace Chunk

@[simp] theorem width_empty : empty.width = 0 := rfl

@[simp] theorem append_empty (a : Chunk) : a.append empty = a := by
  apply ext_number
  · rfl
  · rw [number_append, number_empty, width_empty, Nat.pow_zero, Nat.mul_one, Nat.add_zero]

theorem append_assoc (a b c : Chunk) : (a.append b).append c = a.append (b.append c) := by
  apply ext_number
  · exact Nat.add_assoc a.width b.width c.width
  · simp only [number_append, width_append]
    rw [Nat.add_mul, Nat.mul_assoc, ← Nat.pow_add, Nat.add_assoc]

instance : Std.Associative append := ⟨append_assoc⟩

/-- The first chunk is above all the others. -/
theorem join_cons (chunk : Chunk) (rest : List Chunk) :
    join (chunk :: rest) = chunk.append (join rest) := by
  calc join (chunk :: rest) = rest.foldl append (chunk.append empty) := by
        rw [join, List.foldl_cons, empty_append, append_empty]
    _ = chunk.append (join rest) := List.foldl_assoc

theorem width_join (chunks : List Chunk) : (join chunks).width = (chunks.map width).sum := by
  induction chunks with
  | nil => rfl
  | cons chunk rest ih => rw [join_cons, width_append, ih, List.map_cons, List.sum_cons]

end Chunk

/-! ### Packing -/

namespace Packer

/-- Takes a chunk in place: the check first, then the bits, then their count. -/
def pushing (chunk : Bits n) : ExceptT ChunkFault (StateM (Packer w)) Unit := do
  if (← get).filled + n ≤ w then
    modify fun p => { p with acc := p.acc <<< n ||| chunk.resize w }
    modify fun p => { p with filled := p.filled + n }
  else throw (.overflows w)

/-- A refused push leaves the packer as it was. -/
theorem run_pushing (p : Packer w) (chunk : Bits n) :
    (pushing chunk).run.run p = match p.push chunk with
      | .ok p' => (.ok (), p')
      | .error fault => (.error fault, p) := by
  change StateT.run (ExceptT.run (ite (p.filled + n ≤ w) _ _)) p = _
  unfold push
  split
  · rfl
  · rfl

/-- Takes a chunk in place and notes which one it was. -/
def taking (chunk : Chunk) : ExceptT ChunkFault (StateM (Packer w)) Chunk := do
  pushing chunk.bits
  return chunk

theorem run_taking (p : Packer w) (chunk : Chunk) :
    (taking chunk).run.run p = match p.push chunk.bits with
      | .ok p' => (.ok chunk, p')
      | .error fault => (.error fault, p) := by
  simp only [taking, bind_pure_comp, ExceptT.run_map, StateT.run_map, run_pushing]
  cases p.push chunk.bits with
  | ok p' => rfl
  | error fault => rfl

theorem finish_eq_ok_iff (p : Packer w) : p.finish = .ok p.acc ↔ p.filled = w := by
  by_cases hFull : p.filled = w
  · simp [finish, hFull]
  · simp [finish, hFull]

theorem finish_eq_error_iff (p : Packer w) : p.finish = .error (.unfilled w) ↔ p.filled ≠ w := by
  by_cases hFull : p.filled = w
  · simp [finish, hFull]
  · simp [finish, hFull]

/-- Takes chunk after chunk, whether or not those before were refused. -/
def pushAll (chunks : List Chunk) : StateM (Packer w) (List (Except ChunkFault Chunk)) :=
  tryEach taking chunks

/-- A packer takes what fits, and holds it below what it held before. -/
theorem pushAll_holds (chunks : List Chunk) {p : Packer w} (before : Chunk)
    (hp : p.Holds before.width before.number) (hRoom : before.width ≤ w) :
    ∃ outcomes p', (pushAll chunks).run p = (outcomes, p') ∧
      passed outcomes = fitting Chunk.width (w - before.width) chunks ∧
      (before.append (Chunk.join (passed outcomes))).width ≤ w ∧
      p'.Holds (before.append (Chunk.join (passed outcomes))).width
        (before.append (Chunk.join (passed outcomes))).number := by
  induction chunks generalizing p before with
  | nil =>
      refine ⟨[], p, rfl, rfl, ?_⟩
      rw [passed_nil, Chunk.join, List.foldl_nil, Chunk.append_empty]
      exact ⟨hRoom, hp⟩
  | cons chunk rest ih =>
      by_cases hFits : before.width + chunk.width ≤ w
      · obtain ⟨next, hPush, hNext⟩ := hp.push hFits chunk.bits
        have hAppended : next.Holds (before.append chunk).width (before.append chunk).number := by
          rw [Chunk.number_append]
          exact hNext
        obtain ⟨outcomes, p', hRun, hPassed, hHeld⟩ := ih (before.append chunk) hAppended hFits
        have hStep : (taking chunk).run.run p = (.ok chunk, next) := by rw [run_taking, hPush]
        refine ⟨.ok chunk :: outcomes, p', run_tryEach_cons hStep hRun, ?_, ?_⟩
        · rw [passed_ok, hPassed, fitting_of_le (by omega), Chunk.width_append, Nat.sub_add_eq]
        · rw [passed_ok, Chunk.join_cons, ← Chunk.append_assoc]
          exact hHeld
      · have hPush : p.push chunk.bits = .error (.overflows w) := by
          rw [push, hp.filled_eq, if_neg hFits]
        have hStep : (taking chunk).run.run p = (.error (.overflows w), p) := by
          rw [run_taking, hPush]
        obtain ⟨outcomes, p', hRun, hPassed, hHeld⟩ := ih before hp hRoom
        refine ⟨.error (.overflows w) :: outcomes, p', run_tryEach_cons hStep hRun, ?_, hHeld⟩
        rw [passed_error, hPassed, fitting_of_lt (by omega)]

end Packer

/-! ### Unpacking -/

namespace Unpacker

/-- Gives bits in place: the check first, then the count, then the bits that it points at. -/
def popping (n : Nat) : ExceptT ChunkFault (StateM (Unpacker w)) (Bits n) := do
  if n ≤ (← get).remaining then
    modify fun u => { u with remaining := u.remaining - n }
    let u ← get
    return (u.source >>> u.remaining).resize n
  else throw (.exhausted w)

/-- A refused pop leaves the unpacker as it was. -/
theorem run_popping (u : Unpacker w) (n : Nat) :
    (popping n).run.run u = match u.pop n with
      | .ok (chunk, u') => (.ok chunk, u')
      | .error fault => (.error fault, u) := by
  change StateT.run (ExceptT.run (ite (n ≤ u.remaining) _ _)) u = _
  unfold pop
  split
  · rfl
  · rfl

/-- Gives bits in place and notes how many there were. -/
def giving (n : Nat) : ExceptT ChunkFault (StateM (Unpacker w)) Chunk := do
  return ⟨n, ← popping n⟩

theorem run_giving (u : Unpacker w) (n : Nat) :
    (giving n).run.run u = match u.pop n with
      | .ok (chunk, u') => (.ok ⟨n, chunk⟩, u')
      | .error fault => (.error fault, u) := by
  simp only [giving, bind_pure_comp, ExceptT.run_map, StateT.run_map, run_popping]
  cases u.pop n with
  | ok given => rfl
  | error fault => rfl

theorem run_giving_of_le {u : Unpacker w} (h : n ≤ u.remaining) :
    ∃ chunk : Bits n, (giving n).run.run u = (.ok ⟨n, chunk⟩, u.skip n) ∧
      chunk.toNat = u.next n := by
  obtain ⟨chunk, hPop, hNumber⟩ := exists_pop h
  exact ⟨chunk, by rw [run_giving, hPop], hNumber⟩

theorem run_giving_of_lt {u : Unpacker w} (h : u.remaining < n) :
    (giving n).run.run u = (.error (.exhausted w), u) := by
  have hPop : u.pop n = .error (.exhausted w) := if_neg (Nat.not_le_of_lt h)
  rw [run_giving, hPop]

/-- Gives width after width, whether or not those before were refused. -/
def popAll (requests : List Nat) : StateM (Unpacker w) (List (Except ChunkFault Chunk)) :=
  tryEach giving requests

/-- What is given is what fits into the bits that are left, and it consumes its own bits. -/
theorem popAll_consumes (requests : List Nat) (u : Unpacker w) :
    ∃ answers u', (popAll requests).run u = (answers, u') ∧ u'.source = u.source ∧
      (passed answers).map Chunk.width = fitting id u.remaining requests ∧
      ((passed answers).map Chunk.width).sum + u'.remaining = u.remaining := by
  induction requests generalizing u with
  | nil => exact ⟨[], u, rfl, rfl, rfl, Nat.zero_add _⟩
  | cons n rest ih =>
      by_cases hFits : n ≤ u.remaining
      · obtain ⟨chunk, hStep, -⟩ := run_giving_of_le hFits
        obtain ⟨answers, u', hRun, hSource, hPassed, hConsumed⟩ := ih (u.skip n)
        refine ⟨.ok ⟨n, chunk⟩ :: answers, u', run_tryEach_cons hStep hRun, hSource, ?_, ?_⟩
        · rw [passed_ok, List.map_cons, hPassed, fitting_of_le hFits]
          rfl
        · rw [passed_ok, List.map_cons, List.sum_cons]
          rw [skip_remaining] at hConsumed
          show n + _ + u'.remaining = u.remaining
          omega
      · have hOver : u.remaining < n := Nat.lt_of_not_le hFits
        obtain ⟨answers, u', hRun, hSource, hPassed, hConsumed⟩ := ih u
        refine ⟨.error (.exhausted w) :: answers, u',
          run_tryEach_cons (run_giving_of_lt hOver) hRun, hSource, ?_, hConsumed⟩
        rw [passed_error, hPassed, fitting_of_lt hOver]

/-- An unpacker has some chunks in front of it when the bits that are left are those chunks
side by side. -/
structure Faces (u : Unpacker w) (chunks : List Chunk) : Prop where
  remaining_eq : u.remaining = (Chunk.join chunks).width
  next_eq : u.next u.remaining = (Chunk.join chunks).number

/-- The next bits are the first chunk, and behind it are the others. -/
theorem Faces.cons {u : Unpacker w} {chunk : Chunk} {rest : List Chunk}
    (h : u.Faces (chunk :: rest)) :
    chunk.width ≤ u.remaining ∧ u.next chunk.width = chunk.number ∧
      (u.skip chunk.width).Faces rest := by
  obtain ⟨hRemaining, hNext⟩ := h
  rw [Chunk.join_cons, Chunk.width_append] at hRemaining
  have hLeft : (u.skip chunk.width).remaining = (Chunk.join rest).width := by
    rw [skip_remaining]
    omega
  rw [Chunk.join_cons, Chunk.number_append, hRemaining,
    next_add u (Nat.le_of_eq hRemaining.symm)] at hNext
  have hBound : (u.skip chunk.width).next (Chunk.join rest).width < 2 ^ (Chunk.join rest).width :=
    Nat.mod_lt _ (Nat.two_pow_pos _)
  obtain ⟨hFirst, hRest⟩ := parts_eq hBound (Chunk.join rest).number_lt hNext
  refine ⟨by omega, hFirst, hLeft, ?_⟩
  rw [hLeft]
  exact hRest

/-- Asked for the widths of the chunks in front of it, with requests in between that are too
much for what is left, an unpacker gives these chunks. -/
theorem popAll_faces (requests : List Nat) {u : Unpacker w} {chunks : List Chunk}
    (hFaces : u.Faces chunks) (hWidths : fitting id u.remaining requests = chunks.map Chunk.width) :
    ∃ answers u', (popAll requests).run u = (answers, u') ∧ passed answers = chunks := by
  induction requests generalizing u chunks with
  | nil => exact ⟨[], u, rfl, (List.map_eq_nil_iff.1 hWidths.symm).symm⟩
  | cons n rest ih =>
      by_cases hFits : n ≤ u.remaining
      · rw [fitting_of_le hFits] at hWidths
        cases chunks with
        | nil => cases hWidths
        | cons chunk others =>
            rw [List.map_cons] at hWidths
            obtain ⟨rfl, hRest⟩ := List.cons.inj hWidths
            obtain ⟨-, hNext, hBehind⟩ := hFaces.cons
            obtain ⟨bits, hStep, hNumber⟩ := run_giving_of_le hFits
            have hSame : (⟨chunk.width, bits⟩ : Chunk) = chunk :=
              Chunk.ext_number rfl (hNumber.trans hNext)
            obtain ⟨answers, u', hRun, hPassed⟩ := ih hBehind hRest
            refine ⟨.ok ⟨chunk.width, bits⟩ :: answers, u', run_tryEach_cons hStep hRun, ?_⟩
            rw [passed_ok, hPassed, hSame]
      · have hOver : u.remaining < n := Nat.lt_of_not_le hFits
        rw [fitting_of_lt hOver] at hWidths
        obtain ⟨answers, u', hRun, hPassed⟩ := ih hFaces hWidths
        exact ⟨.error (.exhausted w) :: answers, u',
          run_tryEach_cons (run_giving_of_lt hOver) hRun, hPassed⟩

/-- An unpacker starts with all of its vector in front of it. -/
theorem faces_ofBits {source : Bits w} {chunks : List Chunk}
    (hWidth : (Chunk.join chunks).width = w) (hNumber : source.toNat = (Chunk.join chunks).number) :
    (ofBits source).Faces chunks := by
  refine ⟨hWidth.symm, ?_⟩
  show source.toNat >>> (w - w) % 2 ^ w = _
  rw [Nat.sub_self, Nat.shiftRight_zero, Nat.mod_eq_of_lt source.toNat_lt, hNumber]

end Unpacker

/-! ### Packing and unpacking with refusals -/

/-- Whatever is pushed, a packer takes what fits and holds it side by side, the first chunk
highest. A push that would overflow is refused and changes nothing, and only a full packer
hands its vector over. From that vector an unpacker that is asked for the same widths gives
the same chunks and has nothing left, whatever else it was asked for and refused in between. -/
theorem Packer.pushAll_exact {chunks : List Chunk} {outcomes : List (Except ChunkFault Chunk)}
    {p : Packer w} (hRun : (pushAll chunks).run (empty w) = (outcomes, p)) :
    (p.filled = ((passed outcomes).map Chunk.width).sum ∧ p.filled ≤ w ∧
        passed outcomes = fitting Chunk.width w chunks) ∧
      (∀ (n : Nat) (chunk : Bits n),
        (p.filled + n ≤ w → ∃ p', (pushing chunk).run.run p = (.ok (), p')) ∧
          (w < p.filled + n → (pushing chunk).run.run p = (.error (.overflows w), p))) ∧
      (p.acc.toNat = (Chunk.join (passed outcomes)).number ∧ p.acc.toNat < 2 ^ p.filled) ∧
      ((p.finish = .ok p.acc ↔ p.filled = w) ∧
        (p.finish = .error (.unfilled w) ↔ p.filled ≠ w)) ∧
      (p.filled = w →
        ∀ (requests : List Nat) (answers : List (Except ChunkFault Chunk)) (u : Unpacker w),
          (Unpacker.popAll requests).run (Unpacker.ofBits p.acc) = (answers, u) →
            u.source = p.acc ∧
              (passed answers).map Chunk.width = fitting id w requests ∧
              ((passed answers).map Chunk.width).sum + u.remaining = w ∧
              (∀ n, u.remaining < n →
                (Unpacker.popping n).run.run u = (.error (.exhausted w), u)) ∧
              (fitting id w requests = (passed outcomes).map Chunk.width →
                passed answers = passed outcomes ∧ u.remaining = 0)) := by
  obtain ⟨outcomes', p', hRun', hPassed, hRoom, hHeld⟩ :=
    pushAll_holds chunks Chunk.empty (holds_empty w) (Nat.zero_le w)
  cases hRun.symm.trans hRun'
  rw [Chunk.empty_append] at hRoom hHeld
  obtain ⟨hFilled, hAcc, hBound⟩ := hHeld
  have hSum : p.filled = ((passed outcomes).map Chunk.width).sum :=
    hFilled.trans (Chunk.width_join _)
  refine ⟨⟨hSum, hFilled ▸ hRoom, hPassed⟩, ?_, ⟨hAcc, ?_⟩,
    ⟨p.finish_eq_ok_iff, p.finish_eq_error_iff⟩, ?_⟩
  · intro n chunk
    rw [run_pushing]
    refine ⟨?_, ?_⟩
    · intro hFits
      rw [push_eq_ok hFits]
      exact ⟨_, rfl⟩
    · intro hOver
      rw [push, if_neg (Nat.not_le_of_lt hOver)]
  · rw [hAcc, hFilled]
    exact hBound
  · intro hFull requests answers u hPop
    obtain ⟨answers', u', hPop', hSource, hWidths, hConsumed⟩ :=
      Unpacker.popAll_consumes requests (Unpacker.ofBits p.acc)
    cases hPop.symm.trans hPop'
    refine ⟨hSource, hWidths, hConsumed, ?_, ?_⟩
    · intro n hOver
      rw [Unpacker.run_popping, Unpacker.pop, if_neg (Nat.not_le_of_lt hOver)]
    · intro hSame
      have hFaces : (Unpacker.ofBits p.acc).Faces (passed outcomes) :=
        Unpacker.faces_ofBits (hFilled.symm.trans hFull) hAcc
      obtain ⟨given, u'', hPop'', hGiven⟩ := Unpacker.popAll_faces requests hFaces hSame
      cases hPop.symm.trans hPop''
      refine ⟨hGiven, ?_⟩
      rw [hGiven, ← hSum, hFull] at hConsumed
      exact Nat.add_left_cancel hConsumed

/-- Twelve bits from a nibble and a byte, with a chunk of nine bits refused in between. They are
taken out again with three requests refused, one before, one in between and one after. -/
theorem Packer.pushAll_exact_nibble_byte :
    (pushAll [⟨4, Bits.ofNat 4 0xa⟩, ⟨9, Bits.ofNat 9 1⟩, ⟨8, Bits.ofNat 8 0x3c⟩]).run (empty 12)
        = ([.ok ⟨4, Bits.ofNat 4 0xa⟩, .error (.overflows 12), .ok ⟨8, Bits.ofNat 8 0x3c⟩],
          ⟨Bits.ofNat 12 0xa3c, 12⟩) ∧
      12 + 0 ≤ 12 ∧
      (∃ p', (pushing (Bits.zero 0)).run.run ⟨Bits.ofNat 12 0xa3c, 12⟩ = (.ok (), p')) ∧
      12 < 12 + 1 ∧
      (pushing (Bits.ofNat 1 1)).run.run ⟨Bits.ofNat 12 0xa3c, 12⟩
        = (.error (.overflows 12), ⟨Bits.ofNat 12 0xa3c, 12⟩) ∧
      (Unpacker.popAll [13, 4, 9, 8, 1]).run (Unpacker.ofBits (Bits.ofNat 12 0xa3c))
        = ([.error (.exhausted 12), .ok ⟨4, Bits.ofNat 4 0xa⟩, .error (.exhausted 12),
            .ok ⟨8, Bits.ofNat 8 0x3c⟩, .error (.exhausted 12)], ⟨Bits.ofNat 12 0xa3c, 0⟩) ∧
      0 < 1 ∧
      (Unpacker.popping 1).run.run ⟨Bits.ofNat 12 0xa3c, 0⟩
        = (.error (.exhausted 12), ⟨Bits.ofNat 12 0xa3c, 0⟩) ∧
      fitting id 12 [13, 4, 9, 8, 1] = [4, 8] ∧
      passed ((Unpacker.popAll [13, 4, 9, 8, 1]).run (Unpacker.ofBits (Bits.ofNat 12 0xa3c))).1
        = [⟨4, Bits.ofNat 4 0xa⟩, ⟨8, Bits.ofNat 8 0x3c⟩] := by
  have hPushed : (pushAll [⟨4, Bits.ofNat 4 0xa⟩, ⟨9, Bits.ofNat 9 1⟩, ⟨8, Bits.ofNat 8 0x3c⟩]).run
      (empty 12) = ([.ok ⟨4, Bits.ofNat 4 0xa⟩, .error (.overflows 12),
        .ok ⟨8, Bits.ofNat 8 0x3c⟩], ⟨Bits.ofNat 12 0xa3c, 12⟩) := rfl
  have hPopped : (Unpacker.popAll [13, 4, 9, 8, 1]).run (Unpacker.ofBits (Bits.ofNat 12 0xa3c))
      = ([.error (.exhausted 12), .ok ⟨4, Bits.ofNat 4 0xa⟩, .error (.exhausted 12),
        .ok ⟨8, Bits.ofNat 8 0x3c⟩, .error (.exhausted 12)], ⟨Bits.ofNat 12 0xa3c, 0⟩) := rfl
  obtain ⟨-, hNext, -, -, hUnpack⟩ := pushAll_exact hPushed
  obtain ⟨-, -, -, hRefused, hSame⟩ := hUnpack rfl [13, 4, 9, 8, 1] _ _ hPopped
  refine ⟨hPushed, by decide, ?_, by decide, ?_, hPopped, by decide, ?_, rfl, (hSame rfl).1⟩
  · exact (hNext 0 (Bits.zero 0)).1 (by decide)
  · exact (hNext 1 (Bits.ofNat 1 1)).2 (by decide)
  · exact hRefused 1 (by decide)

end AtomicRules
