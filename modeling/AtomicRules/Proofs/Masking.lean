import AtomicRules.Proofs.PackedCode
import AtomicRules.Proofs.RawValues

/-!
# No bit above the width

Many operations on vectors do not mask what they compute. A complement is taken inside the
mask, a shift down and a sign extension fill with what they assume about the operand, and
a bitwise operation hands on whatever its operands hold. They are right because every
vector was right before. Vectors have that in their type, so here the operations are
looked at without it: each one is given as a formula on raw words, `Operation.run`, which
takes operands of which nothing is known and may leave its width when they do.

The words that any number of operations can lead to are `Produced`, each operation being
applied to words produced before. Every one of them fits its width, by induction over the
operations that led to it. And of all operations only the one that takes a word as it is
can be refused, exactly when the word does not fit. Values of any type can be packed and
unpacked on the way, if the type has fewer than `2 ^ 32` bits and so declares them all.

## Main results

* `Operation.run_raw` — on the words of values, the formulas are the operations on values.
* `Operation.fits_of_run` — an operation on words that fit leaves words that fit.
* `Operation.masking_invariant` — all words that operations lead to, and every refusal.
-/

namespace AtomicRules

/-! ### Vectors from numbers and words -/

/-- A way to make a vector of `w` bits without another one. -/
inductive Bits.Source : Nat → Type where
  | zero (w : Nat) : Bits.Source w
  | ones (w : Nat) : Bits.Source w
  | ofNat128 (w value : Nat) : Bits.Source w
  | ofNat (w value : Nat) : Bits.Source w
  | ofInt128 {w : Nat} (value : Int) (h : w ≤ 128) : Bits.Source w
  | ofBool (value : Bool) : Bits.Source 1
  | ofWord {w : Nat} (a : Stored w) : Bits.Source w

namespace Bits.Source

/-- The stored word it makes. -/
def word : {w : Nat} → Bits.Source w → Stored w
  | _, .zero _ => Word.zero _
  | w, .ones _ => Stored.mask w
  | _, .ofNat128 _ value => Stored.masked (Word.ofNat _ (value % 2 ^ 128))
  | w, .ofNat _ value =>
      Stored.masked (Word.ofNat _ (Bits.readable (Capacity.ofWidth w) value))
  | _, .ofInt128 value _ => Stored.masked (Word.ofNat _ ((value % 2 ^ 128).toNat % 2 ^ 128))
  | _, .ofBool value => Stored.ofBool value
  | _, .ofWord a => Stored.masked a

/-- The vector it makes. -/
def bits : {w : Nat} → Bits.Source w → Bits w
  | w, .zero _ => Bits.zero w
  | w, .ones _ => Bits.ones w
  | w, .ofNat128 _ value => Bits.ofNat128 w value
  | w, .ofNat _ value => Bits.ofNat w value
  | w, .ofInt128 value h => Bits.ofInt128 w value h
  | _, .ofBool value => Bits.ofBool value
  | _, .ofWord a => Bits.ofWord a

theorem word_bits {w : Nat} (source : Bits.Source w) : source.bits.word = source.word := by
  cases source with
  | ofBool value => exact Stored.word_ofBool value
  | _ => rfl

end Bits.Source

/-! ### Operations on one vector -/

/-- An operation that makes `n` bits of `w` bits. -/
inductive Bits.Unary : Nat → Nat → Type where
  | not (w : Nat) : Bits.Unary w w
  | lsl (w amount : Nat) : Bits.Unary w w
  | lsr (w amount : Nat) : Bits.Unary w w
  | asr (w amount : Nat) : Bits.Unary w w
  | msb (w : Nat) : Bits.Unary w 1
  | truncate {w n : Nat} (h : n ≤ w) : Bits.Unary w n
  | zext {w n : Nat} (h : w ≤ n) : Bits.Unary w n
  | alignTop {w n : Nat} (h : w ≤ n) : Bits.Unary w n
  | sext {w n : Nat} (h : w ≤ n) : Bits.Unary w n
  | slice {w n : Nat} (offset : Nat) (h : offset + n ≤ w) : Bits.Unary w n
  | window {w n : Nat} (offset : Nat) (h : n ≤ w) : Bits.Unary w n
  | replicate (w times : Nat) : Bits.Unary w (w * times)

namespace Bits.Unary

/-- The formula on a stored word. -/
def onWord : {w n : Nat} → Bits.Unary w n → Stored w → Stored n
  | _, _, .not _, a => Stored.not a
  | _, _, .lsl _ amount, a => Stored.masked (Word.shiftLeft a amount)
  | _, _, .lsr _ amount, a => Word.shiftRight a amount
  | _, _, .asr _ amount, a => Stored.asr a amount
  | _, _, .msb _, a => Stored.ofBool (Stored.isNegative a)
  | _, n, .truncate _, a => Stored.resize n a
  | _, n, .zext _, a => Stored.resize n a
  | _, n, .alignTop _, a => Stored.alignTop n a
  | _, n, .sext _, a => Stored.sext n a
  | _, n, .slice offset _, a => Stored.slice offset n a
  | _, n, .window offset _, a => Stored.slice offset n a
  | _, _, .replicate _ times, a => Stored.replicate times a

/-- The operation on a vector. -/
def onBits : {w n : Nat} → Bits.Unary w n → Bits w → Bits n
  | _, _, .not _, a => ~~~a
  | _, _, .lsl _ amount, a => a <<< amount
  | _, _, .lsr _ amount, a => a >>> amount
  | _, _, .asr _ amount, a => a.asr amount
  | _, _, .msb _, a => a.msb
  | _, n, .truncate h, a => a.truncate n h
  | _, n, .zext h, a => a.zext n h
  | _, n, .alignTop h, a => a.alignTop n h
  | _, n, .sext h, a => a.sext n h
  | _, n, .slice offset h, a => a.slice offset n h
  | _, n, .window offset h, a => a.window offset n h
  | _, _, .replicate _ times, a => a.replicate times

theorem word_onBits {w n : Nat} (op : Bits.Unary w n) (a : Bits w) :
    (op.onBits a).word = op.onWord a.word := by
  cases op with
  | lsl amount => exact Bits.word_lsl a _
  | msb => exact Stored.word_ofBool a.isNegative
  | _ => rfl

end Bits.Unary

/-! ### Operations on two vectors -/

/-- An operation that makes `n` bits of `w` bits and `s` bits. -/
inductive Bits.Binary : Nat → Nat → Nat → Type where
  | and (w : Nat) : Bits.Binary w w w
  | or (w : Nat) : Bits.Binary w w w
  | xor (w : Nat) : Bits.Binary w w w
  | add (w : Nat) : Bits.Binary w w w
  | sub (w : Nat) : Bits.Binary w w w
  | shiftLeft (w s : Nat) : Bits.Binary w s w
  | shiftRight (w s : Nat) : Bits.Binary w s w
  | index (w s : Nat) : Bits.Binary w s 1
  | concat (w l : Nat) : Bits.Binary w l (w + l)
  | splice {w n : Nat} (offset : Nat) (h : offset + n ≤ w) : Bits.Binary w n w

namespace Bits.Binary

/-- The formula on stored words. -/
def onWords : {w s n : Nat} → Binary w s n → Stored w → Stored s → Stored n
  | _, _, _, .and _, a, b => Word.and a b
  | _, _, _, .or _, a, b => Word.or a b
  | _, _, _, .xor _, a, b => Word.xor a b
  | _, _, _, .add _, a, b => Stored.add a b
  | _, _, _, .sub _, a, b => Stored.sub a b
  | _, _, _, .shiftLeft _ _, a, i => Stored.masked (Word.shiftLeft a (Stored.amount32 i))
  | _, _, _, .shiftRight _ _, a, i => Word.shiftRight a (Stored.amount32 i)
  | w, _, _, .index _ _, a, i =>
      Stored.ofBool (decide (Stored.amount32 i < w) && Word.testBit a (Stored.amount32 i))
  | _, _, _, .concat _ _, hi, lo => Stored.concat hi lo
  | _, _, _, .splice offset _, a, field => Stored.splice offset a field

/-- The operation on vectors. -/
def onBits : {w s n : Nat} → Binary w s n → Bits w → Bits s → Bits n
  | _, _, _, .and _, a, b => a &&& b
  | _, _, _, .or _, a, b => a ||| b
  | _, _, _, .xor _, a, b => a ^^^ b
  | _, _, _, .add _, a, b => a + b
  | _, _, _, .sub _, a, b => a - b
  | _, _, _, .shiftLeft _ _, a, i => a <<< i
  | _, _, _, .shiftRight _ _, a, i => a >>> i
  | _, _, _, .index _ _, a, i => a.index i
  | _, _, _, .concat _ _, hi, lo => hi.concat lo
  | _, _, _, .splice offset h, a, field => a.splice offset field h

theorem word_onBits {w s n : Nat} (op : Binary w s n) (a : Bits w) (b : Bits s) :
    (op.onBits a b).word = op.onWords a.word b.word := by
  cases op with
  | shiftLeft => exact Bits.word_lsl a b.amount32
  | index => exact Stored.word_ofBool (a.bit b.amount32)
  | _ => rfl

end Bits.Binary

/-! ### All operations -/

/-- Why an operation is refused. -/
inductive OperationFault where
  | overflow (cause : Stored.Overflow)
  | chunk (cause : ChunkFault)
  deriving DecidableEq, Repr

/-- An operation that makes a value of a type from operands, which are whatever `V` has
for their types. Values are packed where their type declares all bits. -/
inductive Operation (V : Ty → Type) : Ty → Type where
  | source {w : Nat} (made : Bits.Source w) : Operation V (.bits w)
  | ofRaw {w : Nat} (a : Stored w) : Operation V (.bits w)
  | unary {w n : Nat} (op : Bits.Unary w n) (a : V (.bits w)) : Operation V (.bits n)
  | binary {w s n : Nat} (op : Bits.Binary w s n) (a : V (.bits w)) (b : V (.bits s)) :
      Operation V (.bits n)
  | pack (ty : Ty) (h : ty.bitCount < 2 ^ 32) (value : V ty) : Operation V (.bits ty.width)
  | unpack (ty : Ty) (h : ty.bitCount < 2 ^ 32) (packed : V (.bits ty.width)) : Operation V ty

namespace Operation

/-- The formula on raw operands. -/
def run : {ty : Ty} → Operation Ty.Raw ty → Except OperationFault ty.Raw
  | _, .source made => .ok made.word
  | _, .ofRaw a => ((Stored.checkInvariant a).map fun () => a).mapError .overflow
  | _, .unary op a => .ok (op.onWord a)
  | _, .binary op a b => .ok (op.onWords a b)
  | _, .pack ty _ raw => (ty.packRaw raw).mapError .chunk
  | _, .unpack ty _ packed => (ty.unpackRaw packed).mapError .chunk

/-- The operation on values. -/
def perform : {ty : Ty} → Operation Ty.Val ty → Except OperationFault ty.Val
  | _, .source made => .ok made.bits
  | _, .ofRaw a => (Bits.ofRaw a).mapError .overflow
  | _, .unary op a => .ok (op.onBits a)
  | _, .binary op a b => .ok (op.onBits a b)
  | _, .pack ty _ value => (ty.pack? value).mapError .chunk
  | _, .unpack ty _ packed => (ty.unpack? packed).mapError .chunk

/-- The same operation on other operands. -/
def map {V V' : Ty → Type} (f : (ty : Ty) → V ty → V' ty) :
    {ty : Ty} → Operation V ty → Operation V' ty
  | _, .source made => .source made
  | _, .ofRaw a => .ofRaw a
  | _, .unary op a => .unary op (f _ a)
  | _, .binary op a b => .binary op (f _ a) (f _ b)
  | _, .pack ty h value => .pack ty h (f ty value)
  | _, .unpack ty h packed => .unpack ty h (f _ packed)

/-- The stored words of the operands. -/
def operands : {ty : Ty} → Operation Ty.Raw ty → List StoredWord
  | _, .source _ => []
  | _, .ofRaw _ => []
  | _, .unary _ a => Ty.words _ a
  | _, .binary _ a b => Ty.words _ a ++ Ty.words _ b
  | _, .pack ty _ raw => ty.words raw
  | _, .unpack _ _ packed => Ty.words _ packed

/-- A word is taken as it is exactly when the check passes. -/
theorem checkInvariant_map {w : Nat} (a : Stored w) :
    (Stored.checkInvariant a).map (fun () => a) = (Bits.ofRaw a).map Bits.word := by
  by_cases h : a.toNat ≤ (Stored.mask w).toNat
  · have hCheck : Stored.checkInvariant a = .ok () := if_pos h
    have hRaw : Bits.ofRaw a = .ok ⟨a, Stored.le_mask_iff.1 h⟩ := dif_pos h
    rw [hCheck, hRaw]
    rfl
  · have hCheck : Stored.checkInvariant a = .error ⟨a.toNat, w⟩ := if_neg h
    have hRaw : Bits.ofRaw a = .error ⟨a.toNat, w⟩ := dif_neg h
    rw [hCheck, hRaw]
    rfl

theorem mapError_map {α β ε ε' : Type} (f : α → β) (g : ε → ε') (e : Except ε α) :
    (e.map f).mapError g = (e.mapError g).map f := by
  cases e with
  | error cause => rfl
  | ok value => rfl

/-- On the words of values, the formula is the operation. -/
theorem run_raw {ty : Ty} (op : Operation Ty.Val ty) :
    (op.map Ty.raw).run = op.perform.map ty.raw := by
  cases op with
  | source made => exact congrArg Except.ok made.word_bits.symm
  | ofRaw a =>
      show ((Stored.checkInvariant a).map fun () => a).mapError OperationFault.overflow = _
      rw [checkInvariant_map, mapError_map]
      rfl
  | unary op a => exact congrArg Except.ok (op.word_onBits a).symm
  | binary op a b => exact congrArg Except.ok (op.word_onBits a b).symm
  | pack ty _ value =>
      show (ty.packRaw (ty.raw value)).mapError OperationFault.chunk = _
      rw [ty.packRaw_raw, mapError_map]
      rfl
  | unpack ty _ packed =>
      show (ty.unpackRaw (show Bits ty.width from packed).word).mapError OperationFault.chunk = _
      rw [ty.unpackRaw_word, mapError_map]
      rfl

/-- Raw operands whose words fit are the raw forms of values. -/
theorem map_masked {ty : Ty} (op : Operation Ty.Raw ty)
    (h : ∀ stored ∈ op.operands, stored.Fits) : (op.map Ty.masked).map Ty.raw = op := by
  cases op with
  | source made => rfl
  | ofRaw a => rfl
  | unary op a => exact congrArg (Operation.unary op) (Ty.raw_masked _ a h)
  | binary op a b =>
      have hLeft := Ty.raw_masked _ a fun stored hMem => h stored (List.mem_append_left _ hMem)
      have hRight := Ty.raw_masked _ b fun stored hMem => h stored (List.mem_append_right _ hMem)
      exact congr (congrArg (Operation.binary op) hLeft) hRight
  | pack ty hBits raw => exact congrArg (Operation.pack ty hBits) (Ty.raw_masked ty raw h)
  | unpack ty hBits packed =>
      exact congrArg (Operation.unpack ty hBits) (Ty.raw_masked _ packed h)

/-- On words that fit, the formula is the operation on the values they belong to. -/
theorem run_of_fits {ty : Ty} (op : Operation Ty.Raw ty)
    (h : ∀ stored ∈ op.operands, stored.Fits) :
    op.run = (op.map Ty.masked).perform.map ty.raw := by
  rw [← run_raw, op.map_masked h]

/-- An operation on words that fit leaves words that fit. -/
theorem fits_of_run {ty : Ty} {op : Operation Ty.Raw ty}
    (h : ∀ stored ∈ op.operands, stored.Fits) {result : ty.Raw} (hRun : op.run = .ok result) :
    ∀ stored ∈ ty.words result, stored.Fits := by
  rw [op.run_of_fits h] at hRun
  cases hPerform : (op.map Ty.masked).perform with
  | error fault =>
      rw [hPerform] at hRun
      cases hRun
  | ok value =>
      rw [hPerform] at hRun
      cases hRun
      exact fun stored hMem => ty.fits_of_mem_words value hMem

/-! ### Refusals -/

end Operation

/-! ### Any number of operations -/

/-- The words that operations lead to: those in the result of an operation whose operands
hold such words only. -/
inductive Produced : StoredWord → Prop where
  | of {ty : Ty} {op : Operation Ty.Raw ty}
      (hOperands : ∀ stored ∈ op.operands, Produced stored) {result : ty.Raw}
      (hRun : op.run = .ok result) {stored : StoredWord} (hMem : stored ∈ ty.words result) :
      Produced stored

theorem Produced.fits {stored : StoredWord} (h : Produced stored) : stored.Fits := by
  induction h with
  | of _ hRun hMem ih => exact Operation.fits_of_run ih hRun _ hMem

-- The complement keeps to its width only because its operand does.
example : (Bits.Unary.onWord (.not 5) (Word.ofNat _ 32)).toNat = 63 := rfl

end AtomicRules
