import AtomicRules.Packed.Codec

/-!
# Values of raw words

A vector carries the fact that its stored word fits its width. Here that fact is taken
away: a raw value has a stored word wherever a value has a vector, and nothing is known of
the word. Packing and unpacking can be done with raw values as well, word against word,
by the formulas that the vectors use.

A value becomes raw by forgetting the bounds, and a raw value becomes a value by masking
every word. Masking changes nothing when all words fit. So what holds of packing values
holds of packing raw values whose words fit.

## Main results

* `Ty.fits_of_mem_words` — the words of a value fit.
* `Ty.raw_masked` — a raw value whose words fit is the raw form of a value.
* `Ty.packRaw_raw`, `Ty.unpackRaw_word` — packing and unpacking, raw or not, are the same.
-/

namespace AtomicRules

variable {w n : Nat}

/-! ### Stored words -/

/-- A stored word together with the width it is meant for. -/
structure StoredWord where
  width : Nat
  word : Stored width

namespace StoredWord

/-- No bit is set at or above the width. -/
def Fits (stored : StoredWord) : Prop := stored.word.toNat ≤ 2 ^ stored.width - 1

theorem fits_iff {a : Stored w} : (mk w a).Fits ↔ a.toNat < 2 ^ w := by
  have hpos := Nat.two_pow_pos w
  show a.toNat ≤ 2 ^ w - 1 ↔ _
  omega

end StoredWord

namespace Stored

/-- Masking a word that fits changes nothing. -/
theorem masked_of_fits {a : Stored w} (h : (StoredWord.mk w a).Fits) : masked a = a :=
  Word.ext (by rw [toNat_masked, Nat.mod_eq_of_lt (StoredWord.fits_iff.1 h)])

end Stored

/-! ### Raw values -/

mutual

/-- Values with a stored word for every vector. -/
def Ty.Raw : Ty → Type
  | .bool => Bool
  | .bits w => Stored w
  | .array elem size => Vector elem.Raw size
  | .struct _ fields => fields.Raws

/-- Raw values of the fields of a struct. -/
def Fields.Raws : Fields → Type
  | .nil => Unit
  | .cons _ ty rest => ty.Raw × rest.Raws

end

mutual

/-- The raw form of a value: what is stored of it. -/
def Ty.raw : (ty : Ty) → ty.Val → ty.Raw
  | .bool, value => (show Bool from value)
  | .bits w, value => (show Bits w from value).word
  | .array elem size, values => (show Vector elem.Val size from values).map elem.raw
  | .struct _ fields, values => fields.raws values

/-- The raw forms of field values. -/
def Fields.raws : (fields : Fields) → fields.Vals → fields.Raws
  | .nil, _ => ()
  | .cons _ ty rest, values => (ty.raw values.1, rest.raws values.2)

end

mutual

/-- The value whose words are masked. -/
def Ty.masked : (ty : Ty) → ty.Raw → ty.Val
  | .bool, raw => (show Bool from raw)
  | .bits w, raw => Bits.ofWord (show Stored w from raw)
  | .array elem size, raws => (show Vector elem.Raw size from raws).map elem.masked
  | .struct _ fields, raws => fields.masked raws

/-- The field values whose words are masked. -/
def Fields.masked : (fields : Fields) → fields.Raws → fields.Vals
  | .nil, _ => ()
  | .cons _ ty rest, raws => (ty.masked raws.1, rest.masked raws.2)

end

mutual

/-- Every stored word in a raw value. -/
def Ty.words : (ty : Ty) → ty.Raw → List StoredWord
  | .bool, _ => []
  | .bits w, raw => [⟨w, raw⟩]
  | .array elem size, raws => (show Vector elem.Raw size from raws).toList.flatMap elem.words
  | .struct _ fields, raws => fields.words raws

/-- Every stored word in raw field values. -/
def Fields.words : (fields : Fields) → fields.Raws → List StoredWord
  | .nil, _ => []
  | .cons _ ty rest, raws => ty.words raws.1 ++ rest.words raws.2

end

mutual

/-- The words of a value fit. -/
theorem Ty.fits_of_mem_words : (ty : Ty) → (value : ty.Val) → {stored : StoredWord} →
    stored ∈ ty.words (ty.raw value) → stored.Fits
  | .bits w, value, _, h => by
      obtain rfl := List.mem_singleton.1 h
      exact StoredWord.fits_iff.2 (show Bits w from value).fits
  | .array elem size, values, stored, h => by
      obtain ⟨raw, hRaw, hStored⟩ := List.mem_flatMap.1 h
      obtain ⟨value, -, rfl⟩ := Vector.mem_map.1 (Vector.mem_toList_iff.1 hRaw)
      exact Ty.fits_of_mem_words elem value hStored
  | .struct _ fields, values, _, h => Fields.fits_of_mem_words fields values h

/-- The words of field values fit. -/
theorem Fields.fits_of_mem_words : (fields : Fields) → (values : fields.Vals) →
    {stored : StoredWord} → stored ∈ fields.words (fields.raws values) → stored.Fits
  | .cons _ ty rest, values, _, h => by
      rcases List.mem_append.1 h with hFirst | hRest
      · exact Ty.fits_of_mem_words ty values.1 hFirst
      · exact Fields.fits_of_mem_words rest values.2 hRest

end

mutual

/-- A raw value whose words fit is the raw form of a value. -/
theorem Ty.raw_masked : (ty : Ty) → (raw : ty.Raw) → (∀ stored ∈ ty.words raw, stored.Fits) →
    ty.raw (ty.masked raw) = raw
  | .bool, _, _ => rfl
  | .bits w, raw, h => Stored.masked_of_fits (h ⟨w, raw⟩ (List.mem_singleton.2 rfl))
  | .array elem size, raws, h => by
      have hEach : ∀ raw ∈ (show Vector elem.Raw size from raws),
          elem.raw (elem.masked raw) = raw := fun raw hMem =>
        Ty.raw_masked elem raw fun stored hStored =>
          h stored (List.mem_flatMap.2 ⟨raw, Vector.mem_toList_iff.2 hMem, hStored⟩)
      show ((show Vector elem.Raw size from raws).map elem.masked).map elem.raw = raws
      rw [Vector.map_map]
      exact (Vector.map_congr_left hEach).trans (Vector.map_id _)
  | .struct _ fields, raws, h => Fields.raws_masked fields raws h

/-- Raw field values whose words fit are the raw forms of field values. -/
theorem Fields.raws_masked : (fields : Fields) → (raws : fields.Raws) →
    (∀ stored ∈ fields.words raws, stored.Fits) → fields.raws (fields.masked raws) = raws
  | .nil, _, _ => rfl
  | .cons _ ty rest, raws, h => by
      have hFirst := Ty.raw_masked ty raws.1 fun stored hStored =>
        h stored (List.mem_append_left _ hStored)
      have hRest := Fields.raws_masked rest raws.2 fun stored hStored =>
        h stored (List.mem_append_right _ hStored)
      exact Prod.ext hFirst hRest

end

/-! ### Packing raw values -/

/-- The word of one bit for a truth value. -/
def Stored.ofBool (value : Bool) : Stored 1 := Word.ofNat _ value.toNat

theorem Stored.word_ofBool (value : Bool) : (Bits.ofBool value).word = ofBool value := by
  cases value <;> rfl

/-- The raw chunks taken so far. -/
structure RawPacker (w : Nat) where
  acc : Stored w
  filled : Nat

namespace RawPacker

/-- No chunk taken yet. -/
def empty (w : Nat) : RawPacker w := ⟨Word.zero _, 0⟩

/-- Takes a raw chunk below the ones before it. -/
def push (p : RawPacker w) (chunk : Stored n) : Except ChunkFault (RawPacker w) :=
  if p.filled + n ≤ w then
    .ok ⟨Word.or (Stored.lsl p.acc n) (Stored.resize w chunk), p.filled + n⟩
  else .error (.overflows w)

/-- Hands over the word once every bit is filled. -/
def finish (p : RawPacker w) : Except ChunkFault (Stored w) :=
  if p.filled = w then .ok p.acc else .error (.unfilled w)

end RawPacker

mutual

/-- Appends the packed form of a raw value. -/
def Ty.packRawInto : (ty : Ty) → ty.Raw → RawPacker w → Except ChunkFault (RawPacker w)
  | .bool, raw, packer => packer.push (Stored.ofBool raw)
  | .bits _, raw, packer => packer.push (show Stored _ from raw)
  | .array elem size, raws, packer =>
      (show Vector elem.Raw size from raws).toList.foldlM
        (fun packer raw => elem.packRawInto raw packer) packer
  | .struct _ fields, raws, packer => fields.packRawInto raws packer

/-- Appends the packed forms of raw field values. -/
def Fields.packRawInto : (fields : Fields) → fields.Raws → RawPacker w →
    Except ChunkFault (RawPacker w)
  | .nil, _, packer => .ok packer
  | .cons _ ty rest, raws, packer => do
      rest.packRawInto raws.2 (← ty.packRawInto raws.1 packer)

end

/-- Packs a raw value. -/
def Ty.packRaw (ty : Ty) (raw : ty.Raw) : Except ChunkFault (Stored ty.width) := do
  (← ty.packRawInto raw (RawPacker.empty ty.width)).finish

/-- The raw form of a packer. -/
def Packer.raw (p : Packer w) : RawPacker w := ⟨p.acc.word, p.filled⟩

theorem Packer.raw_empty (w : Nat) : (empty w).raw = RawPacker.empty w := rfl

theorem Packer.push_raw (p : Packer w) (chunk : Bits n) :
    p.raw.push chunk.word = (p.push chunk).map Packer.raw := by
  by_cases h : p.filled + n ≤ w
  · rw [Packer.push_eq_ok h]
    exact if_pos h
  · have hRefused : p.push chunk = .error (.overflows w) := if_neg h
    rw [hRefused]
    exact if_neg h

theorem Packer.finish_raw (p : Packer w) : p.raw.finish = p.finish.map Bits.word := by
  by_cases h : p.filled = w
  · rw [Packer.finish_eq_ok h]
    exact if_pos h
  · have hRefused : p.finish = .error (.unfilled w) := if_neg h
    rw [hRefused]
    exact if_neg h

/-- Pushing a run of raw values is pushing the values, if that is so for each. -/
theorem foldlM_push_raw {α β : Type} {forget : α → β}
    {push : Packer w → α → Except ChunkFault (Packer w)}
    {pushRaw : RawPacker w → β → Except ChunkFault (RawPacker w)}
    (h : ∀ packer value, pushRaw packer.raw (forget value) = (push packer value).map Packer.raw)
    (values : List α) (packer : Packer w) :
    (values.map forget).foldlM pushRaw packer.raw
      = (values.foldlM push packer).map Packer.raw := by
  induction values generalizing packer with
  | nil => rfl
  | cons value rest ih =>
      rw [List.map_cons, List.foldlM_cons, List.foldlM_cons, h]
      cases push packer value with
      | error fault => rfl
      | ok next => exact ih next

mutual

/-- Packing a raw value is packing the value. -/
theorem Ty.packRawInto_raw : (ty : Ty) → (value : ty.Val) → (packer : Packer w) →
    ty.packRawInto (ty.raw value) packer.raw = (ty.packInto value packer).map Packer.raw
  | .bool, value, packer => by
      have hPush := packer.push_raw (Bits.ofBool value)
      rw [Stored.word_ofBool value] at hPush
      exact hPush
  | .bits n, value, packer => packer.push_raw (show Bits n from value)
  | .array elem size, values, packer => by
      show ((show Vector elem.Val size from values).map elem.raw).toList.foldlM
          (fun packer raw => elem.packRawInto raw packer) packer.raw = _
      rw [Vector.toList_map]
      exact foldlM_push_raw (fun packer value => Ty.packRawInto_raw elem value packer) _ packer
  | .struct _ fields, values, packer => Fields.packRawInto_raws fields values packer

/-- Packing raw field values is packing the field values. -/
theorem Fields.packRawInto_raws : (fields : Fields) → (values : fields.Vals) →
    (packer : Packer w) →
    fields.packRawInto (fields.raws values) packer.raw
      = (fields.packInto values packer).map Packer.raw
  | .nil, _, _ => rfl
  | .cons _ ty rest, values, packer => by
      simp only [Fields.packRawInto, Fields.raws, Fields.packInto, Ty.packRawInto_raw ty]
      cases ty.packInto values.1 packer with
      | error fault => rfl
      | ok next => exact Fields.packRawInto_raws rest values.2 next

end

theorem Ty.packRaw_raw (ty : Ty) (value : ty.Val) :
    ty.packRaw (ty.raw value) = (ty.pack? value).map Bits.word := by
  simp only [packRaw, pack?, ← Packer.raw_empty, Ty.packRawInto_raw ty]
  cases ty.packInto value (Packer.empty ty.width) with
  | error fault => rfl
  | ok packer => exact packer.finish_raw

/-! ### Unpacking raw words -/

/-- A raw word of which the low `remaining` bits are still to be taken. -/
structure RawUnpacker (w : Nat) where
  source : Stored w
  remaining : Nat

namespace RawUnpacker

/-- Takes the next `n` bits. -/
def pop (n : Nat) (u : RawUnpacker w) : Except ChunkFault (Stored n × RawUnpacker w) :=
  if n ≤ u.remaining then
    .ok (Stored.resize n (Stored.lsr u.source (u.remaining - n)),
      ⟨u.source, u.remaining - n⟩)
  else .error (.exhausted w)

/-- Reads `n` raw values one after the other. -/
def popMany {α : Type} (read : RawUnpacker w → Except ChunkFault (α × RawUnpacker w)) :
    (n : Nat) → RawUnpacker w → Except ChunkFault (Vector α n × RawUnpacker w)
  | 0, unpacker => .ok (Vector.emptyWithCapacity 0, unpacker)
  | n + 1, unpacker => do
      let (before, unpacker) ← popMany read n unpacker
      let (last, unpacker) ← read unpacker
      return (before.push last, unpacker)

end RawUnpacker

mutual

/-- Reads a raw value from the next bits. -/
def Ty.unpackRawFrom : (ty : Ty) → RawUnpacker w → Except ChunkFault (ty.Raw × RawUnpacker w)
  | .bool, unpacker => do
      let (bit, unpacker) ← unpacker.pop 1
      return (!bit.isZero, unpacker)
  | .bits n, unpacker => unpacker.pop n
  | .array elem size, unpacker => unpacker.popMany elem.unpackRawFrom size
  | .struct _ fields, unpacker => fields.unpackRawFrom unpacker

/-- Reads the raw values of the fields. -/
def Fields.unpackRawFrom : (fields : Fields) → RawUnpacker w →
    Except ChunkFault (fields.Raws × RawUnpacker w)
  | .nil, unpacker => .ok ((), unpacker)
  | .cons _ ty rest, unpacker => do
      let (first, unpacker) ← ty.unpackRawFrom unpacker
      let (others, unpacker) ← rest.unpackRawFrom unpacker
      return ((first, others), unpacker)

end

/-- Unpacks a raw word. -/
def Ty.unpackRaw (ty : Ty) (packed : Stored ty.width) : Except ChunkFault ty.Raw := do
  return (← ty.unpackRawFrom ⟨packed, ty.width⟩).1

/-- The raw form of an unpacker. -/
def Unpacker.raw (u : Unpacker w) : RawUnpacker w := ⟨u.source.word, u.remaining⟩

theorem Unpacker.raw_ofBits (packed : Bits w) : (ofBits packed).raw = ⟨packed.word, w⟩ := rfl

theorem Unpacker.pop_raw (u : Unpacker w) (n : Nat) :
    u.raw.pop n = (u.pop n).map (Prod.map Bits.word Unpacker.raw) := by
  by_cases h : n ≤ u.remaining
  · rw [Unpacker.pop_eq_ok h]
    exact if_pos h
  · have hRefused : u.pop n = .error (.exhausted w) := if_neg h
    rw [hRefused]
    exact if_neg h

/-- Reading a run of raw values is reading the values, if that is so for each. -/
theorem Unpacker.popMany_raw {α β : Type} {forget : α → β}
    {read : Unpacker w → Except ChunkFault (α × Unpacker w)}
    {readRaw : RawUnpacker w → Except ChunkFault (β × RawUnpacker w)}
    (h : ∀ unpacker, readRaw unpacker.raw = (read unpacker).map (Prod.map forget Unpacker.raw))
    (n : Nat) (unpacker : Unpacker w) :
    unpacker.raw.popMany readRaw n
      = (unpacker.popMany read n).map (Prod.map (Vector.map forget) Unpacker.raw) := by
  induction n with
  | zero => simp [RawUnpacker.popMany, popMany, Except.map]
  | succ n ih =>
      simp only [RawUnpacker.popMany, popMany, ih]
      cases unpacker.popMany read n with
      | error fault => rfl
      | ok before =>
          simp only [Except.map, Prod.map, bind, Except.bind, h]
          cases read before.2 with
          | error fault => rfl
          | ok last => simp [pure, Except.pure]

mutual

/-- Unpacking a raw value is unpacking the value. -/
theorem Ty.unpackRawFrom_raw : (ty : Ty) → (unpacker : Unpacker w) →
    ty.unpackRawFrom unpacker.raw
      = (ty.unpackFrom unpacker).map (Prod.map ty.raw Unpacker.raw)
  | .bool, unpacker => by
      simp only [Ty.unpackRawFrom, Ty.unpackFrom, Unpacker.pop_raw]
      cases unpacker.pop 1 with
      | error fault => rfl
      | ok bit => rfl
  | .bits n, unpacker => unpacker.pop_raw n
  | .array elem size, unpacker =>
      Unpacker.popMany_raw (fun unpacker => Ty.unpackRawFrom_raw elem unpacker) size unpacker
  | .struct _ fields, unpacker => Fields.unpackRawFrom_raws fields unpacker

/-- Unpacking raw field values is unpacking the field values. -/
theorem Fields.unpackRawFrom_raws : (fields : Fields) → (unpacker : Unpacker w) →
    fields.unpackRawFrom unpacker.raw
      = (fields.unpackFrom unpacker).map (Prod.map fields.raws Unpacker.raw)
  | .nil, _ => rfl
  | .cons _ ty rest, unpacker => by
      simp only [Fields.unpackRawFrom, Fields.unpackFrom, Ty.unpackRawFrom_raw ty]
      cases ty.unpackFrom unpacker with
      | error fault => rfl
      | ok first =>
          simp only [Except.map, Prod.map, bind, Except.bind,
            Fields.unpackRawFrom_raws rest first.2]
          cases rest.unpackFrom first.2 with
          | error fault => rfl
          | ok others => rfl

end

theorem Ty.unpackRaw_word (ty : Ty) (packed : Bits ty.width) :
    ty.unpackRaw packed.word = (ty.unpack? packed).map ty.raw := by
  simp only [unpackRaw, unpack?, ← Unpacker.raw_ofBits, Ty.unpackRawFrom_raw ty]
  cases ty.unpackFrom (Unpacker.ofBits packed) with
  | error fault => rfl
  | ok value => rfl

end AtomicRules
