import AtomicRules.Proofs.PrintedNumerals
import AtomicRules.Proofs.Sampling
import AtomicRules.Proofs.SignedView

/-!
# Rendered values are unambiguous

A rendered value holds numbers, separators and quoted bytes, nested without any bound, and
nothing in the text says where a part ends. That it can be told is due to three things. A
binary number has a known number of digits. Any other number ends where the word ends, and
what follows a part is never a letter, a digit or an underscore: it is a separator, a
bracket or the end. A quoted byte is read from its own first characters, and an array has a
known number of them.

So the proofs go over the type from the outside: two texts that begin with a value each, and
go on with something that parts it from the rest, are equal only if the two values are.
Names are the same on both sides, and no part of a text holds a line break, so a dump can
be cut into its lines.

## Main results

* `readByte_escapeByte` — a byte of a quoted string is read back from the front of a text.
* `Ty.unambiguous_render`, `Fields.unambiguous_render` — values of any type in any style.
* `Ty.newline_not_mem_render`, `Fields.newline_not_mem_render` — rendering keeps to a line.
* `Simulation.splitOn_dumpText`, `Simulation.dumpText_injective` — the lines of a dump, and the
  state they are of.
* `rendering_unambiguous` — all of it, for the string form of values and for dumps.
-/

namespace AtomicRules

/-! ### Parts of a text -/

/-- Letters, digits and underscores make words. -/
def isWordChar (c : Char) : Bool := c.isAlphanum || c == '_'

/-- The text does not begin in the middle of a word. -/
def Parted (rest : List Char) : Prop := ∀ c ∈ rest.head?, isWordChar c = false

theorem parted_nil : Parted [] := nofun

theorem parted_cons {c : Char} (h : isWordChar c = false) (rest : List Char) :
    Parted (c :: rest) := by
  rintro _ ⟨⟩
  exact h

/-- Words that are parted from what follows them are equal in equal texts. -/
theorem word_eq_of_append_eq {word word' rest rest' : List Char}
    (hWord : ∀ c ∈ word, isWordChar c = true) (hWord' : ∀ c ∈ word', isWordChar c = true)
    (hRest : Parted rest) (hRest' : Parted rest') (h : word ++ rest = word' ++ rest') :
    word = word' := by
  have hNone {tail : List Char} (hTail : Parted tail) : tail.takeWhile isWordChar = [] := by
    cases tail with
    | nil => rfl
    | cons c tail => rw [List.takeWhile_cons, hTail c rfl, if_neg Bool.false_ne_true]
  -- the longest word at the front is the given one, on both sides
  have hTaken := congrArg (List.takeWhile isWordChar) h
  rwa [List.takeWhile_append_of_pos hWord, List.takeWhile_append_of_pos hWord', hNone hRest,
    hNone hRest', List.append_nil, List.append_nil] at hTaken

/-- What is written can be told from the front of a text, if it is parted from the rest. -/
structure Unambiguous {α : Type} (write : α → List Char) : Prop where
  eq_of_append_eq : ∀ {a b : α} {rest rest' : List Char}, Parted rest → Parted rest' →
    write a ++ rest = write b ++ rest' → a = b

namespace Unambiguous

variable {α β : Type} {write : α → List Char}

theorem injective (h : Unambiguous write) : Function.Injective write := by
  intro a b hText
  apply h.eq_of_append_eq parted_nil parted_nil
  rw [hText]

/-- What comes before is the same for all values. -/
theorem after (front : List Char) (h : Unambiguous write) :
    Unambiguous fun a => front ++ write a where
  eq_of_append_eq hRest hRest' hText := by
    rw [List.append_assoc, List.append_assoc] at hText
    exact h.eq_of_append_eq hRest hRest' (List.append_cancel_left hText)

/-- What comes after parts the value from the rest. -/
theorem before (h : Unambiguous write) {back : α → List Char}
    (hBack : ∀ a rest, Parted rest → Parted (back a ++ rest)) :
    Unambiguous fun a => write a ++ back a where
  eq_of_append_eq hRest hRest' hText := by
    rw [List.append_assoc, List.append_assoc] at hText
    exact h.eq_of_append_eq (hBack _ _ hRest) (hBack _ _ hRest') hText

/-- A value that is determined by another one is told from the text of the other one. -/
theorem comp (h : Unambiguous write) {f : β → α} (hf : Function.Injective f) :
    Unambiguous fun b => write (f b) where
  eq_of_append_eq hRest hRest' hText := hf (h.eq_of_append_eq hRest hRest' hText)

end Unambiguous

/-! ### Numbers -/

theorem Literal.Spells.isWordChar {radix n : Nat} {text : List Char}
    (h : Literal.Spells radix text n) (hRadix : radix ≤ 16) :
    ∀ c ∈ text, isWordChar c = true := by
  induction h with
  | nil => simp
  | @digit front n digit _ hDigit ih =>
      have hAll : ∀ d : Fin 16, AtomicRules.isWordChar (d : Nat).digitChar = true := by decide
      rw [List.forall_mem_append, List.forall_mem_singleton]
      exact ⟨ih, hAll ⟨digit, Nat.lt_of_lt_of_le hDigit hRadix⟩⟩

/-- The digits of a number are those of no other. -/
theorem unambiguous_toDigits {radix : Nat} (hOne : 1 < radix) (hRadix : radix ≤ 16) :
    Unambiguous (Nat.toDigits radix) where
  eq_of_append_eq {a b} _ _ hRest hRest' hText := by
    have ha := Literal.spells_toDigits hOne a
    have hb := Literal.spells_toDigits hOne b
    have hDigits := word_eq_of_append_eq (ha.isWordChar hRadix) (hb.isWordChar hRadix) hRest
      hRest' hText
    rw [hDigits] at ha
    exact (ha.value_eq hRadix).symm.trans (hb.value_eq hRadix)

namespace Bits

variable {w : Nat}

theorem toNat_injective : Function.Injective (toNat : Bits w → Nat) := fun _ _ => ext_toNat

/-- Binary digits need nothing that parts them: there are as many as bits. -/
theorem binDigits_eq_of_append_eq {a b : Bits w} {rest rest' : List Char}
    (h : a.binDigits ++ rest = b.binDigits ++ rest') : a = b := by
  have hLength : a.binDigits.length = b.binDigits.length := by
    rw [length_binDigits, length_binDigits]
  exact binDigits_inj (List.append_inj h hLength).1

theorem ofBool_injective : Function.Injective ofBool := by
  intro a b h
  have hNumber := congrArg toNat h
  rw [toNat_ofBool, toNat_ofBool] at hNumber
  exact Function.LeftInverse.injective Bool.ofNat_toNat hNumber

theorem unambiguous_hexDigits : Unambiguous (hexDigits : Bits w → List Char) :=
  (unambiguous_toDigits (by decide) (by decide)).comp toNat_injective

theorem unambiguous_decDigits : Unambiguous (decDigits : Bits w → List Char) :=
  (unambiguous_toDigits (by decide) (by decide)).comp toNat_injective

/-- The text of a vector in any style. -/
theorem unambiguous_text (style : Style) : Unambiguous (text style : Bits w → List Char) := by
  cases style with
  | bin =>
      constructor
      intro a b rest rest' _ _ hText
      simp only [text, List.append_assoc, List.append_cancel_left_eq] at hText
      exact binDigits_eq_of_append_eq hText
  | hex => exact unambiguous_hexDigits.after _
  | dec => exact unambiguous_decDigits.after _
  | full =>
      by_cases hw : w ≤ 64
      · constructor
        intro a b rest rest' _ _ hText
        simp only [text, if_pos hw, List.append_assoc, List.append_cancel_left_eq] at hText
        exact binDigits_eq_of_append_eq hText
      · have hHex : (text .full : Bits w → List Char) = text .hex := by
          funext a
          exact if_neg hw
        rw [hHex]
        exact unambiguous_hexDigits.after _

end Bits

/-! ### Quoted bytes -/

/-- The byte at the front of the inside of a quoted string. -/
def readByte : List Char → UInt8
  | '\\' :: 'x' :: high :: low :: _ =>
      UInt8.ofNat ((Literal.faceValue? high.toUInt8).getD 0 * 16 +
        (Literal.faceValue? low.toUInt8).getD 0)
  | '\\' :: c :: _ => c.toUInt8
  | c :: _ => c.toUInt8
  | [] => 0

theorem readByte_hexPair (byte : UInt8) (rest : List Char) :
    readByte ('\\' :: 'x' :: hexPair byte ++ rest) = byte := by
  have hByte := byte.toNat_lt
  have hHigh : byte.toNat / 16 < 16 := by omega
  have hLow : byte.toNat % 16 < 16 := by omega
  rw [hexPair]
  simp only [List.cons_append, List.nil_append, readByte, Literal.faceValue?_digitChar hHigh,
    Literal.faceValue?_digitChar hLow, Option.getD_some]
  rw [Nat.div_add_mod', UInt8.ofNat_toNat]

theorem readByte_graphic {byte : UInt8} (hBackslash : byte ≠ 92) (rest : List Char) :
    readByte (Char.ofNat byte.toNat :: rest) = byte := by
  have hAll : ∀ n : Fin 256, (Char.ofNat n).toUInt8 = UInt8.ofNat n := by decide +kernel
  have hByte : (Char.ofNat byte.toNat).toUInt8 = byte :=
    (hAll ⟨byte.toNat, byte.toNat_lt⟩).trans UInt8.ofNat_toNat
  have hOther : Char.ofNat byte.toNat ≠ '\\' := by
    intro hChar
    rw [hChar] at hByte
    exact hBackslash hByte.symm
  simp [readByte, hByte, hOther]

theorem readByte_escapeByte (byte : UInt8) (rest : List Char) :
    readByte (escapeByte byte ++ rest) = byte := by
  unfold escapeByte
  split
  · next hMarked => rcases hMarked with rfl | rfl <;> rfl
  · next hOther =>
      split
      · exact readByte_graphic (fun h => hOther (.inr h)) rest
      · exact readByte_hexPair byte rest

/-- Bytes of a known number are read back one after the other. -/
theorem bytes_eq_of_append_eq {bytes bytes' : List UInt8} {rest rest' : List Char}
    (hLength : bytes.length = bytes'.length)
    (h : bytes.flatMap escapeByte ++ rest = bytes'.flatMap escapeByte ++ rest') :
    bytes = bytes' := by
  induction bytes generalizing bytes' with
  | nil => exact (List.length_eq_zero_iff.mp hLength.symm).symm
  | cons byte bytes ih =>
      cases bytes' with
      | nil => cases hLength
      | cons byte' bytes' =>
          rw [List.flatMap_cons, List.flatMap_cons, List.append_assoc, List.append_assoc] at h
          have hFirst := congrArg readByte h
          rw [readByte_escapeByte, readByte_escapeByte] at hFirst
          subst hFirst
          rw [ih (Nat.succ.inj hLength) (List.append_cancel_left h)]

theorem Bits.lowByte_injective : Function.Injective (lowByte : Bits 8 → UInt8) := by
  have hNumber (a : Bits 8) : a.lowByte.toNat = a.toNat := by
    have hByte := a.toNat_lt
    rw [lowByte, low64, low128_eq (by decide), UInt8.toNat_ofNat']
    omega
  intro a b h
  apply ext_toNat
  rw [← hNumber, ← hNumber, h]

/-- A type with the width of a byte gives different bytes for different values. -/
theorem Ty.byte?_injective {ty : Ty} {byte : ty.Val → UInt8} (h : ty.byte? = some byte) :
    Function.Injective byte := by
  cases ty with
  | bool => cases h
  | array elem size => cases h
  | struct name fields => cases h
  | bits w =>
      rw [Ty.byte?] at h
      split at h
      · next hw =>
          subst hw
          cases h
          exact Bits.lowByte_injective
      · cases h

/-! ### Arrays and structs -/

/-- Elements of a known number are told one after the other: a separator parts each of them
from the next. -/
theorem Unambiguous.elements_eq {α : Type} {write : α → List Char} (h : Unambiguous write)
    {items items' : List α} {rest rest' : List Char} (hLength : items.length = items'.length)
    (hRest : Parted rest) (hRest' : Parted rest')
    (hText : separated "; ".toList (items.map write) ++ rest =
      separated "; ".toList (items'.map write) ++ rest') : items = items' := by
  induction items generalizing items' with
  | nil => exact (List.length_eq_zero_iff.mp hLength.symm).symm
  | cons item items ih =>
      cases items' with
      | nil => cases hLength
      | cons item' items' =>
          cases items with
          | nil =>
              obtain rfl := List.length_eq_zero_iff.mp (Nat.succ.inj hLength).symm
              rw [h.eq_of_append_eq hRest hRest' hText]
          | cons next items =>
              cases items' with
              | nil => cases hLength
              | cons next' items' =>
                  have hSep (tail : List Char) : Parted ("; ".toList ++ tail) :=
                    parted_cons rfl _
                  simp only [List.map_cons, separated, List.append_assoc] at hText
                  obtain rfl := h.eq_of_append_eq (hSep _) (hSep _) hText
                  rw [ih (Nat.succ.inj hLength)
                    (List.append_cancel_left (List.append_cancel_left hText))]

theorem Ty.unambiguous_array {elem : Ty} {options : RenderOptions}
    (h : Unambiguous (elem.render options.inArray)) (size : Nat) :
    Unambiguous ((Ty.array elem size).render options) where
  eq_of_append_eq {a b rest rest'} hRest hRest' hText := by
    have hLength : (show Vector elem.Val size from a).toList.length
        = (show Vector elem.Val size from b).toList.length :=
      Vector.length_toList.trans Vector.length_toList.symm
    apply Vector.toList_inj.mp
    -- the bracket parts the last element from what follows
    have hList (tail : List Char) : Parted (']' :: tail) := parted_cons rfl _
    cases hByte : elem.byte? with
    | none =>
        simp only [Ty.render, hByte, List.cons_append, List.append_assoc, List.cons.injEq,
          true_and] at hText
        exact h.elements_eq hLength (hList _) (hList _) hText
    | some byte =>
        cases hStrings : options.strings with
        | false =>
            simp only [Ty.render, hByte, hStrings, List.cons_append, List.append_assoc,
              List.cons.injEq, true_and] at hText
            exact h.elements_eq hLength (hList _) (hList _) hText
        | true =>
            simp only [Ty.render, hByte, hStrings, quoteBytes, List.cons_append,
              List.append_assoc, List.cons.injEq, true_and] at hText
            have hBytes := bytes_eq_of_append_eq (by simpa using hLength) hText
            exact List.map_injective_iff.mpr (Ty.byte?_injective hByte) hBytes

/-- What follows a field is the separator of the next one, or what follows the struct. -/
theorem Fields.parted_render (fields : Fields) (options : RenderOptions) (values : fields.Vals)
    {rest : List Char} (hRest : Parted rest) :
    Parted (fields.render options "; ".toList values ++ rest) := by
  cases fields with
  | nil => exact hRest
  | cons name ty others =>
      rw [Fields.render, List.append_assoc, List.append_assoc, List.append_assoc,
        List.append_assoc]
      exact parted_cons rfl _

mutual

/-- Different values of a type are written differently, in any style and at any depth. -/
theorem Ty.unambiguous_render : (ty : Ty) → (options : RenderOptions) →
    Unambiguous (ty.render options)
  | .bool, options => (Bits.unambiguous_text options.style).comp Bits.ofBool_injective
  | .bits _, options => Bits.unambiguous_text options.style
  | .array elem size, options => Ty.unambiguous_array (elem.unambiguous_render options.inArray) size
  | .struct _ fields, options =>
      ((fields.unambiguous_render options " ".toList).before fun _ _ _ =>
        parted_cons rfl _).after ['\x7b']

/-- So are different values of the fields of a struct. -/
theorem Fields.unambiguous_render : (fields : Fields) → (options : RenderOptions) →
    (separator : List Char) → Unambiguous (fields.render options separator)
  | .nil, _, _ => ⟨fun _ _ _ => rfl⟩
  | .cons name ty rest, options, separator => ⟨fun {a b tail tail'} hTail hTail' hText => by
      simp only [Fields.render, List.append_assoc, List.append_cancel_left_eq] at hText
      have hFirst : a.1 = b.1 := (ty.unambiguous_render options).eq_of_append_eq
        (rest.parted_render options a.2 hTail) (rest.parted_render options b.2 hTail') hText
      -- now both texts go on from the same place
      rw [hFirst] at hText
      have hOthers : a.2 = b.2 := (rest.unambiguous_render options "; ".toList).eq_of_append_eq
        hTail hTail' (List.append_cancel_left hText)
      exact Prod.ext hFirst hOthers⟩

end

/-- The string form is unambiguous, too. -/
theorem Ty.repr_injective (ty : Ty) (options : RenderOptions) :
    Function.Injective (ty.repr options) := by
  intro a b h
  apply (ty.unambiguous_render options).injective
  rw [← Ty.toList_repr, ← Ty.toList_repr, h]

/-! ### One line -/

/-- No digit is a line break. -/
theorem newline_not_mem_toDigits {radix : Nat} (hOne : 1 < radix) (hRadix : radix ≤ 16)
    (n : Nat) : '\n' ∉ Nat.toDigits radix n := by
  intro h
  have hWord := (Literal.spells_toDigits hOne n).isWordChar hRadix _ h
  exact absurd hWord (by decide)

theorem Bits.newline_not_mem_text {w : Nat} (style : Style) (a : Bits w) :
    '\n' ∉ a.text style := by
  have hBin : '\n' ∉ a.binDigits := by
    intro h
    rcases eq_of_mem_binDigits h with h | h <;> cases h
  have hHex : '\n' ∉ a.hexDigits := newline_not_mem_toDigits (by decide) (by decide) _
  have hDec : '\n' ∉ a.decDigits := newline_not_mem_toDigits (by decide) (by decide) _
  have hWidth : '\n' ∉ decimal w := newline_not_mem_toDigits (by decide) (by decide) _
  cases style with
  | bin => simp [text, hWidth, hBin]
  | hex => simp [text, hWidth, hHex]
  | dec => simp [text, hWidth, hDec]
  | full =>
      rw [text]
      split
      · simp [hWidth, hBin, hHex, hDec]
      · simp [hWidth, hHex]

theorem newline_not_mem_escapeByte (byte : UInt8) : '\n' ∉ escapeByte byte := by
  have hAll : ∀ n : Fin 256, '\n' ∉ escapeByte (UInt8.ofNat n) := by decide +kernel
  have hByte := hAll ⟨byte.toNat, byte.toNat_lt⟩
  rwa [UInt8.ofNat_toNat] at hByte

theorem newline_not_mem_quoteBytes (bytes : List UInt8) : '\n' ∉ quoteBytes bytes := by
  simp [quoteBytes, newline_not_mem_escapeByte]

theorem newline_not_mem_separated {separator : List Char} (hSeparator : '\n' ∉ separator)
    {items : List (List Char)} (h : ∀ item ∈ items, '\n' ∉ item) :
    '\n' ∉ separated separator items := by
  induction items with
  | nil => simp [separated]
  | cons item items ih =>
      obtain ⟨hItem, hItems⟩ := List.forall_mem_cons.mp h
      cases items with
      | nil => exact hItem
      | cons next items => simp [separated, hItem, hSeparator, ih hItems]

mutual

/-- A rendered value keeps to its line. -/
theorem Ty.newline_not_mem_render : (ty : Ty) → (options : RenderOptions) → (value : ty.Val) →
    '\n' ∉ ty.render options value
  | .bool, options, value => Bits.newline_not_mem_text options.style _
  | .bits _, options, value => Bits.newline_not_mem_text options.style _
  | .array elem size, options, values => by
      have hItems : '\n' ∉ separated "; ".toList ((show Vector elem.Val size from values).toList.map
          fun item => elem.render options.inArray item) := by
        apply newline_not_mem_separated (by decide)
        intro item hItem
        obtain ⟨value, -, rfl⟩ := List.mem_map.mp hItem
        exact elem.newline_not_mem_render options.inArray value
      rw [Ty.render]
      split
      · exact newline_not_mem_quoteBytes _
      · simpa using hItems
  | .struct _ fields, options, values => by
      have hFields := fields.newline_not_mem_render options (by decide : '\n' ∉ " ".toList) values
      simpa [Ty.render] using hFields

/-- So do the fields of a struct. -/
theorem Fields.newline_not_mem_render : (fields : Fields) → (options : RenderOptions) →
    {separator : List Char} → '\n' ∉ separator → (values : fields.Vals) →
    '\n' ∉ fields.render options separator values
  | .nil, _, _, _, _ => List.not_mem_nil
  | .cons name ty rest, options, separator, hSeparator, values => by
      have hFirst := ty.newline_not_mem_render options values.1
      have hOthers := rest.newline_not_mem_render options (by decide : '\n' ∉ "; ".toList) values.2
      simpa [Fields.render, hSeparator, name.newline_not_mem, hFirst] using hOthers

end

/-! ### Dumps -/

section Dumps

variable {file : RegisterFile}

/-- What a dump says of a register, without the end of its line. -/
def lineOf (state : State file) (reg : file.Reg) : String :=
  (file.nameOf reg).text ++ " = " ++ (file.decl reg).ty.repr {} (state.get reg)

theorem newline_not_mem_lineOf (state : State file) (reg : file.Reg) :
    '\n' ∉ (lineOf state reg).toList := by
  have hName : '\n' ∉ (file.nameOf reg).text.toList := (file.nameOf reg).newline_not_mem
  have hValue : '\n' ∉ ((file.decl reg).ty.repr {} (state.get reg)).toList := by
    rw [Ty.toList_repr]
    exact (file.decl reg).ty.newline_not_mem_render {} _
  rw [lineOf, String.toList_append, String.toList_append, List.mem_append, List.mem_append]
  exact not_or.mpr ⟨not_or.mpr ⟨hName, by decide⟩, hValue⟩

/-- Ended by line breaks, lines without line breaks can be cut again. -/
theorem splitOn_flatMap_lines {lines : List (List Char)} (h : ∀ line ∈ lines, '\n' ∉ line) :
    (lines.flatMap fun line => line ++ ['\n']).splitOn '\n' = lines ++ [[]] := by
  induction lines with
  | nil => rfl
  | cons line lines ih =>
      obtain ⟨hLine, hLines⟩ := List.forall_mem_cons.mp h
      rw [List.flatMap_cons, List.append_assoc, List.singleton_append,
        List.splitOn_append_cons_self_of_not_mem hLine, ih hLines, List.cons_append]

namespace Simulation

/-- The text of a dump. -/
def dumpText (state : State file) : String := String.join (dumpLines state)

theorem splitOn_dumpText (state : State file) :
    (dumpText state).toList.splitOn '\n' =
      (file.regs.map fun reg => (lineOf state reg).toList) ++ [[]] := by
  have hLines : ∀ line ∈ file.regs.map fun reg => (lineOf state reg).toList, '\n' ∉ line := by
    intro line hLine
    obtain ⟨reg, -, rfl⟩ := List.mem_map.mp hLine
    exact newline_not_mem_lineOf state reg
  have hText : (dumpText state).toList =
      (file.regs.map fun reg => (lineOf state reg).toList).flatMap fun line => line ++ ['\n'] := by
    rw [dumpText, dumpLines, Row.toList_eq_map, String.toList_join, List.flatMap_map,
      List.flatMap_map]
    apply List.flatMap_congr
    intro reg _
    exact String.toList_append
  rw [hText, splitOn_flatMap_lines hLines]

theorem writeAll_unbounded (texts : List String) (held : ByteArray) :
    writeAll texts ⟨held, none⟩ = (.ok (), ⟨held ++ (String.join texts).toUTF8, none⟩) := by
  induction texts generalizing held with
  | nil =>
      have hNothing : held ++ "".toUTF8 = held := ByteArray.append_empty
      rw [String.join_nil, hNothing, writeAll]
  | cons text rest ih =>
      rw [writeAll, Writer.write_of_unbounded rfl, String.join_cons]
      simp only [ih, ByteArray.append_assoc]
      rw [String.toUTF8, String.toUTF8, String.toUTF8, String.toByteArray_append]

/-- Different states have different dumps. -/
theorem dumpText_injective : Function.Injective (dumpText : State file → String) := by
  intro a b h
  have hLines := congrArg (fun text => text.toList.splitOn '\n') h
  simp only [splitOn_dumpText, List.append_cancel_right_eq] at hLines
  apply Row.ext_get
  intro reg
  have hLine := List.map_inj_left.mp hLines reg (List.mem_finRange reg)
  have hText := String.toList_injective hLine
  rw [lineOf, lineOf, String.append_right_inj] at hText
  exact (file.decl reg).ty.repr_injective {} hText

theorem dump_unbounded (sim : Simulation file) (held : ByteArray) :
    sim.dump ⟨held, none⟩ = (.ok (), ⟨held ++ (dumpText sim.state).toUTF8, none⟩) := by
  rw [dump, writeAll_unbounded]
  rfl

end Simulation

end Dumps

/-- Different values of a type, whatever its nesting, are written as different texts in every
style, with strings and without, and no such text holds a line break. A dump of a simulation
is one line for every register, in declaration order, with the name and the value of the
register, and simulations of one register file have the same dump exactly when their states
are the same. -/
theorem rendering_unambiguous :
    (∀ (ty : Ty) (options : RenderOptions), Function.Injective (ty.repr options) ∧
        ∀ value, '\n' ∉ (ty.repr options value).toList) ∧
      ∀ (file : RegisterFile) (held : ByteArray) (sim : Simulation file),
        (∃ text : String,
          sim.dump ⟨held, none⟩ = (.ok (), ⟨held ++ text.toUTF8, none⟩) ∧
            text.toList.splitOn '\n' =
              (file.regs.map fun reg => ((file.nameOf reg).text ++ " = " ++
                (file.decl reg).ty.repr {} (sim.state.get reg)).toList) ++ [[]]) ∧
          ∀ other : Simulation file,
            (sim.dump ⟨held, none⟩).2.written = (other.dump ⟨held, none⟩).2.written ↔
              sim.state = other.state := by
  refine ⟨fun ty options => ⟨ty.repr_injective options, fun value => ?_⟩,
    fun file held sim => ⟨⟨Simulation.dumpText sim.state, ?_, ?_⟩, fun other => ?_⟩⟩
  · rw [Ty.toList_repr]
    exact ty.newline_not_mem_render options value
  · exact sim.dump_unbounded held
  · exact Simulation.splitOn_dumpText sim.state
  · rw [sim.dump_unbounded, other.dump_unbounded, ByteArray.append_right_inj]
    constructor
    · intro h
      exact Simulation.dumpText_injective (String.toByteArray_inj.mp h)
    · intro h
      rw [h]

end AtomicRules
