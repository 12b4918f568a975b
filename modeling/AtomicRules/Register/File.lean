import AtomicRules.Packed.Codec
import AtomicRules.Packed.Render
import AtomicRules.Register.Port

/-!
# Register files

A register file is the list of registers of a design. A register is named by
its place in the list, and a `Row` holds one thing for each register, of a type
that depends on the register. Rows are nested pairs, so a row over a known file
is definitionally the tuple of its entries.

## Main results

* `Row.ext_get` — rows are equal when they agree at every register.
* `Row.get_set_self`, `Row.get_set_of_ne` — setting one entry changes that
  entry and no other.
* `Row.get_ofEach` — a row built register by register.
-/

namespace AtomicRules

/-- One register of a design. -/
structure Register where
  name : Ident
  kind : RegisterKind
  ty : Ty
  initial : ty.Val

/-- The registers of a design in declaration order. -/
abbrev RegisterFile := List Register

/-- A register of a file, by its place. -/
abbrev RegisterFile.Reg (file : RegisterFile) := Fin file.length

/-- The declaration of a register. -/
abbrev RegisterFile.decl (file : RegisterFile) (reg : file.Reg) : Register := file.get reg

/-- The values a register can hold. -/
abbrev RegisterFile.Val (file : RegisterFile) (reg : file.Reg) : Type := (file.decl reg).ty.Val

/-- The name of a register. -/
def RegisterFile.nameOf (file : RegisterFile) (reg : file.Reg) : Ident := (file.decl reg).name

/-- The kind of a register. -/
def RegisterFile.kindOf (file : RegisterFile) (reg : file.Reg) : RegisterKind :=
  (file.decl reg).kind

/-- Every register, in declaration order. -/
def RegisterFile.regs (file : RegisterFile) : List file.Reg := List.finRange file.length

/-- The register of a given name. -/
def RegisterFile.find? (file : RegisterFile) (name : String) : Option file.Reg :=
  file.regs.find? fun reg => (file.nameOf reg).text == name

/-! ### Rows -/

/-- One entry for every register. -/
def Row (α : Register → Type) : RegisterFile → Type
  | [] => Unit
  | register :: rest => α register × Row α rest

namespace Row

variable {α β : Register → Type}

/-- The row whose entry at each register is a function of the register. -/
def ofEach (f : (register : Register) → α register) : (file : RegisterFile) → Row α file
  | [] => ()
  | register :: rest => (f register, ofEach f rest)

/-- The entry at a register. -/
def get : {file : RegisterFile} → Row α file → (reg : file.Reg) → α (file.decl reg)
  | _ :: _, row, ⟨0, _⟩ => row.1
  | _ :: _, row, ⟨place + 1, h⟩ => get row.2 ⟨place, Nat.lt_of_succ_lt_succ h⟩

/-- The row with the entry at a register replaced. -/
def set : {file : RegisterFile} → Row α file → (reg : file.Reg) → α (file.decl reg) → Row α file
  | _ :: _, row, ⟨0, _⟩, entry => (entry, row.2)
  | _ :: _, row, ⟨place + 1, h⟩, entry =>
      (row.1, set row.2 ⟨place, Nat.lt_of_succ_lt_succ h⟩ entry)

/-- Every register with its entry, in declaration order. -/
def toList {γ : Type} (f : (register : Register) → α register → γ) :
    {file : RegisterFile} → Row α file → List γ
  | [], _ => []
  | register :: _, row => f register row.1 :: toList f row.2

/-- Rows are compared entry by entry. -/
def decEq [∀ register, DecidableEq (α register)] : (file : RegisterFile) →
    DecidableEq (Row α file)
  | [] => inferInstanceAs (DecidableEq Unit)
  | register :: rest =>
      have := decEq rest
      inferInstanceAs (DecidableEq (α register × Row α rest))

instance [∀ register, DecidableEq (α register)] (file : RegisterFile) :
    DecidableEq (Row α file) := decEq file

theorem ext_get : {file : RegisterFile} → {a b : Row α file} →
    (∀ reg, a.get reg = b.get reg) → a = b
  | [], _, _, _ => rfl
  | _ :: _, _, _, h =>
      Prod.ext (h ⟨0, Nat.succ_pos _⟩)
        (ext_get fun reg => h ⟨reg.val + 1, Nat.succ_lt_succ reg.isLt⟩)

@[simp] theorem get_set_self : {file : RegisterFile} → (row : Row α file) → (reg : file.Reg) →
    (entry : α (file.decl reg)) → (row.set reg entry).get reg = entry
  | _ :: _, _, ⟨0, _⟩, _ => rfl
  | _ :: _, row, ⟨_ + 1, _⟩, entry => get_set_self row.2 _ entry

theorem get_set_of_ne : {file : RegisterFile} → (row : Row α file) → {reg other : file.Reg} →
    other ≠ reg → (entry : α (file.decl reg)) → (row.set reg entry).get other = row.get other
  | _ :: _, _, ⟨0, _⟩, ⟨0, _⟩, h, _ => absurd rfl h
  | _ :: _, _, ⟨0, _⟩, ⟨_ + 1, _⟩, _, _ => rfl
  | _ :: _, _, ⟨_ + 1, _⟩, ⟨0, _⟩, _, _ => rfl
  | _ :: _, row, ⟨_ + 1, _⟩, ⟨_ + 1, _⟩, h, entry =>
      get_set_of_ne row.2 (fun e => h (Fin.ext (congrArg Nat.succ (Fin.mk.inj e)))) entry

@[simp] theorem get_ofEach (f : (register : Register) → α register) :
    {file : RegisterFile} → (reg : file.Reg) → (ofEach f file).get reg = f (file.decl reg)
  | _ :: _, ⟨0, _⟩ => rfl
  | _ :: _, ⟨_ + 1, h⟩ => get_ofEach f ⟨_, Nat.lt_of_succ_lt_succ h⟩

end Row

end AtomicRules
