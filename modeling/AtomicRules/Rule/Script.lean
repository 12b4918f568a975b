import AtomicRules.Rule.Basic

/-!
# Scripts

A script is a rule body written as data: reads into local variables, writes of
expressions, branches, and blocks whose conflict is handled. All arithmetic is
on 256-bit vectors and wraps. A read stores the packed value of its register; a
write takes the low bits of its expression, as many as the register has, and
unpacks them.

A script only describes an action; `Script.body` builds it. Locals start empty
at every firing, and a variable that was never set is zero.

## Main results

* `Locals.get_set_self`, `Locals.get_set_of_ne` — assigning a variable changes
  that variable and no other.
-/

namespace AtomicRules

/-! ### Expressions -/

/-- The width of every expression. -/
abbrev Wide := Bits 256

/-- Values of local variables; the newest assignment stands first. -/
abbrev Locals := List (String × Wide)

namespace Locals

/-- The value of a variable, zero when it was never set. -/
def get (locals : Locals) (name : String) : Wide := (locals.lookup name).getD (Bits.zero 256)

/-- Assigns a variable. -/
def set (locals : Locals) (name : String) (value : Wide) : Locals := (name, value) :: locals

theorem get_set_self (locals : Locals) (name : String) (value : Wide) :
    (locals.set name value).get name = value := by
  simp [get, set]

theorem get_set_of_ne (locals : Locals) {name other : String} (h : other ≠ name)
    (value : Wide) : (locals.set name value).get other = locals.get other := by
  have : (other == name) = false := by simpa using h
  simp [get, set, List.lookup_cons, this]

end Locals

/-- An operation on two values. -/
inductive BinaryOp where
  | add
  | sub
  | and
  | or
  | xor
  /-- One when the values are equal, else zero. -/
  | eq
  /-- One when the first is the lower unsigned number, else zero. -/
  | lt
  deriving DecidableEq, Repr

/-- An operation on a value and a fixed number. -/
inductive CountOp where
  | lsl
  | lsr
  /-- One bit of the value. -/
  | bit
  deriving DecidableEq, Repr

/-- A 256-bit expression. -/
inductive Expr where
  | const (value : Nat)
  | var (name : String)
  | not (operand : Expr)
  | binary (op : BinaryOp) (left right : Expr)
  | count (op : CountOp) (operand : Expr) (count : Nat)
  deriving DecidableEq, Repr

/-- A truth value as zero or one. -/
def Wide.ofBool (value : Bool) : Wide := (Bits.ofBool value).resize 256

/-- What an operation on two values gives. -/
def BinaryOp.apply : BinaryOp → Wide → Wide → Wide
  | add, a, b => a + b
  | sub, a, b => a - b
  | and, a, b => a &&& b
  | or, a, b => a ||| b
  | xor, a, b => a ^^^ b
  | eq, a, b => Wide.ofBool (a == b)
  | lt, a, b => Wide.ofBool (decide (a < b))

/-- What an operation on a value and a number gives. -/
def CountOp.apply : CountOp → Wide → Nat → Wide
  | lsl, a, n => a <<< n
  | lsr, a, n => a >>> n
  | bit, a, n => Wide.ofBool (a.bit n)

/-- The value of an expression. -/
def Expr.eval (locals : Locals) : Expr → Wide
  | const value => Bits.ofNat 256 value
  | var name => locals.get name
  | not operand => ~~~(operand.eval locals)
  | binary op left right => op.apply (left.eval locals) (right.eval locals)
  | count op operand n => op.apply (operand.eval locals) n

/-! ### Scripts -/

/-- A rule body as data. Every instruction carries the rest of the script. -/
inductive Script (file : RegisterFile) where
  | finish
  | read0 (reg : file.Reg) (name : String) (rest : Script file)
  | read1 (reg : file.Reg) (name : String) (rest : Script file)
  | write0 (reg : file.Reg) (value : Expr) (rest : Script file)
  | write1 (reg : file.Reg) (value : Expr) (rest : Script file)
  | assign (name : String) (value : Expr) (rest : Script file)
  /-- The first branch when the condition is not zero. -/
  | branch (condition : Expr) (yes no rest : Script file)
  /-- When the block ends in conflict, the handler runs in its place; what the
  block did stays. -/
  | guarded (block handler rest : Script file)
  /-- Ends in a conflict of its own making. -/
  | fail (conflict : Conflict)

variable {file : RegisterFile}

/-- The value of a register as a 256-bit vector. -/
def RegisterFile.widen (file : RegisterFile) (reg : file.Reg) (value : file.Val reg) : Wide :=
  ((file.decl reg).ty.pack value).resize 256

/-- The value of a register that the low bits of a 256-bit vector stand for. -/
def RegisterFile.narrow (file : RegisterFile) (reg : file.Reg) (value : Wide) : file.Val reg :=
  (file.decl reg).ty.unpack (value.resize _)

namespace Script

/-- How a block ends: its locals, and the conflict that stopped it, if any. -/
abbrev Ending := Locals × Option Conflict

/-- Goes on with the rest of a script unless a conflict stopped the block. -/
def resume (rest : Locals → Action file Ending) : Ending → Action file Ending
  | (locals, none) => rest locals
  | stopped => .done stopped

/-- Attempts an access and ends the block when it is refused. -/
def attempt (access : Access file) (locals : Locals)
    (next : access.Answer → Action file Ending) : Action file Ending :=
  .access access fun
    | .ok answer => next answer
    | .error conflict => .done (locals, some conflict)

/-- The action of a script from given locals. -/
def action : Script file → Locals → Action file Ending
  | finish, locals => .done (locals, none)
  | read0 reg name rest, locals =>
      attempt (.read0 reg) locals fun value => rest.action (locals.set name (file.widen reg value))
  | read1 reg name rest, locals =>
      attempt (.read1 reg) locals fun value => rest.action (locals.set name (file.widen reg value))
  | write0 reg value rest, locals =>
      attempt (.write0 reg (file.narrow reg (value.eval locals))) locals fun _ =>
        rest.action locals
  | write1 reg value rest, locals =>
      attempt (.write1 reg (file.narrow reg (value.eval locals))) locals fun _ =>
        rest.action locals
  | assign name value rest, locals => rest.action (locals.set name (value.eval locals))
  | branch condition yes no rest, locals =>
      (if (condition.eval locals).toBool then yes.action locals else no.action locals).bind
        (resume rest.action)
  | guarded block handler rest, locals =>
      (block.action locals).bind fun
        | (locals, none) => rest.action locals
        | (locals, some _) => (handler.action locals).bind (resume rest.action)
  | fail conflict, locals => .done (locals, some conflict)

/-- The rule body of a script. -/
def body (script : Script file) : Action file Unit :=
  (script.action []).bind fun
    | (_, none) => .done ()
    | (_, some conflict) => .fail conflict

end Script

end AtomicRules
