import AtomicRules.Rule.Access

/-!
# Actions

The body of a rule is an action: a tree of accesses in which every node knows
how to go on after each possible answer, a refusal included. An action ends
with a value or with a conflict. It can look at the register file only through
its accesses, so what it does is determined by their answers.

The single accesses `read0`, `write0`, `read1` and `write1` end in conflict
when they are refused. An action that goes on after a refusal says so with
`orElse`; what it did before the refusal stays.

## Main results

* `Action.bind_done`, `Action.bind_fail`, `Action.bind_access` — what running
  one action after another means.
* `Action.bind_done_right`, `Action.bind_assoc` — actions form a monad.
-/

namespace AtomicRules

/-- A tree of accesses that ends with a value or a conflict. -/
inductive Action (file : RegisterFile) (α : Type) where
  | done (value : α)
  | fail (conflict : Conflict)
  | access (access : Access file) (next : Except Conflict access.Answer → Action file α)

namespace Action

variable {file : RegisterFile} {α β γ : Type}

/-- Goes on with another action at every end with a value. -/
def bind : Action file α → (α → Action file β) → Action file β
  | done value, next => next value
  | fail conflict, _ => fail conflict
  | access a rest, next => access a fun answer => (rest answer).bind next

/-- Goes on with another action at every end with a conflict. -/
def orElse : Action file α → (Conflict → Action file α) → Action file α
  | done value, _ => done value
  | fail conflict, handler => handler conflict
  | access a rest, handler => access a fun answer => (rest answer).orElse handler

instance : Monad (Action file) where
  pure := done
  bind := bind

@[simp] theorem bind_done (value : α) (next : α → Action file β) :
    (done value).bind next = next value := rfl

@[simp] theorem bind_fail (conflict : Conflict) (next : α → Action file β) :
    (fail conflict).bind next = fail conflict := rfl

@[simp] theorem bind_access (a : Access file)
    (rest : Except Conflict a.Answer → Action file α) (next : α → Action file β) :
    (access a rest).bind next = access a fun answer => (rest answer).bind next := rfl

theorem bind_done_right : (action : Action file α) → action.bind done = action
  | done _ => rfl
  | fail _ => rfl
  | access _ rest => congrArg _ (funext fun answer => bind_done_right (rest answer))

theorem bind_assoc (first : α → Action file β) (second : β → Action file γ) :
    (action : Action file α) →
      (action.bind first).bind second = action.bind fun value => (first value).bind second
  | done _ => rfl
  | fail _ => rfl
  | access _ rest =>
      congrArg _ (funext fun answer => bind_assoc first second (rest answer))

/-- Attempts one access and ends in conflict when it is refused. -/
def perform (a : Access file) : Action file a.Answer :=
  access a fun
    | .ok answer => done answer
    | .error conflict => fail conflict

/-- The value a register had at the start of the cycle. -/
def read0 (reg : file.Reg) : Action file (file.Val reg) := perform (.read0 reg)

/-- The value a register has now, what the running rule wrote included. -/
def read1 (reg : file.Reg) : Action file (file.Val reg) := perform (.read1 reg)

/-- Writes a register through its first write port. -/
def write0 (reg : file.Reg) (value : file.Val reg) : Action file Unit :=
  perform (.write0 reg value)

/-- Writes a register through its last port. -/
def write1 (reg : file.Reg) (value : file.Val reg) : Action file Unit :=
  perform (.write1 reg value)

end Action

end AtomicRules
