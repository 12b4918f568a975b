import AtomicRules.Design.Catalog

/-!
# The command line

    <design> [cycles] [vcd-path] [period] [--timescale <duration>]

Arguments are read from left to right. A value is held back until the next
argument that is understood, or the end, and only then checked; so an argument
that is not understood is reported even when the value before it is a bad one.
Two dashes end the options, and every argument after them is a value.

A trace needs a path, and the duration of a cycle is part of a trace, so it needs
one too.
-/

namespace AtomicRules.CommandLine

/-- Why arguments do not describe a run. -/
inductive UsageError where
  | displayHelp
  | displayVersion
  /-- A name that is no choice, a missing value or an empty path. -/
  | invalidValue
  /-- A number that cannot be read or is out of range. -/
  | valueValidation
  | unknownArgument
  /-- An option that takes no value was given one. -/
  | tooManyValues
  /-- An option that may be given once was given again. -/
  | argumentConflict
  | missingRequiredArgument
  deriving DecidableEq, Repr

namespace UsageError

/-- The name of the error. -/
def name : UsageError → String
  | displayHelp => "DisplayHelp"
  | displayVersion => "DisplayVersion"
  | invalidValue => "InvalidValue"
  | valueValidation => "ValueValidation"
  | unknownArgument => "UnknownArgument"
  | tooManyValues => "TooManyValues"
  | argumentConflict => "ArgumentConflict"
  | missingRequiredArgument => "MissingRequiredArgument"

/-- The exit code: asking for help or the version is no failure. -/
def exitCode : UsageError → Nat
  | displayHelp | displayVersion => 0
  | _ => 2

end UsageError

/-- The run that arguments describe. -/
structure Invocation where
  design : DesignName
  config : RunConfig
  deriving DecidableEq, Repr

/-! ### Numbers -/

/-- Decimal digits as a number. -/
def digits? (digits : List Char) : Option Nat :=
  if digits.isEmpty || !digits.all Char.isDigit then none
  else some (Nat.ofDigitChars 10 digits 0)

/-- A number of 64 bits, with an optional plus sign. -/
def natural64? (text : String) : Option Nat := do
  let value ← digits? (match text.toList with
    | '+' :: rest => rest
    | chars => chars)
  if value < 2 ^ 64 then some value else none

/-! ### Reading arguments -/

/-- The values that arguments fill, the positional ones in their order. -/
inductive Slot where
  | design
  | cycles
  | path
  | period
  | timescale
  deriving DecidableEq, Repr

/-- A value that is still to be checked. -/
structure Pending where
  slot : Slot
  value : Option String

/-- What was read so far. -/
structure Progress where
  design : Option DesignName := none
  cycles : Option Nat := none
  path : Option String := none
  period : Option Nat := none
  timescale : Option String := none
  /-- Number of positional arguments, the pending one included. -/
  positionals : Nat := 0
  /-- Every further argument is a value. -/
  onlyValues : Bool := false
  pending : Option Pending := none

namespace Progress

/-- Checks a value and puts it into its slot. -/
def fill (progress : Progress) (pending : Pending) : Except UsageError Progress :=
  match pending.slot, pending.value with
  | _, none => .error .invalidValue
  | .design, some name =>
      match DesignName.choices.lookup name with
      | some design => .ok { progress with design := some design }
      | none => .error .invalidValue
  | .cycles, some text =>
      match natural64? text with
      | some cycles => .ok { progress with cycles := some cycles }
      | none => .error .valueValidation
  | .path, some path =>
      if path.isEmpty then .error .invalidValue else .ok { progress with path := some path }
  | .period, some text =>
      match natural64? text with
      | some period =>
          if period = 0 then .error .valueValidation
          else .ok { progress with period := some period }
      | none => .error .valueValidation
  | .timescale, some text =>
      match progress.timescale with
      | some _ => .error .argumentConflict
      | none => .ok { progress with timescale := some text }

/-- Checks the value that is held back, if there is one. -/
def settle (progress : Progress) : Except UsageError Progress :=
  match progress.pending with
  | some pending => fill { progress with pending := none } pending
  | none => .ok progress

/-- The slots of positional arguments. -/
def slots : List Slot := [.design, .cycles, .path, .period]

/-- Takes a positional argument. -/
def positional (progress : Progress) (value : String) : Except UsageError Progress :=
  match slots[progress.positionals]? with
  | none => .error .unknownArgument
  | some slot => do
      let progress ← progress.settle
      return { progress with
        pending := some ⟨slot, some value⟩, positionals := progress.positionals + 1 }

/-- Takes an option without a value, which ends the reading. -/
def stop (progress : Progress) (reason : UsageError) : Except UsageError Progress := do
  let _ ← progress.settle
  .error reason

/-- Takes a long option, which is written with two dashes, and the value after
its equals sign. -/
def longOption (progress : Progress) (name : String) (value : Option String) :
    Except UsageError Progress :=
  match name, value with
  | "timescale", some text => do (← progress.settle).fill ⟨.timescale, some text⟩
  | "timescale", none => do
      return { (← progress.settle) with pending := some ⟨.timescale, none⟩ }
  | "help", none => progress.stop .displayHelp
  | "version", none => progress.stop .displayVersion
  | "help", some _ | "version", some _ => .error .tooManyValues
  | _, _ => .error .unknownArgument

/-- Takes a group of one-letter options, of which the first one decides. -/
def shortOptions (progress : Progress) : List Char → Except UsageError Progress
  | 'h' :: _ => progress.stop .displayHelp
  | 'V' :: _ => progress.stop .displayVersion
  | _ => .error .unknownArgument

/-- Takes an argument that does not look like an option. -/
def value (progress : Progress) (text : String) : Except UsageError Progress :=
  match progress.pending with
  | some ⟨slot, none⟩ => .ok { progress with pending := some ⟨slot, some text⟩ }
  | _ => progress.positional text

/-- Takes one argument. -/
def take (progress : Progress) (argument : String) : Except UsageError Progress :=
  if progress.onlyValues then progress.positional argument
  else
    match argument.toList with
    | ['-', '-'] => .ok { progress with onlyValues := true }
    | '-' :: '-' :: rest =>
        let name := String.ofList (rest.takeWhile (· ≠ '='))
        match rest.dropWhile (· ≠ '=') with
        | [] => progress.longOption name none
        | _ :: text => progress.longOption name (some (String.ofList text))
    | '-' :: c :: rest => progress.shortOptions (c :: rest)
    | _ => progress.value argument

/-- The run described once every argument is read. -/
def invocation (progress : Progress) : Except UsageError Invocation :=
  match progress.design, progress.path, progress.timescale with
  | none, _, _ | some _, none, some _ => .error .missingRequiredArgument
  | some design, path, timescale =>
      let trace := path.map fun path =>
        { path, period := progress.period.getD defaultTracePeriod,
          timescale := timescale.getD defaultTimescale : TraceConfig }
      .ok ⟨design, { cycles := progress.cycles.getD defaultCycles, trace }⟩

end Progress

/-- Reads the arguments of a command line. -/
def parse (arguments : List String) : Except UsageError Invocation := do
  let progress ← arguments.foldlM Progress.take {}
  (← progress.settle).invocation

end AtomicRules.CommandLine
