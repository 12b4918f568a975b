import AtomicRules.Bits.Text
import AtomicRules.Config.Basic

/-!
# Configurations as data

A `Setting` is a value of a configuration format: null, a truth value, a number,
a text, a list or a record. Reading a configuration from a setting is strict
about types and lenient about names: fields that are not known are ignored, and
fields that may be missing take their defaults. A structure may also be given as
the list of its fields in order, from which the last ones may be left out when
they have defaults; a list that is too long is refused.

A choice among names is given by its name, or by a record with that one name and
null.

## Main results

* `RunConfig.ofSetting?_toSetting` — a configuration within 64 bits is read back
  as it was written.
-/

namespace AtomicRules

/-- A value of a configuration format. -/
inductive Setting where
  | null
  | bool (value : Bool)
  | natural (value : Nat)
  /-- A number that is not written as a natural one. -/
  | otherNumber
  | text (value : String)
  | list (items : List Setting)
  | record (fields : List (String × Setting))
  deriving Inhabited

namespace Setting

/-- A natural number of 64 bits. -/
def natural64? : Setting → Option Nat
  | natural value => if value < 2 ^ 64 then some value else none
  | _ => none

theorem natural64?_natural {value : Nat} (h : value < 2 ^ 64) :
    (natural value).natural64? = some value :=
  if_pos h

/-- A text. -/
def text? : Setting → Option String
  | text value => some value
  | _ => none

/-- Null, or something else. -/
def nullable? {α : Type} (read : Setting → Option α) : Setting → Option (Option α)
  | null => some none
  | setting => (read setting).map some

/-- A field that takes a default when it is missing. -/
def fieldOr {α : Type} (fields : List (String × Setting)) (name : String) (default : α)
    (read : Setting → Option α) : Option α :=
  match fields.lookup name with
  | some setting => read setting
  | none => some default

/-- A name out of a choice. -/
def choice? {α : Type} (choices : List (String × α)) : Setting → Option α
  | text name => choices.lookup name
  | record [(name, null)] => choices.lookup name
  | _ => none

end Setting

/-! ### Configurations -/

namespace TraceConfig

/-- Reads a trace configuration. The path is required. -/
def ofSetting? : Setting → Option TraceConfig
  | .record fields => do
      let path ← (← fields.lookup "path").text?
      let period ← Setting.fieldOr fields "period" defaultTracePeriod Setting.natural64?
      let timescale ← Setting.fieldOr fields "timescale" defaultTimescale Setting.text?
      return { path, period, timescale }
  | .list [path] => do return { path := ← path.text? }
  | .list [path, period] => do return { path := ← path.text?, period := ← period.natural64? }
  | .list [path, period, timescale] => do
      return { path := ← path.text?, period := ← period.natural64?,
               timescale := ← timescale.text? }
  | _ => none

/-- Writes a trace configuration. -/
def toSetting (config : TraceConfig) : Setting :=
  .record [("path", .text config.path), ("period", .natural config.period),
    ("timescale", .text config.timescale)]

theorem ofSetting?_toSetting (config : TraceConfig) (h : config.period < 2 ^ 64) :
    ofSetting? config.toSetting = some config := by
  have hperiod := Setting.natural64?_natural h
  simp [toSetting, ofSetting?, Setting.fieldOr, Setting.text?, List.lookup_cons, hperiod]

end TraceConfig

namespace RunConfig

/-- Reads a run configuration. -/
def ofSetting? : Setting → Option RunConfig
  | .record fields => do
      let cycles ← Setting.fieldOr fields "cycles" defaultCycles Setting.natural64?
      let trace ← Setting.fieldOr fields "trace" none (Setting.nullable? TraceConfig.ofSetting?)
      return { cycles, trace }
  | .list [] => some {}
  | .list [cycles] => do return { cycles := ← cycles.natural64? }
  | .list [cycles, trace] => do
      return { cycles := ← cycles.natural64?,
               trace := ← trace.nullable? TraceConfig.ofSetting? }
  | _ => none

/-- Writes a run configuration. -/
def toSetting (config : RunConfig) : Setting :=
  .record [("cycles", .natural config.cycles),
    ("trace", (config.trace.map TraceConfig.toSetting).getD .null)]

theorem ofSetting?_toSetting (config : RunConfig) (hcycles : config.cycles < 2 ^ 64)
    (hperiod : ∀ trace, config.trace = some trace → trace.period < 2 ^ 64) :
    ofSetting? config.toSetting = some config := by
  obtain ⟨cycles, trace⟩ := config
  have hread := Setting.natural64?_natural hcycles
  have hnull : (trace.map TraceConfig.toSetting |>.getD .null).nullable?
      TraceConfig.ofSetting? = some trace := by
    cases trace with
    | none => rfl
    | some trace =>
        have htrace := trace.ofSetting?_toSetting (hperiod trace rfl)
        exact congrArg (Option.map some) htrace
  simp only at hread hnull
  simp [toSetting, ofSetting?, Setting.fieldOr, List.lookup_cons, hread, hnull]

end RunConfig

/-! ### Choices -/

/-- The ports under their capitalised names. -/
def Port.choices : List (String × Port) :=
  [("Read0", .read0), ("Write0", .write0), ("Read1", .read1), ("Write1", .write1)]

/-- The register kinds under their names. -/
def RegisterKind.choices : List (String × RegisterKind) :=
  [("plain", .plain), ("wire", .wire), ("ehr", .ehr)]

/-- The styles under their names. -/
def Style.choices : List (String × Style) :=
  [("full", .full), ("bin", .bin), ("hex", .hex), ("dec", .dec)]

/-- The name a value has in a choice. -/
def choiceName {α : Type} [BEq α] (choices : List (String × α)) (value : α) : String :=
  ((choices.find? fun choice => choice.2 == value).map Prod.fst).getD ""

end AtomicRules
