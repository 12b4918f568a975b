import AtomicRules.Bits.Text
import AtomicRules.Trace.Sink
import AtomicRules.Trace.Writer

/-!
# Value change dumps

A value change dump is a text with a header, which declares every register in
one scope, and a time stamp for every sample with the bits of the registers
after it. A last time stamp closes it. A register is identified by its name. A
register without bits has no values to tell apart and is left out.

Every sample lists every register, whether it changed or not.
-/

namespace AtomicRules.Vcd

/-- A time stamp. -/
def stamp (cycle : Nat) : String := "#" ++ String.ofList (decimal cycle) ++ "\n"

/-- The declaration of a register. -/
def declaration (var : TracedRegister) : String :=
  "$var reg " ++ String.ofList (decimal var.width) ++ " " ++ var.name ++ " " ++ var.name
    ++ " $end\n"

/-- The header with the declarations. -/
def headerText (header : TraceHeader) (vars : List TracedRegister) : String :=
  "$version " ++ header.version ++ " $end\n" ++
  "$timescale " ++ header.timescale ++ " $end\n" ++
  "$scope module top $end\n" ++
  String.join ((vars.filter (0 < ·.width)).map declaration) ++
  "$upscope $end\n" ++
  "$enddefinitions $end\n"

/-- The value of a register. -/
def valueLine (value : TracedValue) : String := "b" ++ value.bits ++ " " ++ value.name ++ "\n"

/-- A time stamp with the values at that time. -/
def sampleText (cycle : Nat) (values : List TracedValue) : String :=
  stamp cycle ++ String.join ((values.filter (0 < ·.width)).map valueLine)

/-- The text of one call. -/
def callText : SinkCall → String
  | .start header vars => headerText header vars
  | .sample cycle values => sampleText cycle values
  | .finish cycle => stamp cycle

/-- The sink that writes the text of its calls. It hands the text of a call over in one
piece, where a dump is really written a line at a time and flushed when it is closed. What
a writer holds in the end, and whether a call fails, is the same either way: a writer takes
the first bytes that it has room for, and it keeps nothing back that could be flushed. -/
def sink : Sink Writer where
  start header vars writer := writer.write (headerText header vars)
  sample cycle values writer := writer.write (sampleText cycle values)
  finish cycle writer := writer.write (stamp cycle)

theorem sink_call (call : SinkCall) (writer : Writer) :
    sink.call call writer = writer.write (callText call) := by
  cases call <;> rfl

end AtomicRules.Vcd
