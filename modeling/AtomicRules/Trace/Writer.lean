import AtomicRules.Trace.Failure

/-!
# Writers

A writer takes bytes. A bounded one has room for a number of them; when it is
offered more it takes what it has room for and fails, and from then on it takes
nothing.

## Main results

* `Writer.write_of_unbounded` — a writer without a bound takes every text.
* `Writer.write_of_le` — a bounded writer takes a text that it has room for.
-/

namespace AtomicRules

/-- The bytes written so far, and the room that is left when it is bounded. -/
structure Writer where
  written : ByteArray := ByteArray.empty
  room : Option Nat := none

namespace Writer

/-- A writer without a bound. -/
def unbounded : Writer := {}

/-- A writer that takes `limit` bytes. -/
def bounded (limit : Nat) : Writer := { room := some limit }

/-- Takes the bytes of a text, as far as there is room. -/
def write (writer : Writer) (text : String) : Except DeviceError Unit × Writer :=
  let bytes := text.toUTF8
  match writer.room with
  | none => (.ok (), { writer with written := writer.written ++ bytes })
  | some room =>
      if bytes.size ≤ room then
        (.ok (), ⟨writer.written ++ bytes, some (room - bytes.size)⟩)
      else (.error .other, ⟨writer.written ++ bytes.extract 0 room, some 0⟩)

theorem write_of_unbounded {writer : Writer} (h : writer.room = none) (text : String) :
    writer.write text = (.ok (), { writer with written := writer.written ++ text.toUTF8 }) := by
  unfold write
  rw [h]

theorem write_of_le {writer : Writer} {room : Nat} (h : writer.room = some room) {text : String}
    (hle : text.toUTF8.size ≤ room) :
    writer.write text =
      (.ok (), ⟨writer.written ++ text.toUTF8, some (room - text.toUTF8.size)⟩) := by
  simp only [write, h]
  exact if_pos hle

end Writer

end AtomicRules
