import Fabric.Config.Settings
import Fabric.Control.Slots
import Fabric.Diagnostic.Sink
import Fabric.Json.Codec

/-!
# Reports on simple values

A report is JSON for another program to read. It spells values by their words and names,
unlike the serial form, from which a value can be read back. A word of 64 bits is reported in
hexadecimal.
-/

namespace Fabric.Report

open Json (ofFields)

/-- A word of 64 bits. -/
def word (n : Nat) : Json := toJson (Numeral.hexWord n)

/-- A routing node, by the parts of its handle. -/
def node (n : Node) : Json := toJson [n.kind, n.x, n.y, n.z]

/-- A control signal. -/
def signal (s : ControlSignal) : Json :=
  ofFields [("net", toJson (s.net.map NetId.index)), ("inv", toJson s.inverted)]

/-- A value for each category of control signal. -/
def byKind (f : ControlKind → Json) : Json := ofFields (ControlKind.all.map fun k => (k.name, f k))

/-- The signals on shared wires. -/
def slots (s : ControlSlots) : Json :=
  byKind fun k => toJson ((s.slots k).map fun slot => (slot.map signal))

/-- A pin style. -/
def style (s : PinStyle) : Json :=
  ofFields [("bits", toJson s.bits), ("tie_low", toJson s.tieLow), ("tie_high", toJson s.tieHigh),
    ("invert", toJson s.invert), ("default", toJson s.unused),
    ("global_clock", toJson s.globalClock)]

/-- An I/O attribute: the kind of its value, and the value as text. -/
def ioAttribute (a : AttrValue) : Json :=
  let kind := match a with
    | .int _ => "int"
    | .bool _ => "bool"
    | .text _ => "str"
  toJson [kind, a.display]

/-- A diagnostic. -/
def diagnostic (d : Diagnostic) : Json :=
  ofFields [("severity", toJson d.severity.name), ("code", toJson d.code.text),
    ("message", toJson d.message), ("subject", toJson d.subject), ("notes", toJson d.notes),
    ("help", toJson d.help)]

/-- The counts of a sink. -/
def sink (s : Sink) : Json :=
  ofFields (Severity.all.map (fun severity => (severity.name, toJson (s.count severity)))
    ++ [("has_errors", toJson s.hasErrors), ("summary", toJson s.summary?),
      ("verbose", toJson s.verbose), ("text", toJson s.describe)])

end Fabric.Report
