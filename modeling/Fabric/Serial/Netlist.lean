import Fabric.Json.Codec
import Fabric.Netlist.Cell

/-!
# Serial form of netlist data

The place of a cell or net is written as a number of 32 bits, and the direction of a port and
the state of a pin as a tag. A parameter is written as an object whose only member is tagged
with its kind; a number has 64 bits.
-/

namespace Fabric

open Json (alternative? ofFields word?)

/-! ### Cells and nets -/

instance : ToJson CellId := ⟨fun c => toJson c.index⟩

instance : FromJson CellId := ⟨fun j => (j.word? 32).map CellId.mk, none⟩

instance : ToJson NetId := ⟨fun n => toJson n.index⟩

instance : FromJson NetId := ⟨fun j => (j.word? 32).map NetId.mk, none⟩

/-! ### Directions -/

/-- The tag of a direction. -/
def PortDir.tag : PortDir → String
  | .input => "In"
  | .output => "Out"
  | .inout => "InOut"

instance : ToJson PortDir := ⟨fun d => toJson d.tag⟩

instance : FromJson PortDir := ⟨alternative? PortDir.all PortDir.tag, none⟩

/-! ### Parameters -/

instance : ToJson Property where
  toJson
    | .int value => ofFields [("Int", toJson value)]
    | .text value => ofFields [("Str", toJson value)]

instance : FromJson Property where
  ofJson? j := do
    match ← j.tagged? with
    | ("Int", value) => return .int (← value.word? 64)
    | ("Str", value) => return .text (← value.text?)
    | _ => none

/-! ### Pin states -/

/-- The tag of a pin state. -/
def PinState.tag : PinState → String
  | .signal => "Signal"
  | .inverted => "Inverted"
  | .tied0 => "Tied0"
  | .tied1 => "Tied1"

instance : ToJson PinState := ⟨fun s => toJson s.tag⟩

instance : FromJson PinState := ⟨alternative? PinState.all PinState.tag, none⟩

end Fabric
