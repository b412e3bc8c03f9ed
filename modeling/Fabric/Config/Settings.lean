import Fabric.Chip.Basic
import Fabric.Table

/-!
# Settings

What a user can configure: the device to model, whether to keep debug records, and a side
table of attributes for the I/O ports of the design.

The device is either a named part or a synthetic grid, and exactly one of the two has to be
given. `Settings.check` says which mistake is reported when there are several.
-/

namespace Fabric

/-- The value of an attribute in the I/O side table. -/
inductive AttrValue where
  | int (value : Int)
  | bool (value : Bool)
  | text (value : String)
  deriving DecidableEq, Inhabited, Repr

/-- The value as text. -/
def AttrValue.display : AttrValue → String
  | .int value => toString value
  | .bool value => toString value
  | .text value => value

/-- The attributes of each port, by port name and attribute name. -/
abbrev IoTable := Table String (Table String AttrValue)

/-- The attributes of each port, in the order of the port names. -/
def IoTable.sorted (t : IoTable) : IoTable := t.mergeSort fun a b => a.1 ≤ b.1

/-- What a user can configure. -/
structure Settings where
  part : Option String := none
  grid : Option (Nat × Nat) := none
  debug : Bool := false
  io : IoTable := []
  deriving Inhabited, Repr

/-- Why settings cannot be used. -/
inductive SettingsError where
  /-- The text is not well-formed, or a value has the wrong type. -/
  | malformed
  /-- Neither a part nor a grid is given. -/
  | noDevice
  /-- Both a part and a grid are given. -/
  | conflictingDevice
  /-- No chip has a grid of that size. -/
  | gridOutOfRange (width height : Nat)
  /-- A port has an empty name. -/
  | emptyPortName
  deriving DecidableEq, Repr

/-- What an error in the settings says. What is wrong with malformed text is not said. -/
def SettingsError.message : SettingsError → String
  | .malformed => "malformed configuration: "
  | .noDevice => "no device selected: set device.part or device.grid"
  | .conflictingDevice => "device.part and device.grid are mutually exclusive"
  | .gridOutOfRange width height => s!"grid {width}x{height} is outside 3x2..128x128"
  | .emptyPortName => "io attribute table has an empty port name"

namespace Settings

/-- The first mistake in the choice of a device. -/
def deviceError? (s : Settings) : Option SettingsError :=
  match s.part, s.grid with
  | none, none => some .noDevice
  | some _, some _ => some .conflictingDevice
  | some part, none => if part.isEmpty then some .noDevice else none
  | none, some (width, height) =>
    if Chip.isGrid width height then none else some (.gridOutOfRange width height)

/-- The first mistake in the settings. -/
def error? (s : Settings) : Option SettingsError :=
  s.deviceError?.or (if s.io.any (·.1.isEmpty) then some .emptyPortName else none)

/-- The settings, provided that there is no mistake in them. -/
def check (s : Settings) : Except SettingsError Settings :=
  match s.error? with
  | some e => .error e
  | none => .ok s

end Settings

end Fabric
