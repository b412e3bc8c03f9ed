import Fabric.Config.Settings
import Fabric.Toml.Document

/-!
# Settings from a document

The settings are three groups of a TOML document, each of which may be left out:

* `device`, with the name of a `part` or the `grid`;
* `options`, with `debug`;
* `io`, with a group of attributes for each port.

Members with other names are ignored. The groups `device` and `options` may also be arrays of
their members in order, of which the last ones may be left out. Items of the grid after the
second are ignored.
-/

namespace Fabric

namespace Toml

/-- The members of a group with the given names, from a table or from an array. -/
def group? (names : List String) : Toml → Option (List (Option Toml))
  | .array items => some (names.zipIdx.map fun (_, k) => items[k]?)
  | t => t.members?.map fun members => names.map fun name => members.lookup name

/-- Reads a member that may be left out. -/
def member? {α : Type} (read : Toml → Option α) : Option Toml → Option (Option α)
  | none => some none
  | some t => (read t).map some

/-- The text that a value is. -/
def text? : Toml → Option String
  | .string value => some value
  | _ => none

/-- The truth value that a value is. -/
def bool? : Toml → Option Bool
  | .boolean value => some value
  | _ => none

/-- The 32-bit word that a value is. -/
def word? : Toml → Option Nat
  | .integer value => if 0 ≤ value ∧ value < capacity 32 then some value.toNat else none
  | _ => none

end Toml

/-- The grid that a value is: the first two items of an array. -/
def Chip.gridOf? : Toml → Option (Nat × Nat)
  | .array (width :: height :: _) => do return (← width.word?, ← height.word?)
  | _ => none

/-- The attribute that a value is. -/
def AttrValue.of? : Toml → Option AttrValue
  | .integer value => some (.int value)
  | .boolean value => some (.bool value)
  | .string value => some (.text value)
  | _ => none

/-- The attributes of the ports that a value holds. -/
def IoTable.of? (t : Toml) : Option IoTable := do
  (← t.members?).mapM fun (port, attributes) => do
    return (port, ← (← attributes.members?).mapM fun (key, value) => do
      return (key, ← AttrValue.of? value))

namespace Settings

/-- The settings that a document holds, if its values have the right types. -/
def of? (t : Toml) : Option Settings := do
  let [device, options, io] ← t.group? ["device", "options", "io"] | none
  let [part, grid] ← (device.getD (.table [])).group? ["part", "grid"] | none
  let [debug] ← (options.getD (.table [])).group? ["debug"] | none
  return {
    part := ← Toml.member? Toml.text? part
    grid := ← Toml.member? Chip.gridOf? grid
    debug := (← Toml.member? Toml.bool? debug).getD false
    io := (← Toml.member? IoTable.of? io).getD [] }

/-- The settings that a text holds. -/
def parse (s : String) : Except SettingsError Settings :=
  match (Toml.parse? s).bind of? with
  | some settings => settings.check
  | none => .error .malformed

end Settings

end Fabric
