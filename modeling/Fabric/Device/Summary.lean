import Fabric.Device.Site
import Fabric.Json.Codec

/-!
# Summary of a device

The number of resources of each kind that a device has, as lines for a reader or as JSON for
another program, and the lines that tell a reader about one of its sites or wires.
-/

namespace Fabric

namespace Text

/-! ### Lines and columns

Plain text for a terminal: lines that all end in a line break, with cells filled by spaces to
the width of their column. A cell that is too wide pushes the rest of its line along. -/

/-- Lines with a line break after each. -/
def ofLines (lines : List String) : String := String.join (lines.map (· ++ "\n"))

/-- A cell filled with spaces up to the width of its column. -/
def cell (width : Nat) (s : String) : String := s.pushn ' ' (width - s.length)

end Text

/-! ### Resource counts -/

/-- The resource counts of a device. -/
structure Summary where
  part : String
  width : Nat
  height : Nat
  labs : Nat
  /-- The number of sites of each type, in the order of the type names. -/
  bels : Table String Nat
  wires : Nat
  pips : Nat
  deriving Repr

/-- The resource counts of a device. -/
def Device.summary (d : Device) : Summary :=
  let types := d.bels.toList.filterMap fun bel => (d.site? bel).map Site.type
  let counts := types.foldl (fun (t : Table Ident Nat) i => t.update i 0 (· + 1)) []
  { part := d.chip.part
    width := d.chip.width
    height := d.chip.height
    labs := d.labs.size
    bels := (counts.map fun (i, n) => (d.nameOf i, n)).mergeSort fun a b => a.1 ≤ b.1
    wires := d.wires.size
    pips := d.wires.pipCount }

namespace Summary

/-- The number of sites of all types. -/
def belCount (s : Summary) : Nat := s.bels.values.foldr (· + ·) 0

/-- The counts as lines. -/
def text (s : Summary) : String :=
  Text.ofLines ([s!"device  {s.part}", s!"grid    {s.width} x {s.height}", s!"labs    {s.labs}",
      s!"bels    {s.belCount}"]
    ++ s.bels.map (fun (type, count) => s!"  {Text.cell 16 type}{count}")
    ++ [s!"wires   {s.wires}", s!"pips    {s.pips}"])

/-- The counts as an object, its members in the order of their names. -/
instance : ToJson Summary where
  toJson s := Json.ofFields
    [("bels", Json.ofFields (s.bels.map fun (type, count) => (type, toJson count))),
      ("grid", toJson [s.width, s.height]), ("labs", toJson s.labs), ("part", toJson s.part),
      ("pips", toJson s.pips), ("wires", toJson s.wires)]

end Summary

/-! ### Sites and wires -/

namespace Device

/-- The lines that describe a site: its type, location and place in its block, and its pins. -/
def describeSite (d : Device) (bel : BelId) : Except Error String := do
  let site ← d.siteInfo bel
  let name ← d.belName bel
  let block := if 0 ≤ site.blockIndex then [s!"block {site.blockIndex}"] else []
  let pin : Ident × SitePin → String := fun (pin, p) =>
    s!"  {Text.cell 8 (d.nameOf pin)}{Text.cell 6 p.dir.name}{d.wireText p.wire}"
  return Text.ofLines ([s!"bel   {d.textOf name}", s!"type  {d.nameOf site.type}",
      s!"loc   {bel.pos.x}.{bel.pos.y}.{bel.z}"] ++ block ++ site.pins.map pin)

/-- The lines that describe a wire: its drivers, its loads and the site pins on it. -/
def describeWire (d : Device) (w : Wire) : Except Error String := do
  let info ← d.wireInfo w
  let reserved := info.reservedDriver.toList.map fun src => s!"reserved from {d.wireText src}"
  let wires (ws : Array Wire) : List String := ws.toList.map fun w => s!"  {d.wireText w}"
  let pins ← info.belPins.toList.mapM fun p => do
    return s!"pin   {d.textOf (← d.belName p.bel)}.{d.nameOf p.pin}"
  return Text.ofLines ([s!"wire  {d.wireText w}"] ++ reserved
    ++ [s!"uphill ({info.uphill.size})"] ++ wires info.uphill
    ++ [s!"downhill ({info.downhill.size})"] ++ wires info.downhill ++ pins)

end Device

end Fabric
