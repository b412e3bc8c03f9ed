import Fabric.Device.Build
import Fabric.Device.Delay
import Fabric.Device.Pack
import Fabric.Device.Placement
import Fabric.Device.Summary
import Fabric.Report.Value

/-!
# Reports on the resources of a device

What a device model says of its wires, sites, LABs, cells and nets. Wires and sites are
reported by name: a wire without one as its routing node, a site without one as its location.
Cells and nets are reported by number.
-/

namespace Fabric.Report

open Json (ofFields)

variable (d : Device)

/-! ### Names -/

/-- An identifier. -/
def name (i : Ident) : Json := toJson (d.nameOf i)

/-- A wire. -/
def wire (w : Wire) : Json := toJson (d.wireText w)

/-- Several wires. -/
def wires (ws : List Wire) : Json := toJson (ws.map (wire d))

/-- A pip, by its two wires. -/
def pip (p : Pip) : Json := wires d [p.src, p.dst]

/-- A site. -/
def bel (b : BelId) : Json :=
  match d.belName b with
  | .ok path => toJson (d.textOf path)
  | .error _ => toJson [b.pos.x, b.pos.y, b.z.toNat]

/-- Several sites. -/
def bels (bs : List BelId) : Json := toJson (bs.map (bel d))

/-- A cell by number, if there is one. -/
def cell? (c : Option CellId) : Json := toJson (c.map CellId.index)

/-- A net by number, if there is one. -/
def net? (n : Option NetId) : Json := toJson (n.map NetId.index)

/-! ### Netlist -/

/-- A parameter. -/
def param : Property → Json
  | .int n => toJson [toJson "int", word n]
  | .text s => toJson ["str", s]

/-- A reference to a port. -/
def portRef (r : PortRef) : Json := toJson [toJson r.cell.index, name d r.port]

/-- The summary of a logic cell. -/
def lutInfo (l : LutInfo) : Json :=
  ofFields [("inputs", toJson l.inputCount), ("used", toJson l.usedInputCount),
    ("bits", toJson l.tableBits), ("nets", toJson (l.inputs.map net?)), ("out", net? l.output),
    ("init", word l.table)]

/-- The summary of a flip-flop. -/
def flipFlopInfo (f : FlipFlopInfo) : Json :=
  ofFields (ControlKind.all.map (fun k => (k.name, signal (f.control.get k)))
    ++ [("SDATA", net? f.sdata), ("DATAIN", net? f.dataIn)])

/-- A cell. -/
def cell (c : Cell) : Json :=
  let port (p : Port) : Json := toJson [name d p.name, toJson p.dir.name, net? p.net]
  let pin (m : PinMap) : Json := toJson [toJson m.state.name, toJson (m.sitePins.map (name d))]
  ofFields [("name", name d c.name), ("type", name d c.type),
    ("ports", toJson (c.ports.values.map port)),
    ("params", ofFields (c.params.map fun (k, v) => (d.nameOf k, param v))),
    ("pins", ofFields (c.pins.map fun (k, m) => (d.nameOf k, pin m))),
    ("bel", toJson (c.site.map (bel d))), ("comb", lutInfo c.lut),
    ("ff", flipFlopInfo c.flipFlop)]

/-- A net. -/
def net (n : Net) : Json :=
  ofFields [("name", name d n.name), ("driver", toJson (n.driver.map (portRef d))),
    ("users", toJson (n.users.map (portRef d))), ("global", toJson n.isGlobal)]

/-! ### Sites and wires -/

/-- A site with its occupant. -/
def site (b : BelId) (s : Site) : Json :=
  let loc := Device.locationOf b
  let pin : Ident × SitePin → Json := fun (i, p) =>
    toJson [name d i, toJson p.dir.name, wire d p.wire]
  ofFields [("name", bel d b), ("type", name d s.type), ("bucket", name d s.bucket),
    ("loc", toJson [loc.x, loc.y, loc.z]), ("block", toJson s.blockIndex),
    ("pins", toJson (s.pins.map pin)),
    ("lab", toJson (s.place.map fun p => [p.lab, p.alm, p.index])), ("cell", cell? s.cell),
    ("bound", cell? (d.cellAt b)), ("avail", toJson (d.isFree b)),
    ("valid", toJson (d.isValidAt b))]

/-- A wire with its neighbours. -/
def wireInfo (w : Wire) (info : WireInfo) : Json :=
  let pin (p : BelPin) : Json := toJson [bel d p.bel, name d p.pin]
  ofFields [("name", wire d w), ("node", node w), ("up", wires d info.uphill.toList),
    ("down", wires d info.downhill.toList), ("pins", toJson (info.belPins.toList.map pin)),
    ("flags", toJson info.flags), ("reserved", toJson (info.reservedDriver.map (wire d))),
    ("delay", toJson (Delay.ofWire w))]

/-! ### LABs -/

/-- The state of a LAB: its control signals, its reserved wires and its fused ALMs. -/
def lab (l : Lab) : Json :=
  let alms := l.alms.toList
  let inputs := alms.flatMap fun a => a.efSelector.toList ++ Flops.toList a.ffIn
  let reserved := (l.controlWires ++ inputs).filterMap fun w =>
    (d.wires.reservedDriver? w).map fun src => (d.wireText w, wire d src)
  let fused := alms.zipIdx.filterMap fun (a, k) => if a.fused then some k else none
  ofFields [("pos", toJson [l.pos.x, l.pos.y]), ("ctrl", slots l.control),
    ("reserved", ofFields reserved), ("l6", toJson fused)]

/-- The wires and sites of an ALM. -/
def almWires (a : Alm) : Json :=
  let selector (k : ControlKind) : Json :=
    toJson ((a.selectors? k).map fun s => wires d s.toList)
  ofFields [("comb_out", wires d a.combOut.toList), ("ff_in", wires d (Flops.toList a.ffIn)),
    ("ff_out", wires d (Flops.toList a.ffOut)), ("sel_ef", wires d a.efSelector.toList),
    ("sel", toJson (ControlKind.all.map selector)), ("luts", bels d a.lutSites.toList),
    ("ffs", bels d (Flops.toList a.ffSites))]

/-- The wires and sites of a LAB. -/
def labWires (l : Lab) : Json :=
  ofFields [("shared", byKind fun k => wires d (l.shared.get k)),
    ("alms", toJson (l.alms.toList.map (almWires d)))]

/-- The cells on an ALM. -/
def almCells (a : Alm) : Json :=
  toJson [(d.lutCells a).toList.map cell?, (Flops.toList (d.flopCells a)).map cell?]

/-- A plan for the inputs of an ALM. -/
def plan (p : InputPlan) : Json :=
  let pin : Option AlmPin → Json := fun q => toJson (q.map AlmPin.index)
  let sitePins (half : Half) (k : Nat) : Json := toJson ((p.sitePins half k).map (name d))
  ofFields [("l6", toJson p.fused), ("lut_pins", toJson (p.lutPins.toList.map (·.map pin))),
    ("ef_pins", toJson (p.efPins.toList.map pin)),
    ("ff_src", toJson ((Flops.toList p.flopSource).map FlopSource.name)),
    ("bel_pins", toJson (Half.all.map fun half => (List.range 6).map (sitePins half)))]

/-! ### The whole device -/

/-- The resource counts of a device and the choice it was made from. -/
def device : Json :=
  let s := d.summary
  let chosen := d.selection
  let grid := chosen.grid.map fun (x, y) => [x, y]
  ofFields [("part", toJson s.part), ("grid", toJson [s.width, s.height]), ("labs", toJson s.labs),
    ("bels", toJson s.belCount),
    ("types", ofFields (s.bels.map fun (type, count) => (type, toJson count))),
    ("wires", toJson s.wires), ("pips", toJson s.pips), ("walked", toJson d.wires.pips.length),
    ("debug", toJson d.describe),
    ("args", toJson [toJson chosen.device, toJson grid, toJson chosen.debug,
      toJson chosen.io.length])]

end Fabric.Report
