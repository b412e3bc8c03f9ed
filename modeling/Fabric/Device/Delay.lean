import Fabric.Device.Site

/-!
# Delays

A delay is a whole number of picoseconds. Routing is estimated from geometry alone: 100 for
each tile of horizontal and vertical distance, and 100 more. A wire adds nothing and a pip
adds 100.
-/

namespace Fabric.Delay

/-- The smallest difference of delays that matters. -/
def epsilon : Int := 10

/-- What it costs to rip up a route. -/
def ripupPenalty : Int := 100

/-- The delay of a wire by itself. -/
def ofWire (_ : Wire) : Int := 0

/-- The delay of a pip. -/
def ofPip (_ : Pip) : Int := 100

/-- The delay over a horizontal and a vertical distance. -/
def ofDistance (dx dy : Int) : Int := 100 * dx.natAbs + 100 * dy.natAbs + 100

/-- The estimated delay between two wires. -/
def between (src dst : Wire) : Int :=
  ofDistance ((dst.x : Int) - (src.x : Int)) ((dst.y : Int) - (src.y : Int))

/-- A delay in nanoseconds. -/
def toNanoseconds (delay : Int32) : Float32 := delay.toFloat32 / 1000

/-- The delay of a number of nanoseconds, cut to a whole number of picoseconds and to the
range of delays; what is no number has delay zero. -/
def ofNanoseconds (ns : Float32) : Int32 := (ns * 1000).toInt32

end Fabric.Delay

namespace Fabric.Device

/-- The predicted delay from the driver of a net to a sink: the estimate between their
sites, or 100 if one of them is not placed. -/
def predictDelay (d : Device) (net : NetId) (sink : CellId) : Except Error Int :=
  match d.netlist.net? net, d.netlist.cell? sink with
  | none, _ => .error (.misuse .noNet)
  | _, none => .error (.misuse .noCell)
  | some n, some sink =>
    let driver := n.driver.bind fun ref => (d.netlist.cell? ref.cell).bind Cell.site
    match driver, sink.site with
    | some src, some dst =>
      let s := locationOf src
      let t := locationOf dst
      .ok (Delay.ofDistance (t.x - s.x) (t.y - s.y))
    | _, _ => .ok 100

end Fabric.Device
