import Fabric.Device.Derived

/-!
# Default pin states

Pins that carry no real signal are tied to constants where their style allows it: an input
without a net gets the constant that an unused pin is driven with, and an input on a
constant net is taken off the net and tied to its constant. A pin that is tied already
stays as it is.

The *default pin map* names the site pins of each port before the inputs of an ALM are
planned: `E` and `F` of a logic cell use both copies of their pin, every other cell uses the
site pin of the port's own name.
-/

namespace Fabric

namespace Device

/-- The constant that an input should be tied to instead of what it is driven with now. -/
def foldedPin? (d : Device) (c : Cell) (p : Port) : Option Bool :=
  let style := PinStyle.ofCellPin c.type p.name
  match p.net with
  | none => if (c.pinState p.name).isTied then none else style.unused
  | some net =>
    match d.constValue? net with
    | some false => if style.tieLow then some false else none
    | some true => if style.tieHigh then some true else none
    | none => none

end Device

/-- The site pins that a port of a logic cell uses by default. -/
def Cell.logicSitePins (port : Ident) : List Ident :=
  if port = Known.e then [Known.e0, Known.e1]
  else if port = Known.f then [Known.f0, Known.f1]
  else if port = Known.q then [Known.combOut]
  else if port ∈ [Known.a, Known.b, Known.c, Known.d] then [port]
  else []

/-- The site pins that a port uses by default. -/
def Cell.defaultSitePins (c : Cell) (port : Ident) : List Ident :=
  if CellType.isLogic c.type then logicSitePins port else [port]

namespace Edit

/-- Ties one input, if it should be. Returns whether it was tied. -/
def foldPin (id : CellId) (p : Port) : Edit Bool := do
  let cell ← requireCell id
  match (← get).foldedPin? cell p with
  | none => return false
  | some value =>
    modify fun d => { d with netlist := d.netlist.disconnect id p.name }
    modifyCell id (·.setPinState p.name (.tied value))
    return true

/-- Ties the inputs of a cell that carry no real signal, and derives the summary of the cell
again if there were any. Returns their number. -/
def applyPinDefaults (id : CellId) : Edit Nat := do
  let cell ← requireCell id
  let tied ← (cell.ports.values.filter (·.dir = .input)).mapM (foldPin id)
  let count := tied.count true
  if 0 < count then deriveCell id
  return count

/-- Gives every port of a cell that uses no site pins its default ones. -/
def assignDefaultPinMap (id : CellId) : Edit Unit :=
  modifyCell id fun c =>
    c.ports.keys.foldl (fun c port =>
      if (c.sitePins port).isEmpty then c.setSitePins port (c.defaultSitePins port) else c) c

end Edit

end Fabric
