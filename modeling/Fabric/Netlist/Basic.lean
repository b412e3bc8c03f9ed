import Fabric.Error
import Fabric.Netlist.Cell
import Std.Data.HashMap

/-!
# Netlists

Cells and nets, each known by its place, and joined at ports. A net lists the port that
drives it and the ports that use it; a port names its net. `connect` and `disconnect` keep
the two sides in step.

Names need not be unique: a lookup by name finds the object added last under that name.
-/

namespace Fabric

/-- Cells and nets. -/
structure Netlist where
  cells : Array Cell := #[]
  nets : Array Net := #[]
  cellByName : Std.HashMap Ident CellId := ∅
  netByName : Std.HashMap Ident NetId := ∅
  deriving Inhabited

namespace Netlist

/-! ### Lookups -/

/-- A cell of the netlist. -/
def cell? (nl : Netlist) (id : CellId) : Option Cell := nl.cells[id.index]?

/-- A net of the netlist. -/
def net? (nl : Netlist) (id : NetId) : Option Net := nl.nets[id.index]?

/-- The cell added last under a name. -/
def findCell? (nl : Netlist) (name : Ident) : Option CellId := nl.cellByName[name]?

/-- The net added last under a name. -/
def findNet? (nl : Netlist) (name : Ident) : Option NetId := nl.netByName[name]?

/-- The cells, in order of creation. -/
def cellIds (nl : Netlist) : List CellId := (List.range nl.cells.size).map .mk

/-- The summary of a logic cell; blank for a cell that does not exist. -/
def lutInfo (nl : Netlist) (id : CellId) : LutInfo := ((nl.cell? id).map Cell.lut).getD {}

/-- The summary of a flip-flop; blank for a cell that does not exist. -/
def flipFlopInfo (nl : Netlist) (id : CellId) : FlipFlopInfo :=
  ((nl.cell? id).map Cell.flipFlop).getD {}

/-- How a cell pin is driven. -/
def pinState (nl : Netlist) (id : CellId) (pin : Ident) : PinState :=
  ((nl.cell? id).map (·.pinState pin)).getD .signal

/-- The site pins that a cell pin uses. -/
def sitePins (nl : Netlist) (id : CellId) (pin : Ident) : List Ident :=
  ((nl.cell? id).map (·.sitePins pin)).getD []

/-! ### Updates -/

/-- Changes a cell that exists. -/
def modifyCell (nl : Netlist) (id : CellId) (f : Cell → Cell) : Netlist :=
  { nl with cells := nl.cells.modify id.index f }

/-- Changes a net that exists. -/
def modifyNet (nl : Netlist) (id : NetId) (f : Net → Net) : Netlist :=
  { nl with nets := nl.nets.modify id.index f }

/-- Adds a cell. -/
def addCell (nl : Netlist) (name type : Ident) : CellId × Netlist :=
  let id : CellId := ⟨nl.cells.size⟩
  (id, { nl with
    cells := nl.cells.push { name := name, type := type }
    cellByName := nl.cellByName.insert name id })

/-- Adds a net. -/
def addNet (nl : Netlist) (name : Ident) : NetId × Netlist :=
  let id : NetId := ⟨nl.nets.size⟩
  (id, { nl with
    nets := nl.nets.push { name := name }
    netByName := nl.netByName.insert name id })

/-- Gives a cell an unconnected port. A port of that name loses its net and keeps its place
among the ports. -/
def addPort (nl : Netlist) (cell : CellId) (port : Ident) (dir : PortDir) : Netlist :=
  nl.modifyCell cell fun c =>
    { c with ports := c.ports.insert port { name := port, dir := dir } }

/-- Puts an unconnected port on a net: as its driver if the port is an output, else as one
of its users. -/
def connect (nl : Netlist) (cell : CellId) (port : Ident) (net : NetId) : Except Error Netlist :=
  match nl.cell? cell with
  | none => .error (.misuse .noCell)
  | some c =>
    match c.ports.get? port with
    | none => .error (.fault (.noPort cell port))
    | some p =>
      if p.net.isSome then .error (.fault (.portConnected cell port))
      else match nl.net? net with
        | none => .error (.misuse .noNet)
        | some n =>
          let joined := nl.modifyCell cell (·.setNet port (some net))
          if p.dir = .output then
            if n.driver.isSome then .error (.fault (.twoDrivers net))
            else .ok (joined.modifyNet net fun n => { n with driver := some ⟨cell, port⟩ })
          else
            .ok (joined.modifyNet net fun n => { n with users := n.users ++ [⟨cell, port⟩] })

/-- Takes a port off its net, if it is on one. -/
def disconnect (nl : Netlist) (cell : CellId) (port : Ident) : Netlist :=
  match (nl.cell? cell).bind (·.netOf port) with
  | none => nl
  | some net =>
    let ref : PortRef := ⟨cell, port⟩
    (nl.modifyCell cell (·.setNet port none)).modifyNet net fun n =>
      { n with
        driver := if n.driver = some ref then none else n.driver
        users := n.users.filter (· != ref) }

/-! ### Constant nets -/

/-- The name of the net that is always zero. -/
def zeroNetName : String := "$PACKER_GND"

/-- The name of the net that is always one. -/
def oneNetName : String := "$PACKER_VCC"

/-- The name of a constant net. -/
def constNetName (value : Bool) : String := if value then oneNetName else zeroNetName

/-- The constant that a net of this name carries. -/
def constOfName? (name : String) : Option Bool :=
  if name = zeroNetName then some false else if name = oneNetName then some true else none

/-- The constant net with a given name, added if it does not exist. -/
def constNet (nl : Netlist) (name : Ident) : NetId × Netlist :=
  match nl.findNet? name with
  | some net => (net, nl)
  | none => nl.addNet name

end Netlist

end Fabric
