import Fabric.Device.Derived

/-!
# Editing the netlist of a device

The operations by which a design enters a device model: creating cells and nets, giving
cells ports, and joining the two. Derived data is not brought up to date by these.
-/

namespace Fabric.Edit

/-- Adds a cell. -/
def createCell (name : String) (type : Ident) : Edit CellId := do
  let name ← intern name
  modifyGet fun d =>
    let (id, netlist) := d.netlist.addCell name type
    (id, { d with netlist := netlist })

/-- Adds a net. -/
def createNet (name : String) : Edit NetId := do
  let name ← intern name
  modifyGet fun d =>
    let (id, netlist) := d.netlist.addNet name
    (id, { d with netlist := netlist })

/-- Gives a cell an unconnected port. -/
def addPort (id : CellId) (port : Ident) (dir : PortDir) : Edit Unit := do
  let _ ← requireCell id
  modify fun d => { d with netlist := d.netlist.addPort id port dir }

/-- Puts a port on a net. Changes nothing when it fails. -/
def connect (id : CellId) (port : Ident) (net : NetId) : Edit Unit :=
  onNetlist (·.connect id port net)

/-- Takes a port off its net, if it is on one. -/
def disconnect (id : CellId) (port : Ident) : Edit Unit := do
  let _ ← requireCell id
  modify fun d => { d with netlist := d.netlist.disconnect id port }

/-- Sets a parameter of a cell. -/
def setParam (id : CellId) (key : Ident) (value : Property) : Edit Unit :=
  modifyCell id fun c => { c with params := c.params.insert key value }

/-- Says whether a net is routed on a global clock network. -/
def setGlobal (id : NetId) (isGlobal : Bool) : Edit Unit := do
  let _ ← requireNet id
  modify fun d => { d with
    netlist := d.netlist.modifyNet id fun n => { n with isGlobal := isGlobal } }

/-- Keeps or drops debug records from now on. -/
def setVerbose (verbose : Bool) : Edit Unit :=
  modify fun d => { d with diagnostics := { d.diagnostics with verbose := verbose } }

/-- Removes the stored records, and returns them. -/
def takeRecords : Edit (List Diagnostic) :=
  modifyGet fun d =>
    let (records, sink) := d.diagnostics.take
    (records.toList, { d with diagnostics := sink })

end Fabric.Edit
