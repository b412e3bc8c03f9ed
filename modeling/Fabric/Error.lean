import Fabric.Chip.Block
import Fabric.Control.Basic

/-!
# Errors

Why an operation on a device model fails. There are three groups:

* an `Error` proper: an unknown resource, or a packing that is not legal;
* a `Fault`: a request that contradicts the state of the model, reported as an internal
  error;
* a `Misuse`: a request that breaks a promise of the caller, such as an index past the end
  of a table. It has no message; nothing can be said about the model afterwards.
-/

namespace Fabric

/-- A request that contradicts the state of the model. -/
inductive Fault where
  /-- The cell has no such port. -/
  | noPort (cell : CellId) (port : Ident)
  /-- The port is on a net already. -/
  | portConnected (cell : CellId) (port : Ident)
  /-- The net has a driver already. -/
  | twoDrivers (net : NetId)
  /-- The site holds a cell already. -/
  | siteOccupied (bel : BelId) (cell : CellId)
  /-- The chip lacks a port that the block needs. -/
  | noChipPort (port : BlockPort)
  /-- No slot of the LAB holds a control signal that was bound before. -/
  | lostSlot (lab : Nat) (kind : ControlKind)
  deriving DecidableEq, Repr

/-- What a fault says. -/
def Fault.message : Fault → String
  | .noPort cell port => s!"cell {cell.index} has no port {port.index}"
  | .portConnected cell port => s!"port {port.index} of cell {cell.index} is already connected"
  | .twoDrivers net => s!"net {net.index} has two drivers"
  | .siteOccupied bel cell => s!"bel {bel.label} is already bound to cell {cell.index}"
  | .noChipPort p =>
    s!"chip database has no {p.port.name}[{p.blockIndex}, {p.portIndex}]"
      ++ s!" on {p.block.name} at {p.pos.x}.{p.pos.y}"
  | .lostSlot lab kind => s!"{kind.name} signal of LAB {lab} lost its slot"

/-- A broken promise of the caller. -/
inductive Misuse where
  /-- The cell is not in the netlist. -/
  | noCell
  /-- The net is not in the netlist. -/
  | noNet
  /-- The tile is not on the chip. -/
  | noTile
  /-- The site is not in its tile. -/
  | noSite
  /-- The site has a pin of that name already. -/
  | duplicatePin
  /-- The coordinate has no numeral of its own. -/
  | noNumeral
  /-- The tile has no node left for another wire. -/
  | noNode
  /-- The identifier is not in use. -/
  | noName
  /-- The LAB is not on the list. -/
  | noLab
  /-- The LAB has no shared wire for the slot. -/
  | noSharedWire
  deriving DecidableEq, Repr

/-- Why an operation on a device model fails. -/
inductive Error where
  /-- No part has that name. -/
  | unknownDevice (part : String)
  /-- No chip has a grid of that size. -/
  | invalidGrid (width height : Nat)
  /-- The wire does not exist. -/
  | wireNotFound (wire : Wire)
  /-- The site does not exist. -/
  | belNotFound (bel : BelId)
  /-- No pip joins the wires, or none that can be reserved. -/
  | pipNotFound (src dst : Wire)
  /-- The flip-flops of a LAB need more different signals than it has shared wires. -/
  | controlSetOverflow (lab : Nat) (kind : ControlKind)
  /-- The inputs of an ALM cannot be mapped onto its physical pins. -/
  | illegalAlm (lab alm : Nat)
  /-- The cell is not a logic cell. -/
  | unexpectedCombCell (cell type : String)
  | fault (why : Fault)
  | misuse (why : Misuse)
  deriving DecidableEq, Repr

/-- What an error says. -/
def Error.message : Error → String
  | .unknownDevice part => s!"unknown device '{part}'"
  | .invalidGrid width height => s!"grid {width}x{height} is outside 3x2..128x128"
  | .wireNotFound wire => s!"wire {wire.label} not found"
  | .belNotFound bel => s!"bel {bel.label} not found"
  | .pipNotFound src dst => s!"no pip from {src.label} to {dst.label}"
  | .controlSetOverflow lab kind =>
    s!"LAB {lab} needs more than {kind.limit} distinct {kind.name} signals"
  | .illegalAlm lab alm => s!"ALM {alm} of LAB {lab} has no legal input assignment"
  | .unexpectedCombCell cell type =>
    s!"cell '{cell}' has unexpected combinational type '{type}'"
  | .fault why => s!"internal error: {why.message}"
  | .misuse _ => ""

end Fabric
