import Fabric.Device.Basic

/-!
# Derived data of cells

Packing does not look at ports and parameters but at two summaries of a cell: `LutInfo` for
logic cells and `FlipFlopInfo` for flip-flops. They are derived on request, and when a cell
is placed; in between they can be out of date.

A flip-flop with a synchronous clear and no load is implemented by a load of constant zero,
so its derived load signal is the zero net.
-/

namespace Fabric

namespace Cell

/-- The number of different nets among some inputs. -/
def distinctNets (inputs : List (Option NetId)) : List NetId :=
  inputs.reduceOption.eraseDups

/-- The truth table of a logic cell with `n` inputs: fixed for inverters and buffers, else
as many low bits of the `LUT` parameter as the table holds. -/
def truthTable (c : Cell) (n : Nat) : Nat :=
  if c.type = Known.notGate then 0b01
  else if c.type = Known.bufGate then 0b10
  else (((c.params.get? Known.lut).bind Property.number?).getD 0) % capacity (capacity n)

/-- The nets of the six logical inputs of a cell with `n` inputs. -/
def lutInputs (c : Cell) (n : Nat) : List (Option NetId) :=
  lutInputNames.zipIdx.map fun (name, k) => if k < n then c.netOf name else none

/-- The summary of a logic cell with `n` inputs. -/
def lutSummary (c : Cell) (n : Nat) : LutInfo where
  inputCount := n
  usedInputCount := (distinctNets (c.lutInputs n)).length
  tableBits := capacity n
  inputs := c.lutInputs n
  output := c.netOf Known.q
  table := c.truthTable n

/-- The control signal at a pin. -/
def controlSignal (c : Cell) (pin : Ident) : ControlSignal :=
  ⟨c.netOf pin, c.pinState pin = .inverted⟩

/-- The control signals at the pins of a flip-flop. -/
def controlSet (c : Cell) : ControlSet where
  clk := c.controlSignal Known.clk
  ena := c.controlSignal Known.ena
  aclr := c.controlSignal Known.aclr
  sclr := c.controlSignal Known.sclr
  sload := c.controlSignal Known.sload

/-- Whether a flip-flop is cleared synchronously without being loaded. -/
def needsZeroLoad (c : Cell) : Bool :=
  c.controlSet.sclr.net.isSome && c.controlSet.sload.net.isNone

/-- The summary of a flip-flop, given the zero net if its load needs that. -/
def flipFlopSummary (c : Cell) (zeroNet : Option NetId) : FlipFlopInfo where
  control := match zeroNet with
    | some net => { c.controlSet with sload := ⟨net, false⟩ }
    | none => c.controlSet
  sdata := c.netOf Known.sdata
  dataIn := c.netOf Known.dataIn

end Cell

namespace Edit

/-- A cell that has to exist. -/
def requireCell (id : CellId) : Edit Cell := do
  require ((← get).netlist.cell? id) (.misuse .noCell)

/-- A net that has to exist. -/
def requireNet (id : NetId) : Edit Net := do
  require ((← get).netlist.net? id) (.misuse .noNet)

/-- Changes a cell that has to exist. -/
def modifyCell (id : CellId) (f : Cell → Cell) : Edit Unit := do
  let _ ← requireCell id
  modify fun d => { d with netlist := d.netlist.modifyCell id f }

/-- The net of a constant, added if it does not exist. -/
def constNet (value : Bool) : Edit NetId := do
  let name ← intern (Netlist.constNetName value)
  modifyGet fun d =>
    let (net, netlist) := d.netlist.constNet name
    (net, { d with netlist := netlist })

/-- Derives the summary of a logic cell. Changes nothing when it fails. -/
def deriveLut (id : CellId) : Edit Unit := do
  let cell ← requireCell id
  match CellType.logicInputs? cell.type with
  | none =>
    let d ← get
    throw (.unexpectedCombCell (d.nameOf cell.name) (d.nameOf cell.type))
  | some n => modifyCell id fun c => { c with lut := c.lutSummary n }

/-- Derives the summary of a flip-flop. -/
def deriveFlipFlop (id : CellId) : Edit Unit := do
  let cell ← requireCell id
  let zeroNet ← if cell.needsZeroLoad then some <$> constNet false else pure none
  modifyCell id fun c => { c with flipFlop := c.flipFlopSummary zeroNet }

/-- Derives the summary that belongs to the type of a cell, if any. -/
def deriveCell (id : CellId) : Edit Unit := do
  let cell ← requireCell id
  if CellType.isLogic cell.type then deriveLut id
  else if cell.type = Known.flipFlop then deriveFlipFlop id

/-- Derives the summary of every cell, in order. -/
def deriveAll : Edit Unit := do
  (← get).netlist.cellIds.forM deriveCell

end Edit

namespace Device

/-- The constant that a net carries, if it is a constant net. -/
def constValue? (d : Device) (net : NetId) : Option Bool :=
  ((d.netlist.net? net).map (d.nameOf ·.name)).bind Netlist.constOfName?

end Device

end Fabric
