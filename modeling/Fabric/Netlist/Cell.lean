import Fabric.Control.Basic
import Fabric.Numeral
import Fabric.Table

/-!
# Cells and nets

The objects of a netlist, as far as packing needs them. A cell has ports, parameters, and
for each port a record of how it is driven and which site pins it uses. Two summaries are
derived from these: `LutInfo` for logic cells and `FlipFlopInfo` for flip-flops.
-/

namespace Fabric

/-! ### Parameters -/

/-- A parameter of a cell: a 64-bit number or a text. -/
inductive Property where
  | int (value : Nat)
  | text (value : String)
  deriving DecidableEq, Inhabited, Repr

/-- The number that a parameter stands for. A text of at most 64 bytes is read as a binary
numeral, most significant digit first. -/
def Property.number? : Property → Option Nat
  | .int value => some value
  | .text value =>
    if 0 < value.utf8ByteSize ∧ value.utf8ByteSize ≤ 64 then Numeral.unsigned? 2 value.toList
    else none

/-! ### Pins -/

/-- How a cell pin is driven once it is mapped onto a site. -/
inductive PinState where
  /-- By its net, or not at all if there is none. -/
  | signal
  /-- By the inverse of its net. -/
  | inverted
  /-- By constant zero. -/
  | tied0
  /-- By constant one. -/
  | tied1
  deriving DecidableEq, Inhabited, Repr

namespace PinState

/-- All states. -/
def all : List PinState := [.signal, .inverted, .tied0, .tied1]

/-- The word for a state. -/
def name : PinState → String
  | .signal => "signal"
  | .inverted => "inverted"
  | .tied0 => "tied0"
  | .tied1 => "tied1"

/-- The state of a pin that is driven by a constant. -/
def tied : Bool → PinState
  | false => .tied0
  | true => .tied1

/-- The constant that a pin is driven with. -/
def constant? : PinState → Option Bool
  | .tied0 => some false
  | .tied1 => some true
  | .signal | .inverted => none

/-- Whether a pin is driven by a constant. -/
def isTied (s : PinState) : Bool := s.constant?.isSome

end PinState

/-- How one cell pin maps to its site. -/
structure PinMap where
  /-- The site pins that the cell pin uses. -/
  sitePins : List Ident := []
  state : PinState := .signal
  deriving DecidableEq, Inhabited, Repr

/-- A port of a cell. -/
structure Port where
  name : Ident
  dir : PortDir
  net : Option NetId := none
  deriving DecidableEq, Inhabited, Repr

/-- A reference to a port of a cell. -/
structure PortRef where
  cell : CellId
  port : Ident
  deriving DecidableEq, Inhabited, Repr

/-! ### Derived summaries -/

/-- The summary of a logic cell. -/
structure LutInfo where
  /-- The number of inputs of the cell type. -/
  inputCount : Nat := 0
  /-- The number of different nets on the inputs. -/
  usedInputCount : Nat := 0
  /-- The size of the truth table in bits. -/
  tableBits : Nat := 0
  /-- The nets of the six logical inputs; the places past `inputCount` are open. -/
  inputs : List (Option NetId) := List.replicate 6 none
  output : Option NetId := none
  /-- The truth table. Bit `i` is the output for the inputs that spell `i`, `A` lowest. -/
  table : Nat := 0
  deriving DecidableEq, Inhabited, Repr

/-- The summary of a flip-flop. -/
structure FlipFlopInfo where
  control : ControlSet := .const {}
  /-- The data of a synchronous load. -/
  sdata : Option NetId := none
  dataIn : Option NetId := none
  deriving DecidableEq, Inhabited, Repr

/-! ### Cells and nets -/

/-- A cell of a netlist. -/
structure Cell where
  name : Ident
  type : Ident
  /-- The ports, in order of creation. -/
  ports : Table Ident Port := []
  params : Table Ident Property := []
  pins : Table Ident PinMap := []
  /-- The site that the cell is placed on. -/
  site : Option BelId := none
  lut : LutInfo := {}
  flipFlop : FlipFlopInfo := {}
  deriving Inhabited, Repr

namespace Cell

/-- The net on a port, if the port exists and is connected. -/
def netOf (c : Cell) (port : Ident) : Option NetId := (c.ports.get? port).bind Port.net

/-- How a pin is driven. A pin without a record is driven by its net. -/
def pinState (c : Cell) (pin : Ident) : PinState := ((c.pins.get? pin).getD {}).state

/-- The site pins that a pin uses. -/
def sitePins (c : Cell) (pin : Ident) : List Ident := ((c.pins.get? pin).getD {}).sitePins

/-- Sets how a pin is driven. -/
def setPinState (c : Cell) (pin : Ident) (state : PinState) : Cell :=
  { c with pins := c.pins.update pin {} fun m => { m with state := state } }

/-- Sets the site pins that a pin uses. -/
def setSitePins (c : Cell) (pin : Ident) (sitePins : List Ident) : Cell :=
  { c with pins := c.pins.update pin {} fun m => { m with sitePins := sitePins } }

/-- Sets the net of a port that exists. -/
def setNet (c : Cell) (port : Ident) (net : Option NetId) : Cell :=
  match c.ports.get? port with
  | none => c
  | some p => { c with ports := c.ports.insert port { p with net := net } }

end Cell

/-- A net of a netlist. -/
structure Net where
  name : Ident
  /-- The port that drives the net. -/
  driver : Option PortRef := none
  /-- The other ports on the net. -/
  users : List PortRef := []
  /-- Whether the net is routed on a global clock network. -/
  isGlobal : Bool := false
  deriving Inhabited, Repr

end Fabric
