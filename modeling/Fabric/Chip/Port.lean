import Fabric.Chip.Basic

/-!
# Ports and routing nodes

The routing nodes of a chip, by type:

* `GIN`, the inputs of the blocks of a tile;
* `GOUT`, their outputs;
* `H4` and `V4`, the horizontal and vertical tracks of a tile;
* `GCLK`, the global clocks, which belong to no tile and are kept at the tile (0, 0).

A LAB numbers its inputs with those of its ALMs first, then the clock inputs, the data
lines and the asynchronous clears.
-/

namespace Fabric

/-! ### Node types -/

namespace NodeType

/-- Inputs of blocks. -/
def gin : Nat := 1

/-- Outputs of blocks. -/
def gout : Nat := 2

/-- Horizontal tracks. -/
def h4 : Nat := 3

/-- Vertical tracks. -/
def v4 : Nat := 4

/-- Global clocks. -/
def gclk : Nat := 5

/-- The name of a node type of the chip. -/
def name? (t : Nat) : Option String := Known.nodeTypeNames[t]?

/-- The node type of the chip with a given name. -/
def ofName? (name : String) : Option Nat := Known.nodeTypeNames.idxOf? name

end NodeType

namespace Chip

/-! ### Sizes -/

/-- The number of ALMs of a LAB. -/
def almsPerLab : Nat := 10

/-- The number of inputs of an ALM. -/
def almInputCount : Nat := 8

/-- The number of outputs of an ALM. -/
def almOutputCount : Nat := 6

/-- The number of tracks of a tile in each direction. -/
def trackCount : Nat := 8

/-- The number of global clocks, and of clock buffers. -/
def globalClockCount : Nat := 4

/-- The number of clock inputs of a LAB. -/
def labClockCount : Nat := 3

/-- The number of data lines of a LAB. -/
def labDataLineCount : Nat := 4

/-- The number of asynchronous clear inputs of a LAB. -/
def labClearCount : Nat := 2

/-- The place of the clock inputs among the inputs of a LAB. -/
def labClockBase : Nat := almsPerLab * almInputCount

/-- The place of the data lines among the inputs of a LAB. -/
def labDataLineBase : Nat := labClockBase + labClockCount

/-- The place of the asynchronous clears among the inputs of a LAB. -/
def labClearBase : Nat := labDataLineBase + labDataLineCount

/-! ### Nodes -/

/-- Input `z` of the block of a tile. -/
def gin (x y z : Nat) : Node := .pack NodeType.gin x y z

/-- Output `z` of the block of a tile. -/
def gout (x y z : Nat) : Node := .pack NodeType.gout x y z

/-- A horizontal track of a tile; tracks are counted round. -/
def h4 (x y t : Nat) : Node := .pack NodeType.h4 x y (t % trackCount)

/-- A vertical track of a tile; tracks are counted round. -/
def v4 (x y t : Nat) : Node := .pack NodeType.v4 x y (t % trackCount)

/-- A global clock. -/
def gclk (i : Nat) : Node := .pack NodeType.gclk 0 0 i

/-! ### The node behind a port -/

/-- An index that is in range. -/
def indexBelow? (limit : Nat) : Int → Option Nat
  | .ofNat n => if n < limit then some n else none
  | .negSucc _ => none

/-- The node behind a port of a block in the tile `x`, `y`, the indices being in range. -/
def nodeBehind? (x y : Nat) (block : BlockKind) (port : ChipPort) (blockIndex portIndex : Int) :
    Option Node :=
  match block, port with
  | .lab, .almInput pin =>
    (indexBelow? almsPerLab blockIndex).map fun alm => gin x y (alm * almInputCount + pin.index)
  | .lab, .almOutput output =>
    (indexBelow? almsPerLab blockIndex).map fun alm =>
      gout x y (alm * almOutputCount + output.index)
  | .lab, .clkIn => (indexBelow? labClockCount portIndex).map fun i => gin x y (labClockBase + i)
  | .lab, .dataIn =>
    (indexBelow? labDataLineCount portIndex).map fun i => gin x y (labDataLineBase + i)
  | .lab, .aclr => (indexBelow? labClearCount blockIndex).map fun i => gin x y (labClearBase + i)
  | .gpio, .dataIn => (indexBelow? iosPerBlock blockIndex).map fun z => gin x y (z * 2)
  | .gpio, .oeIn => (indexBelow? iosPerBlock blockIndex).map fun z => gin x y (z * 2 + 1)
  | .gpio, .dataOut => (indexBelow? iosPerBlock blockIndex).map fun z => gout x y z
  | .clockMux, .clkIn => (indexBelow? globalClockCount portIndex).map fun i => gin x y i
  | .clockMux, .clkOut => (indexBelow? globalClockCount blockIndex).map gclk
  | _, _ => none

/-- The routing node behind a port, if the block is in that tile and has that port. -/
def node? (c : Chip) (p : BlockPort) : Option Node :=
  if c.blockAt p.pos.x p.pos.y = some p.block then
    nodeBehind? p.pos.x p.pos.y p.block p.port p.blockIndex p.portIndex
  else none

end Chip

end Fabric
