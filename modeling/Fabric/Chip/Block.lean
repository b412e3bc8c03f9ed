import Fabric.Alm.Pin
import Fabric.Handle

/-!
# Blocks of a chip

The kinds of hardware block that a tile can hold, and the ports through which their
circuits meet the routing. Which ports a block has, and which routing node is behind each,
is said in `Fabric.Chip.Port`.
-/

namespace Fabric

/-- A kind of hardware block. -/
inductive BlockKind where
  /-- A logic array block of ten ALMs. -/
  | lab
  /-- A general-purpose I/O block of four pads. -/
  | gpio
  /-- A multiplexer that feeds the global clocks. -/
  | clockMux
  deriving DecidableEq, Inhabited, Repr

namespace BlockKind

/-- All kinds of block. -/
def all : List BlockKind := [.lab, .gpio, .clockMux]

/-- The chip's word for a kind of block. -/
def name : BlockKind → String
  | .lab => "Lab"
  | .gpio => "Gpio"
  | .clockMux => "CmuxHg"

end BlockKind

/-- An output of an ALM. Each half has two outputs, and a local one beside the second. -/
inductive AlmOutput where
  | top0
  | top1
  | bottom0
  | bottom1
  | topLocal
  | bottomLocal
  deriving DecidableEq, Inhabited, Repr

namespace AlmOutput

/-- The six outputs, in physical order. -/
def all : List AlmOutput := [.top0, .top1, .bottom0, .bottom1, .topLocal, .bottomLocal]

/-- The place of an output in physical order. -/
def index : AlmOutput → Nat
  | .top0 => 0
  | .top1 => 1
  | .bottom0 => 2
  | .bottom1 => 3
  | .topLocal => 4
  | .bottomLocal => 5

end AlmOutput

/-- A port of a block. -/
inductive ChipPort where
  | almInput (pin : AlmPin)
  | almOutput (output : AlmOutput)
  | clkIn
  | dataIn
  | aclr
  | oeIn
  | dataOut
  | clkOut
  deriving DecidableEq, Inhabited, Repr

namespace ChipPort

/-- All ports of all kinds of block. -/
def all : List ChipPort :=
  AlmPin.all.map .almInput ++ AlmOutput.all.map .almOutput
    ++ [.clkIn, .dataIn, .aclr, .oeIn, .dataOut, .clkOut]

/-- The chip's word for a port. -/
def name : ChipPort → String
  | .almInput .a => "A"
  | .almInput .b => "B"
  | .almInput .c => "C"
  | .almInput .d => "D"
  | .almInput .e0 => "E0"
  | .almInput .e1 => "E1"
  | .almInput .f0 => "F0"
  | .almInput .f1 => "F1"
  | .almOutput .top0 => "Fft0"
  | .almOutput .top1 => "Fft1"
  | .almOutput .bottom0 => "Ffb0"
  | .almOutput .bottom1 => "Ffb1"
  | .almOutput .topLocal => "Fft1l"
  | .almOutput .bottomLocal => "Ffb1l"
  | .clkIn => "ClkIn"
  | .dataIn => "DataIn"
  | .aclr => "Aclr"
  | .oeIn => "OeIn"
  | .dataOut => "DataOut"
  | .clkOut => "ClkOut"

end ChipPort

/-- A port of a block in a tile. The block index tells apart the like parts of a block, the
port index the like ports of a part; an index that does not apply is given as `-1`. -/
structure BlockPort where
  block : BlockKind
  pos : Pos
  port : ChipPort
  blockIndex : Int := -1
  portIndex : Int := -1
  deriving DecidableEq, Inhabited, Repr

end Fabric
