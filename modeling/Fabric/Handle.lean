/-!
# Handles

Compact names for the resources of a device and for the objects of a netlist. A tile is a
`Pos`, a routing node is a `Node`; both are packed into one 32-bit word. A wire *is* its
routing node, so `Wire` abbreviates `Node`. Sites, pips, cells and nets have handles built
from these.

## Packing convention

`Pos.pack x y` holds `x` above seven bits of `y`; `Node.pack t x y z` holds eight bits of
type, seven of column, seven of row and ten of index. Packing is by "or", and bits past
the word are lost, so coordinates that do not fit run into their neighbours. The accessors
read the fields back; they recover what was packed exactly when every part fits its field.
-/

namespace Fabric

/-! ### Tiles -/

/-- A packed tile position: the column above seven bits of row. -/
structure Pos where
  raw : UInt32
  deriving DecidableEq, Hashable, Inhabited, Ord, Repr

namespace Pos

/-- The tile in column `x` and row `y`. -/
def pack (x y : Nat) : Pos := ⟨(x <<< 7 ||| y).toUInt32⟩

/-- The column of a tile. -/
def x (p : Pos) : Nat := (p.raw >>> 7).toNat

/-- The row of a tile. -/
def y (p : Pos) : Nat := (p.raw &&& 0x7f).toNat

end Pos

/-! ### Routing nodes -/

/-- A packed routing node: type, column, row and index within the tile. -/
structure Node where
  raw : UInt32
  deriving DecidableEq, Hashable, Inhabited, Ord, Repr

/-- A wire is identified by its routing node. -/
abbrev Wire := Node

namespace Node

/-- The first node type of the wires that a device model creates for itself; the types
below it belong to the chip. -/
def syntheticBase : Nat := 128

/-- The number of nodes of one type that one tile can hold. -/
def indexCount : Nat := 1024

/-- The node of type `kind` and index `z` in column `x` and row `y`. -/
def pack (kind x y z : Nat) : Node :=
  ⟨(kind <<< 24 ||| x <<< 17 ||| y <<< 10 ||| z % indexCount).toUInt32⟩

/-- The type of a node. -/
def kind (n : Node) : Nat := (n.raw >>> 24).toNat

/-- The column of a node. -/
def x (n : Node) : Nat := (n.raw >>> 17 &&& 0x7f).toNat

/-- The row of a node. -/
def y (n : Node) : Nat := (n.raw >>> 10 &&& 0x7f).toNat

/-- The index of a node among those of its type in its tile. -/
def z (n : Node) : Nat := (n.raw &&& 0x3ff).toNat

/-- The tile of a node. -/
def pos (n : Node) : Pos := .pack n.x n.y

/-- A synthetic node was created by a device model and is unknown to the chip. -/
def isSynthetic (n : Node) : Bool := syntheticBase ≤ n.kind

/-- The text of a node that has no name. -/
def label (n : Node) : String := s!"rnode({n.kind}, {n.x}, {n.y}, {n.z})"

end Node

/-! ### Sites, pips and locations -/

/-- A placeable site: a tile, and a place in the tile's list of sites. -/
structure BelId where
  pos : Pos
  z : UInt16
  deriving DecidableEq, Hashable, Inhabited, Ord, Repr

namespace BelId

/-- The text of a site handle in an error. -/
def label (b : BelId) : String := s!"BelId \x7b pos: Pos({b.pos.raw}), z: {b.z} \x7d"

end BelId

/-- A directed switchable connection between two wires. -/
structure Pip where
  src : Wire
  dst : Wire
  deriving DecidableEq, Hashable, Inhabited, Ord, Repr

/-- A grid location. Its parts are signed, so that a location outside the grid
can be asked for. -/
structure Loc where
  x : Int
  y : Int
  z : Int
  deriving DecidableEq, Inhabited, Repr

/-- The direction of a signal, seen from the site or cell. -/
inductive PortDir where
  | input
  | output
  | inout
  deriving DecidableEq, Inhabited, Repr

namespace PortDir

/-- All directions. -/
def all : List PortDir := [.input, .output, .inout]

/-- The word for a direction. -/
def name : PortDir → String
  | .input => "in"
  | .output => "out"
  | .inout => "inout"

end PortDir

/-! ### Package pads -/

/-- The pad of a package pin: a tile in the low fourteen bits, and above them the place of
the I/O block in that tile. -/
structure Pad where
  raw : UInt32
  deriving DecidableEq, Inhabited, Repr

namespace Pad

/-- The pad of I/O block `index` in a tile. -/
def pack (pos : Pos) (index : Nat) : Pad := ⟨pos.raw ||| (index <<< 14).toUInt32⟩

/-- The tile of a pad. -/
def pos (p : Pad) : Pos := ⟨p.raw &&& 0x3fff⟩

/-- The I/O block of a pad. -/
def blockIndex (p : Pad) : Nat := (p.raw >>> 14).toNat

end Pad

/-! ### Netlist objects -/

/-- The place of a cell in its netlist. -/
structure CellId where
  index : Nat
  deriving DecidableEq, Hashable, Inhabited, Repr

/-- The place of a net in its netlist. -/
structure NetId where
  index : Nat
  deriving DecidableEq, Hashable, Inhabited, Repr

end Fabric
