import Fabric.Alm.Pin
import Fabric.Bits
import Fabric.Netlist.Cell

/-!
# The truth table of an ALM

The 64 bits that configure an ALM, computed from the truth tables of its LUT cells and the
site pins that their inputs use. In split mode the low 32 bits belong to the top half and
the high 32 bits to the bottom half, each addressed by the five pins of `Half.lutPins`; in
fused mode all 64 bits are addressed by `A B C D E F`.

For each address, a logical input reads its constant if it is tied, zero if it is open, and
else the address bit of its pin, inverted if the cell inverts that pin. The inputs together
index the table of the cell.
-/

namespace Fabric

/-- What a logical LUT input reads. -/
inductive LutSource where
  | const (value : Bool)
  /-- A bit of the address, possibly inverted. -/
  | address (bit : Nat) (inverted : Bool)
  deriving DecidableEq, Inhabited, Repr

namespace LutSource

/-- What the input reads at an address. -/
def read (addr : Nat) : LutSource → Bool
  | .const value => value
  | .address bit inverted => addr.testBit bit != inverted

end LutSource

/-- The address bit that a physical pin drives. -/
def addressBit? (fused : Bool) (half : Half) (pin : AlmPin) : Option Nat :=
  if fused then fusedPins.findIdx? (·.contains pin) else half.lutPins.idxOf? pin

/-- What logical input `k` of a placed LUT cell reads. There is nothing if the input needs a
pin and is on none that drives an address bit. -/
def Cell.lutSource? (c : Cell) (fused : Bool) (half : Half) (k : Nat) (port : Ident) :
    Option LutSource :=
  match (c.pinState port).constant? with
  | some value => some (.const value)
  | none =>
    if (c.lut.inputs[k]?).join.isNone then some (.const false)
    else
      (((c.sitePins port).head?.bind AlmPin.ofIdent?).bind (addressBit? fused half)).map fun bit =>
        .address bit (c.pinState port = .inverted)

/-- What the logical inputs of a placed LUT cell read. -/
def Cell.lutSources? (c : Cell) (fused : Bool) (half : Half) : Option (List LutSource) :=
  (lutInputNames.zipIdx.take c.lut.inputCount).mapM fun (port, k) => c.lutSource? fused half k port

/-- The bit of a cell's table that is selected at an address. -/
def tableBit (table : Nat) (sources : List LutSource) (addr : Nat) : Bool :=
  table.testBit (ofBits (sources.map (·.read addr)))

/-- The part of the truth table of an ALM that a LUT fills. -/
def lutMask (fused : Bool) (half : Half) (table : Nat) (sources : List LutSource) : Nat :=
  let addresses := List.range (if fused then 64 else 32)
  let offset := if fused then 0 else 32 * half.index
  ofBits (addresses.map (tableBit table sources)) <<< offset

end Fabric
