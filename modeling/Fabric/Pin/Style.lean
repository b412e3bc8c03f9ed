import Fabric.Pin.CellType

/-!
# Pin styles

What a cell pin supports (being tied low or high, being inverted in place), what it is
driven with when nothing is connected, and whether it counts as a clock.

A style also has a packed form: bits 0, 1, 2 for tying low, tying high and inverting, bits
4 and 5 for a default of zero or one, bit 8 for a clock.
-/

namespace Fabric

/-- What a cell pin supports. -/
structure PinStyle where
  /-- The pin may be tied to zero. -/
  tieLow : Bool := false
  /-- The pin may be tied to one. -/
  tieHigh : Bool := false
  /-- The cell can invert the pin in place. -/
  invert : Bool := false
  /-- The constant that an unused pin is driven with. -/
  unused : Option Bool := none
  /-- The pin is a clock for global-network purposes. -/
  globalClock : Bool := false
  deriving DecidableEq, Inhabited, Repr

namespace PinStyle

/-- The packed form of a style. -/
def bits (s : PinStyle) : Nat :=
  s.tieLow.toNat + 2 * s.tieHigh.toNat + 4 * s.invert.toNat
    + (match s.unused with
      | none => 0
      | some false => 0x10
      | some true => 0x20)
    + 0x100 * s.globalClock.toNat

/-! ### The styles in use -/

/-- Nothing is supported; the signal is used as it is. -/
def plain : PinStyle := {}

/-- A LUT input: low when unused, can be tied and inverted. -/
def lutInput : PinStyle :=
  { tieLow := true, tieHigh := true, invert := true, unused := some false }

/-- A clock: can be tied and inverted, left open when unused. -/
def clock : PinStyle := { tieLow := true, tieHigh := true, invert := true, globalClock := true }

/-- A clock enable: enabled when unused, not invertible. -/
def enable : PinStyle := { tieLow := true, tieHigh := true, unused := some true }

/-- A clear or load: not asserted when unused, not invertible. -/
def reset : PinStyle := { tieLow := true, tieHigh := true, unused := some false }

/-- A general input: can be tied low only. -/
def general : PinStyle := { tieLow := true }

/-- A pin that floats high: high when unused, can be tied high only. -/
def pullUp : PinStyle := { tieHigh := true, unused := some true }

/-- The names of the styles and of the options they are made of. -/
def named : List (String × PinStyle) :=
  [("PINOPT_NONE", plain), ("PINOPT_LO", { tieLow := true }), ("PINOPT_HI", { tieHigh := true }),
    ("PINOPT_INV", { invert := true }), ("PINOPT_LOHI", { tieLow := true, tieHigh := true }),
    ("PINOPT_LOHIINV", { tieLow := true, tieHigh := true, invert := true }),
    ("PINDEF_NONE", plain), ("PINDEF_0", { unused := some false }),
    ("PINDEF_1", { unused := some true }), ("PINGLB_CLK", { globalClock := true }),
    ("PINSTYLE_NONE", plain), ("PINSTYLE_COMB", lutInput), ("PINSTYLE_CLK", clock),
    ("PINSTYLE_CE", enable), ("PINSTYLE_RST", reset), ("PINSTYLE_DEDI", plain),
    ("PINSTYLE_INP", general), ("PINSTYLE_PU", pullUp)]

/-! ### Styles of cell pins -/

/-- The style of a pin of a flip-flop. -/
def ofFlipFlopPin (pin : Ident) : PinStyle :=
  if pin = Known.clk then clock
  else if pin = Known.ena then enable
  else if pin = Known.aclr ∨ pin = Known.sclr ∨ pin = Known.sload then reset
  else if pin = Known.dataIn then general
  else plain

/-- The style of a pin of a cell: every pin of a logic cell that has inputs is a LUT input. -/
def ofCellPin (type pin : Ident) : PinStyle :=
  if type = Known.flipFlop then ofFlipFlopPin pin
  else match CellType.logicInputs? type with
    | none | some 0 => plain
    | some _ => lutInput

end PinStyle

end Fabric
