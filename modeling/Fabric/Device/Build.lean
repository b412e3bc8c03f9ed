import Fabric.Device.Site

/-!
# Building a device model

A model is built from a chip in two steps. First the blocks of every tile are instantiated,
column by column from the bottom: their sites, and the wires and pips inside them. Then the
chip's routing multiplexers are imported as pips. Last the I/O attributes are recorded, with
a warning for each port that is constrained to a pin that the package lacks.

## Wires inside a LAB

* Each shared control wire is fed by its dedicated input, if its category has one, and then
  by each of the four data lines once; the first data line differs from wire to wire.
* The clock, enable and clear selectors of each half are fed by all shared wires of their
  category, the E/F selector by the two pins of `Half.efPins`.
* The data input of a flip-flop is fed by the LUT output and the E/F selector of its half.
* Each block output is driven by a flip-flop and by the LUT output of the same half.
-/

namespace Fabric

namespace Edit

/-! ### Parts of a block -/

/-- The wire behind a port that the chip has to provide. -/
def requirePort (x y : Nat) (block : BlockKind) (port : ChipPort) (blockIndex portIndex : Int) :
    Edit Wire := do
  let p : BlockPort := ⟨block, .pack x y, port, blockIndex, portIndex⟩
  require ((← get).chip.node? p) (.fault (.noChipPort p))

/-- Makes a wire of a block. -/
def blockWire (x y : Nat) (name : String) : Edit Wire := do
  addWire x y (← intern name) 0

/-- Adds pips from several sources to one wire. -/
def addPips (sources : List Wire) (dst : Wire) : Edit Unit :=
  modify fun d => { d with wires := d.wires.addPips sources dst }

/-- Adds a site for a part of a block. -/
def blockSite (x y : Nat) (name : String) (type : Ident) (blockIndex : Nat) : Edit BelId := do
  let bel ← addBel x y (← intern name) type
  modifySite bel fun s => { s with blockIndex := blockIndex }
  return bel

/-! ### I/O and clock blocks -/

/-- Makes the four I/O sites of an I/O block, each with a pad wire of its own. -/
def buildGpio (x y : Nat) : Edit Unit :=
  (List.range Chip.iosPerBlock).forM fun z => do
    let pad ← blockWire x y s!"PAD[{z}]"
    let bel ← blockSite x y s!"IO{z}" Known.ioSite z
    addBelPin bel Known.pad .inout pad
    addBelPin bel Known.i .input (← requirePort x y .gpio .dataIn z (-1))
    addBelPin bel Known.oe .input (← requirePort x y .gpio .oeIn z (-1))
    addBelPin bel Known.o .output (← requirePort x y .gpio .dataOut z (-1))

/-- Makes the clock buffers of the clock multiplexer, each driving its global clock. -/
def buildClockMux (x y : Nat) : Edit Unit :=
  (List.range Chip.globalClockCount).forM fun z => do
    let bel ← blockSite x y s!"CLKBUF{z}" Known.clockBuffer z
    addBelPin bel Known.a .input (← requirePort x y .clockMux .clkIn (-1) z)
    let out ← blockWire x y s!"CLKBUF[{z}]"
    addBelPin bel Known.q .output out
    addPip out (← requirePort x y .clockMux .clkOut z (-1))

/-! ### LABs -/

/-- Makes a shared control wire, fed by its dedicated input, if any, and by the four data
lines from `firstLine` on, counted round. -/
def buildShared (x y : Nat) (name : String) (dedicated : Option Wire) (firstLine : Nat) :
    Edit Wire := do
  let wire ← blockWire x y name
  addPips dedicated.toList wire
  (List.range Chip.labDataLineCount).forM fun k => do
    let line := (firstLine + k) % Chip.labDataLineCount
    addPip (← requirePort x y .lab .dataIn (-1) line) wire
  return wire

/-- Makes the shared control wires of a LAB. -/
def buildSharedWires (x y : Nat) : Edit (ByKind (List Wire)) := do
  let clk ← (List.range Chip.labClockCount).mapM fun (i : Nat) => do
    buildShared x y s!"CLK{i}" (← requirePort x y .lab .clkIn (-1) i) 0
  let ena ← [(0, 2), (1, 3), (2, 0)].mapM fun (i, line) =>
    buildShared x y s!"ENA{i}" none line
  let aclr ← [(0, 3), (1, 2)].mapM fun (i, line) => do
    buildShared x y s!"ACLR{i}" (← requirePort x y .lab .aclr (i : Nat) (-1)) line
  let sclr ← buildShared x y "SCLR" none 3
  let sload ← buildShared x y "SLOAD" none 1
  return ⟨clk, ena, aclr, [sclr], [sload]⟩

/-- Makes the LUT site of a half of ALM `z`, reading all eight inputs of the ALM. -/
def buildLut (x y lab z : Nat) (inputs : List (AlmPin × Wire)) (half : Half) :
    Edit (Wire × BelId) := do
  let i := half.index
  let out ← blockWire x y s!"COMBOUT[{z * 2 + i}]"
  let bel ← addBel x y (← intern s!"ALM{z}_COMB{i}") Known.combSite
  inputs.forM fun (pin, wire) => addBelPin bel pin.ident .input wire
  addBelPin bel Known.combOut .output out
  modifySite bel fun s => { s with blockIndex := z, place := some ⟨lab, z, i⟩ }
  return (out, bel)

/-- The selectors of one half of an ALM. -/
structure HalfSelectors where
  clk : Wire
  ena : Wire
  aclr : Wire
  ef : Wire
  deriving Inhabited

/-- Makes the selectors of a half of ALM `z`. -/
def buildSelectors (x y z : Nat) (shared : ByKind (List Wire)) (inputs : List (AlmPin × Wire))
    (half : Half) : Edit HalfSelectors := do
  let letter := match half with
    | .top => "T"
    | .bottom => "B"
  let clk ← blockWire x y s!"CLK{letter}[{z}]"
  addPips shared.clk clk
  let ena ← blockWire x y s!"ENA{letter}[{z}]"
  addPips shared.ena ena
  let aclr ← blockWire x y s!"ACLR{letter}[{z}]"
  addPips shared.aclr aclr
  let ef ← blockWire x y s!"{letter}EF[{z}]"
  addPips (half.efPins.flatMap fun pin => (Table.get? inputs pin).toList) ef
  return ⟨clk, ena, aclr, ef⟩

/-- The block outputs that a flip-flop of a half drives. The second flip-flop of a half has
a local output besides. -/
def flopOutputs : Half → Nat → List AlmOutput
  | .top, 0 => [.top0]
  | .top, _ => [.top1, .topLocal]
  | .bottom, 0 => [.bottom0]
  | .bottom, _ => [.bottom1, .bottomLocal]

/-- Makes flip-flop `k` of a half of ALM `z`. Returns its data input, output and site. -/
def buildFlop (x y lab z : Nat) (shared : ByKind (List Wire)) (combOut : Wire)
    (selectors : HalfSelectors) (half : Half) (k : Nat) : Edit (Wire × Wire × BelId) := do
  let i := half.index * 2 + k
  let data ← blockWire x y s!"FFIN[{z * 4 + i}]"
  addPips [combOut, selectors.ef] data
  let q ← blockWire x y s!"FFOUT[{z * 4 + i}]"
  let bel ← addBel x y (← intern s!"ALM{z}_FF{i}") Known.flipFlop
  addBelPin bel Known.clk .input selectors.clk
  addBelPin bel Known.ena .input selectors.ena
  addBelPin bel Known.aclr .input selectors.aclr
  shared.sclr.forM (addBelPin bel Known.sclr .input)
  shared.sload.forM (addBelPin bel Known.sload .input)
  addBelPin bel Known.sdata .input selectors.ef
  addBelPin bel Known.dataIn .input data
  addBelPin bel Known.q .output q
  modifySite bel fun s => { s with blockIndex := z, place := some ⟨lab, z, i⟩ }
  let outputs ← (flopOutputs half k).mapM fun o => requirePort x y .lab (.almOutput o) z (-1)
  outputs.forM (addPips [q, combOut])
  return (data, q, bel)

/-- Makes ALM `z` of a LAB. -/
def buildAlm (x y lab : Nat) (shared : ByKind (List Wire)) (z : Nat) : Edit Alm := do
  let inputs ← AlmPin.all.mapM fun pin => do
    return (pin, ← requirePort x y .lab (.almInput pin) z (-1))
  let (topOut, topLut) ← buildLut x y lab z inputs .top
  let (bottomOut, bottomLut) ← buildLut x y lab z inputs .bottom
  let top ← buildSelectors x y z shared inputs .top
  let bottom ← buildSelectors x y z shared inputs .bottom
  let (in0, out0, ff0) ← buildFlop x y lab z shared topOut top .top 0
  let (in1, out1, ff1) ← buildFlop x y lab z shared topOut top .top 1
  let (in2, out2, ff2) ← buildFlop x y lab z shared bottomOut bottom .bottom 0
  let (in3, out3, ff3) ← buildFlop x y lab z shared bottomOut bottom .bottom 1
  return {
    combOut := ⟨topOut, bottomOut⟩
    clkSelector := ⟨top.clk, bottom.clk⟩
    enaSelector := ⟨top.ena, bottom.ena⟩
    aclrSelector := ⟨top.aclr, bottom.aclr⟩
    efSelector := ⟨top.ef, bottom.ef⟩
    ffIn := ⟨(in0, in1), (in2, in3)⟩
    ffOut := ⟨(out0, out1), (out2, out3)⟩
    lutSites := ⟨topLut, bottomLut⟩
    ffSites := ⟨(ff0, ff1), (ff2, ff3)⟩ }

/-- Makes a LAB. -/
def buildLab (x y : Nat) : Edit Unit := do
  let lab := (← get).labs.size
  let shared ← buildSharedWires x y
  let alms ← (List.range Chip.almsPerLab).mapM (buildAlm x y lab shared)
  modify fun d => { d with
    labs := d.labs.push { pos := .pack x y, alms := alms.toArray, shared := shared } }

/-! ### The whole device -/

/-- Instantiates a block in a tile. -/
def buildBlock (x y : Nat) : BlockKind → Edit Unit
  | .lab => buildLab x y
  | .gpio => buildGpio x y
  | .clockMux => buildClockMux x y

/-- Instantiates the blocks that a layout puts into the tiles, and reports their number. -/
def buildBlocks (layout : Nat → Nat → List BlockKind) : Edit Unit := do
  (← get).chip.tiles.forM fun (x, y) => (layout x y).forM (buildBlock x y)
  let d ← get
  log {
    severity := .info
    code := .sites
    message := s!"initialised {d.bels.size} bels in {d.labs.size} LABs on {d.chip.part}" }

/-- Imports the routing multiplexers of the chip as pips, and reports their number. -/
def importRouting : Edit Unit := do
  let muxes := (← get).chip.muxes
  muxes.forM fun mux => addPips mux.sources mux.dst
  let pips := (muxes.map fun mux => mux.sources.length).foldr (· + ·) 0
  log {
    severity := .info
    code := .routing
    message := s!"imported {(← get).wires.size} wires and {pips} pips" }

/-- Records the attributes of one port. -/
def recordPort (port : String) (attributes : Table String AttrValue) : Edit Unit := do
  let portId ← intern port
  modify fun d => { d with ioAttributes := d.ioAttributes.update portId [] id }
  attributes.forM fun (key, value) => do
    let keyId ← intern key
    modify fun d => { d with
      ioAttributes := d.ioAttributes.update portId [] (·.insert keyId value) }
  match attributes.get? "PIN" with
  | some (.text pin) =>
    let d ← get
    if (d.belOfPin? pin).isNone then
      log {
        severity := .warning
        code := .packagePin
        message := s!"unknown package pin '{pin}'"
        subject := some port
        notes := [s!"{d.chip.part} has no such pin"] }
  | _ => pure ()

/-- Builds the whole device from a layout of blocks. -/
def build (layout : Nat → Nat → List BlockKind) : Edit Unit := do
  buildBlocks layout
  importRouting
  (← get).selection.io.sorted.forM fun (port, attributes) => recordPort port attributes

end Edit

namespace Device

/-- The model of a chip whose tiles hold the blocks of a layout. -/
def ofLayout (selection : Selection) (chip : Chip) (layout : Nat → Nat → List BlockKind) :
    Except Error Device :=
  match (Edit.build layout).run (blank selection chip) with
  | (.ok (), d) => .ok d
  | (.error e, _) => .error e

/-- The model of the device that is selected. -/
def ofSelection (selection : Selection) : Except Error Device := do
  let chip ← selection.chip
  ofLayout selection chip fun x y => (chip.blockAt x y).toList

/-- A one-line description of a model. -/
def describe (d : Device) : String :=
  let sizes := s!"bels: {d.bels.size}, wires: {d.wires.size}, labs: {d.labs.size}"
  s!"Arch \x7b chip: {d.chip.describe}, {sizes} \x7d"

end Device

end Fabric
