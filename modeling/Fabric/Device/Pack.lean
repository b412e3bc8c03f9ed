import Fabric.Alm.Mask
import Fabric.Alm.Plan
import Fabric.Device.Build
import Fabric.Device.Control

/-!
# Packing

An ALM is legal when its LUTs fit the truth table, the flip-flops of each half agree on
their control signals, and its inputs can be planned. Preparing a device for routing assigns
the control sets of every LAB and applies the plan of every ALM that holds a cell.
-/

namespace Fabric

namespace Device

/-! ### Plans and legality -/

/-- What a LUT cell demands of the pins: inputs that are tied are folded into its table. -/
def lutDemand (d : Device) (id : CellId) : LutDemand :=
  let info := d.netlist.lutInfo id
  let inputs := lutInputNames.zipIdx.map fun (port, k) =>
    if k < info.inputCount ∧ ¬ (d.netlist.pinState id port).isTied then (info.inputs[k]?).join
    else none
  { inputs := inputs, output := info.output, sixInput := info.inputCount = 6 }

/-- What the cells placed in an ALM demand of its pins. -/
def almDemand (d : Device) (a : Alm) : AlmDemand where
  luts := (d.lutCells a).map fun cell => cell.map d.lutDemand
  flops := (d.flopCells a).mapFlops fun cell => cell.map d.netlist.flipFlopInfo

/-- The input plan of an ALM, if its occupants can share the pins. -/
def planAlm? (d : Device) (lab alm : Nat) : Option InputPlan :=
  (d.alm? lab alm).bind fun a => InputPlan.ofDemand? (d.almDemand a)

/-- The number of truth table bits that the LUTs of an ALM need. -/
def lutBits (d : Device) (a : Alm) : Nat :=
  ((d.lutCells a).toList.map fun cell =>
    (cell.map fun id => (d.netlist.lutInfo id).tableBits).getD 0).foldr (· + ·) 0

/-- Whether two flip-flops of one half, if both are there, agree on their control signals. -/
def agree (d : Device) : Option CellId × Option CellId → Bool
  | (some a, some b) => (d.netlist.flipFlopInfo a).control = (d.netlist.flipFlopInfo b).control
  | _ => true

/-- Whether an ALM is legal on its own. -/
def isAlmLegal (d : Device) (lab alm : Nat) : Bool :=
  match d.alm? lab alm with
  | none => false
  | some a =>
    d.lutBits a ≤ 64 && (Halves.toList (d.flopCells a)).all d.agree
      && (d.planAlm? lab alm).isSome

/-- Whether a site may hold what is placed on it. For a logic site this is so when its ALM is
legal on its own; control sets are not looked at. -/
def isValidAt (d : Device) (bel : BelId) : Bool :=
  match d.site? bel with
  | none => false
  | some site => site.place.all fun place => d.isAlmLegal place.lab place.alm

/-! ### Truth tables -/

/-- The part of the truth table of an ALM that the cell in a half fills; none if an input of
the cell is on no pin that the half reads. -/
def halfMask? (d : Device) (a : Alm) (half : Half) : Option Nat :=
  match ((d.lutCells a).get half).bind d.netlist.cell? with
  | none => some 0
  | some cell =>
    (cell.lutSources? a.fused half).map fun sources => lutMask a.fused half cell.lut.table sources

/-- The truth table of an ALM, from the site pins that its LUT inputs use. -/
def lutMask (d : Device) (lab alm : Nat) : Except Error Nat :=
  match (d.alm? lab alm).bind fun a => do
    return (← d.halfMask? a .top) ||| (← d.halfMask? a .bottom) with
  | some mask => .ok mask
  | none => .error (.illegalAlm lab alm)

end Device

namespace Edit

/-! ### Applying a plan -/

/-- Sets the site pins of a LUT cell as planned. -/
def applyLutPlan (plan : InputPlan) (half : Half) (c : Cell) : Cell :=
  let c := lutInputNames.zipIdx.foldl (fun c (port, k) =>
    if c.ports.contains port then c.setSitePins port (plan.sitePins half k) else c) c
  if c.ports.contains Known.q then c.setSitePins Known.q [Known.combOut] else c

/-- Reserves the E/F selector of a half for its planned pin. -/
def reserveSelector (pos : Pos) (alm : Nat) (selector : Wire) (pin : Option AlmPin) :
    Edit Unit := do
  unreserve selector
  if let some pin := pin then
    reserve (← requirePort pos.x pos.y .lab (.almInput pin) alm (-1)) selector

/-- Reserves the data input of a flip-flop for its planned source. -/
def reserveData (lutOutput selector data : Wire) (source : FlopSource) : Edit Unit := do
  unreserve data
  match source with
  | .open => pure ()
  | .lut => reserve lutOutput data
  | .selector => reserve selector data

/-- Applies the input plan of an ALM: sets its mode and the site pins of its LUT inputs, and
reserves its E/F selectors and flip-flop data inputs. -/
def reassignInputs (lab alm : Nat) : Edit Unit := do
  let d ← get
  match d.planAlm? lab alm, d.labs[lab]?, d.alm? lab alm with
  | some plan, some labInfo, some a =>
    let luts := d.lutCells a
    modify fun d => { d with
      labs := d.labs.modify lab fun l => { l with
        alms := l.alms.modify alm fun a => { a with fused := plan.fused } } }
    Half.all.forM fun half =>
      (luts.get half).forM fun id =>
        modify fun d => { d with netlist := d.netlist.modifyCell id (applyLutPlan plan half) }
    Half.all.forM fun half =>
      reserveSelector labInfo.pos alm (a.efSelector.get half) (plan.efPins.get half)
    Half.all.forM fun half => do
      let data := a.ffIn.get half
      let source := plan.flopSource.get half
      reserveData (a.combOut.get half) (a.efSelector.get half) data.1 source.1
      reserveData (a.combOut.get half) (a.efSelector.get half) data.2 source.2
  | _, _, _ => throw (.illegalAlm lab alm)

/-! ### Preparing for routing -/

/-- Whether a cell is placed in an ALM. -/
def isOccupied (d : Device) (a : Alm) : Bool :=
  (d.lutCells a).toList.any (·.isSome) || (d.flopCells a).toList.any (·.isSome)

/-- Prepares one LAB. Returns whether it holds a cell. -/
def preRouteLab (lab : Nat) : Edit Bool := do
  assignControlSets lab
  let used ← (List.range Chip.almsPerLab).mapM fun alm => do
    let d ← get
    if (d.alm? lab alm).any (isOccupied d) then
      reassignInputs lab alm
      return true
    else return false
  return used.any id

/-- Assigns the control sets of every LAB and applies the input plan of every ALM
that holds a cell. -/
def preRoute : Edit Unit := do
  let labs := (← get).labs.size
  let used ← (List.range labs).mapM preRouteLab
  log {
    severity := .info
    code := .preRoute
    message := s!"pre-routed {used.count true} of {labs} LABs" }

end Edit

end Fabric
