import Fabric.Alm.Pin
import Fabric.Netlist.Cell

/-!
# Planning the inputs of an ALM

The occupants of an ALM compete for its eight physical inputs: the live inputs of its LUTs,
and the flip-flop data that comes from outside, which enters through an E/F selector. A
*plan* says which pin each of them uses. A pin carries one net at most, and several inputs
on one net can use one pin.

## The rules

* A LUT input is live if it is connected and not tied; the other inputs use no pin.
* A flip-flop whose data is the output of the LUT of its own half takes it from there; any
  other data, and the data of a synchronous load, takes the E/F selector. The flip-flops of
  a half can therefore demand one E/F net at most.
* The pins of the E/F nets are chosen first, every choice being tried in turn.
* Fused: each logical input uses its own pins.
* Split: nets on both halves take `A` and `B` while those are free. Then each half, top
  first, puts each net on a pin that carries it already, else on its first free pin, the
  private ones before the shared ones.
-/

namespace Fabric

/-! ### Demands -/

/-- What one LUT demands of the pins. -/
structure LutDemand where
  /-- The nets of the live inputs, by logical input. -/
  inputs : List (Option NetId)
  output : Option NetId
  /-- Whether the LUT has six inputs, and so needs both halves. -/
  sixInput : Bool
  deriving DecidableEq, Inhabited, Repr

/-- What the occupants of an ALM demand of its pins. -/
structure AlmDemand where
  luts : Halves (Option LutDemand)
  flops : Flops (Option FlipFlopInfo)
  deriving Inhabited, Repr

/-- Where a flip-flop takes its data from. -/
inductive FlopSource where
  /-- Nowhere: the data input is open. -/
  | open
  /-- From the LUT of its half. -/
  | lut
  /-- From the E/F selector of its half. -/
  | selector
  deriving DecidableEq, Inhabited, Repr

/-- The word for a source. -/
def FlopSource.name : FlopSource → String
  | .open => "none"
  | .lut => "comb"
  | .selector => "ef"

/-- The source of the data of a flip-flop beside a LUT with the given output. -/
def FlipFlopInfo.source (info : FlipFlopInfo) (lutOutput : Option NetId) : FlopSource :=
  match info.dataIn with
  | none => .open
  | some net => if lutOutput = some net then .lut else .selector

/-- The nets that a flip-flop takes through the E/F selector. -/
def FlipFlopInfo.selectorNets (info : FlipFlopInfo) (lutOutput : Option NetId) : List NetId :=
  (if info.source lutOutput = .selector then info.dataIn.toList else []) ++ info.sdata.toList

namespace AlmDemand

/-- The output of the LUT of a half. -/
def lutOutput (d : AlmDemand) (half : Half) : Option NetId :=
  (d.luts.get half).bind LutDemand.output

/-- The live nets of the LUT of a half, in order of its inputs. -/
def lutNets (d : AlmDemand) (half : Half) : List NetId :=
  ((d.luts.get half).map fun lut => lut.inputs.reduceOption).getD []

/-- The nets that the flip-flops of a half take through its E/F selector. -/
def selectorNets (d : AlmDemand) (half : Half) : List NetId :=
  let nets (flop : Option FlipFlopInfo) : List NetId :=
    (flop.map (·.selectorNets (d.lutOutput half))).getD []
  nets (d.flops.get half).1 ++ nets (d.flops.get half).2

/-- Where the flip-flops of a half take their data from. -/
def flopSources (d : AlmDemand) (half : Half) : FlopSource × FlopSource :=
  let source (flop : Option FlipFlopInfo) : FlopSource :=
    (flop.map (·.source (d.lutOutput half))).getD .open
  (source (d.flops.get half).1, source (d.flops.get half).2)

/-- Whether some LUT has six inputs. -/
def isFused (d : AlmDemand) : Bool := d.luts.toList.any (·.any (·.sixInput))

/-- The number of LUTs. -/
def lutCount (d : AlmDemand) : Nat := d.luts.toList.countP (·.isSome)

end AlmDemand

/-! ### Nets on pins -/

/-- The net that each pin carries. -/
abbrev PinNets := AlmPin → Option NetId

namespace PinNets

/-- No pin carries a net. -/
def free : PinNets := fun _ => none

/-- Puts a net on a pin. -/
def put (nets : PinNets) (pin : AlmPin) (net : NetId) : PinNets :=
  fun p => if p = pin then some net else nets p

/-- Puts a net on a pin that is free or carries it already. -/
def claim? (nets : PinNets) (pin : AlmPin) (net : NetId) : Option PinNets :=
  match nets pin with
  | none => some (nets.put pin net)
  | some other => if other = net then some nets else none

/-- Puts a net on several pins. -/
def claimAll? (nets : PinNets) (pins : List AlmPin) (net : NetId) : Option PinNets :=
  pins.foldlM (fun nets pin => nets.claim? pin net) nets

/-- The first of some pins that carries a net. -/
def carrier? (nets : PinNets) (pins : List AlmPin) (net : NetId) : Option AlmPin :=
  pins.find? fun p => nets p = some net

/-- The first of some pins that carries nothing. -/
def firstFree? (nets : PinNets) (pins : List AlmPin) : Option AlmPin :=
  pins.find? fun p => (nets p).isNone

end PinNets

/-! ### Plans -/

/-- The pins that the inputs of an ALM use. -/
structure InputPlan where
  /-- Whether one LUT spans both halves. -/
  fused : Bool
  /-- The pin of each logical input of each LUT; in fused mode the first of its pins. -/
  lutPins : Halves (List (Option AlmPin))
  /-- The pin that each E/F selector reads. -/
  efPins : Halves (Option AlmPin)
  flopSource : Flops FlopSource
  deriving DecidableEq, Inhabited, Repr

namespace InputPlan

/-- No input uses a pin. -/
def noPins : List (Option AlmPin) := List.replicate 6 none

/-- The site pins that logical input `k` of the LUT of a half uses. -/
def sitePins (p : InputPlan) (half : Half) (k : Nat) : List Ident :=
  match ((p.lutPins.get half)[k]?).join with
  | none => []
  | some pin => if p.fused then (fusedPins.getD k []).map AlmPin.ident else [pin.ident]

/-! ### Fused mode -/

/-- Puts each live input on all of its own pins. -/
def placeFused? : List (Option NetId × List AlmPin) → PinNets →
    Option (List (Option AlmPin) × PinNets)
  | [], nets => some ([], nets)
  | (none, _) :: rest, nets => do
    let (pins, nets) ← placeFused? rest nets
    return (none :: pins, nets)
  | (some net, own) :: rest, nets => do
    let nets ← nets.claimAll? own net
    let (pins, nets) ← placeFused? rest nets
    return (own.head? :: pins, nets)

/-- Puts the inputs of the LUT of a half, if there is one, on their own pins. -/
def fusedHalf? (lut : Option LutDemand) (nets : PinNets) :
    Option (List (Option AlmPin) × PinNets) :=
  match lut with
  | none => some (noPins, nets)
  | some lut => placeFused? (lut.inputs.zip fusedPins) nets

/-! ### Split mode -/

/-- Puts a net on `A` or `B` if it is on both halves and neither carries it yet, and one of
them is free. -/
def share (others : List NetId) (nets : PinNets) (net : NetId) : PinNets :=
  if net ∈ others ∧ nets.carrier? [.a, .b] net = none then
    match nets.firstFree? [.a, .b] with
    | some pin => nets.put pin net
    | none => nets
  else nets

/-- Puts a net on a pin that a half reads. -/
def placeNet? (half : Half) (nets : PinNets) (net : NetId) : Option (AlmPin × PinNets) :=
  match nets.carrier? half.lutPins net with
  | some pin => some (pin, nets)
  | none => (nets.firstFree? half.freeOrder).map fun pin => (pin, nets.put pin net)

/-- Puts each live input on a pin that a half reads. -/
def placeSplit? (half : Half) : List (Option NetId) → PinNets →
    Option (List (Option AlmPin) × PinNets)
  | [], nets => some ([], nets)
  | none :: rest, nets => do
    let (pins, nets) ← placeSplit? half rest nets
    return (none :: pins, nets)
  | some net :: rest, nets => do
    let (pin, nets) ← placeNet? half nets net
    let (pins, nets) ← placeSplit? half rest nets
    return (some pin :: pins, nets)

/-- Puts the inputs of the LUT of a half, if there is one, on pins that it reads. -/
def splitHalf? (half : Half) (lut : Option LutDemand) (nets : PinNets) :
    Option (List (Option AlmPin) × PinNets) :=
  match lut with
  | none => some (noPins, nets)
  | some lut => placeSplit? half lut.inputs nets

/-! ### The plan -/

/-- The pins of the LUT inputs, once the E/F nets have theirs. -/
def lutPins? (d : AlmDemand) (nets : PinNets) : Option (Halves (List (Option AlmPin))) :=
  if d.isFused then do
    let (top, nets) ← fusedHalf? d.luts.top nets
    let (bottom, _) ← fusedHalf? d.luts.bottom nets
    return ⟨top, bottom⟩
  else do
    let shared := (d.lutNets .top).foldl (share (d.lutNets .bottom)) nets
    let (top, nets) ← splitHalf? .top d.luts.top shared
    let (bottom, _) ← splitHalf? .bottom d.luts.bottom nets
    return ⟨top, bottom⟩

/-- Puts the E/F net of a half, if there is one, on a pin. -/
def claimEf? (net : Option NetId) (pin : Option AlmPin) (nets : PinNets) : Option PinNets :=
  match net, pin with
  | some net, some pin => nets.claim? pin net
  | _, _ => some nets

/-- The one net among some, if they are all the same; `none` if there are two. -/
def onlyNet? : List NetId → Option (Option NetId)
  | [] => some none
  | net :: rest => if rest.all (· == net) then some (some net) else none

/-- The pins that may feed the E/F selector of a half with the given net. -/
def efChoices (half : Half) (net : Option NetId) : List (Option AlmPin) :=
  if net.isSome then half.efPins.map some else [none]

/-- The pins of all inputs for one choice of the E/F pins. -/
def tryChoice? (d : AlmDemand) (efNets : Halves (Option NetId)) (top bottom : Option AlmPin) :
    Option InputPlan := do
  let nets ← claimEf? efNets.top top .free
  let nets ← claimEf? efNets.bottom bottom nets
  let lutPins ← lutPins? d nets
  return {
    fused := d.isFused
    lutPins := lutPins
    efPins := ⟨top, bottom⟩
    flopSource := .ofFn d.flopSources }

/-- Plans the inputs of an ALM. There is no plan if its occupants cannot share the pins. -/
def ofDemand? (d : AlmDemand) : Option InputPlan := do
  if d.isFused ∧ 1 < d.lutCount then none
  let top ← onlyNet? (d.selectorNets .top)
  let bottom ← onlyNet? (d.selectorNets .bottom)
  let choices := (efChoices .top top).flatMap fun t => (efChoices .bottom bottom).map (t, ·)
  choices.findSome? fun (t, b) => tryChoice? d ⟨top, bottom⟩ t b

end InputPlan

end Fabric
