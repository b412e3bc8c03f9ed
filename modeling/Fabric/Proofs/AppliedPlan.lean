import Fabric.Proofs.LabTopology
import Fabric.Proofs.RepeatedPacking
import Fabric.Proofs.RepeatedPreparation

/-!
# What an applied plan is on the device

A plan speaks of pins and sources, the device of wires and reservations. Applying the plan of an ALM
*realises* it: the mode and the site pins are those of the plan, and the data of each flip-flop has
one way in, from the LUT of its half or through the E/F selector, which reads the chip wire behind
the planned pin. What needs no driver has none, whatever an earlier plan reserved.

## Main results

* `flopSource_flop`: the source of every flip-flop place in a plan;
* `HasLab.realises`: a model with the planned design and the planned drivers realises the plan;
* `realises_reassignInputs`: the plan of an ALM can be applied and is realised then, and applying it
  again leaves the same model.
-/

namespace Fabric

namespace Device

/-! ### What a plan asks for -/

/-- The net at the data input of a flip-flop of an ALM. -/
def flopData (d : Device) (a : Alm) (half : Half) (second : Bool) : Option NetId :=
  ((d.flopCells a).flop half second).bind fun id => (d.netlist.flipFlopInfo id).dataIn

/-- The chip wire of a pin of an ALM. -/
def pinWire? (d : Device) (lab alm : Nat) (pin : AlmPin) : Option Wire :=
  (d.labs[lab]?).bind fun info => d.chip.node? ⟨.lab, info.pos, .almInput pin, alm, -1⟩

/-- A model realises a plan for an ALM of another one. -/
structure Realises (d : Device) (lab alm : Nat) (a : Alm) (plan : InputPlan)
    (d' : Device) : Prop where
  mode : d'.alm? lab alm = some { a with fused := plan.fused }
  /-- A logical input that is a port of its LUT cell has the planned site pins. -/
  sitePins : ∀ half id c (k : Nat) port, (d.lutCells a).get half = some id →
    d.netlist.cell? id = some c → lutInputNames[k]? = some port → c.ports.contains port = true →
    d'.netlist.sitePins id port = plan.sitePins half k
  /-- Data that the LUT of the half drives comes from there, any other through the E/F selector. -/
  data : ∀ half second net, d.flopData a half second = some net →
    d'.wires.reservedDriver? (a.ffIn.flop half second) =
      some (if d.lutOutput a half = some net then a.combOut.get half else a.efSelector.get half)
  noData : ∀ half second, d.flopData a half second = none →
    d'.wires.reservedDriver? (a.ffIn.flop half second) = none
  /-- An E/F selector that is needed reads the chip wire of its planned pin. -/
  selector : ∀ half net, d.NeedsSelector a half net → ∃ pin ∈ half.efPins, ∃ src,
    plan.efPins.get half = some pin ∧ d.pinWire? lab alm pin = some src ∧
      d'.wires.reservedDriver? (a.efSelector.get half) = some src
  idle : ∀ half, (∀ net, ¬ d.NeedsSelector a half net) →
    d'.wires.reservedDriver? (a.efSelector.get half) = none

variable {d d' : Device} {lab z x y : Nat} {info : Lab} {a : Alm} {plan : InputPlan}

/-- The source of a flip-flop in a plan, also where there is no flip-flop. -/
theorem flopSource_flop (hplan : InputPlan.ofDemand? (d.almDemand a) = some plan) (half : Half)
    (second : Bool) : plan.flopSource.flop half second =
      match d.flopData a half second with
      | none => .open
      | some net => if d.lutOutput a half = some net then .lut else .selector := by
  obtain ⟨nets, hsound⟩ := InputPlan.ofDemand?_sound hplan
  rw [hsound.sources, flopData]
  cases hid : (d.flopCells a).flop half second with
  | some id =>
      rw [flopSources_flop d a half second hid, Option.bind_some]
      rfl
  | none =>
      have hflop := almDemand_flops_flop d a half second
      rw [hid] at hflop
      cases second <;> simp_all [Flops.flop, AlmDemand.flopSources]

namespace HasLab

/-- The chip wire of a pin. -/
theorem pinWire?_eq (h : d.HasLab info x y) (hlab : d.labs[lab]? = some info)
    (ha : info.alms[z]? = some a) (pin : AlmPin) :
    d.pinWire? lab z pin = some (almInput x y z pin) := by
  rw [pinWire?, hlab, Option.bind_some, h.pos]
  exact node?_almInput h.toIsTile (h.getElem?_alms ha).1 pin

/-- A model with the planned design and the planned drivers realises the plan. -/
theorem realises (h : d.HasLab info x y) (hd : d.Placed) (hlab : d.labs[lab]? = some info)
    (ha : info.alms[z]? = some a) (hplan : d.planAlm? lab z = some plan)
    (hsame : SameDesign (d.planned lab z plan (d.lutCells a)) d')
    (hdriver : d'.wires.reservedDriver? =
      redriven (plannedDrivers x y z a plan) d.wires.reservedDriver?) :
    d.Realises lab z a plan d' := by
  have halm : d.alm? lab z = some a := by rw [alm?, hlab, Option.bind_some, ha]
  have hdemand : InputPlan.ofDemand? (d.almDemand a) = some plan := by
    rwa [planAlm?, halm, Option.bind_some] at hplan
  obtain ⟨nets, hsound⟩ := InputPlan.ofDemand?_sound hdemand
  constructor
  case mode => exact alm?_of_planned halm hsame
  case sitePins =>
    intro half id c k port hid hc hport hcontains
    have hne (half other : Half) (id : CellId) (hid : (d.lutCells a).get half = some id)
        (hid' : (d.lutCells a).get other = some id) : half = other :=
      hd.half_eq (h.lutSites_ne ha) hid hid'
    rw [Netlist.sitePins, hsame.netlist, cell?_planned hne hid, hc, Option.map_some,
      Option.map_some, Option.getD_some, Edit.sitePins_applyLutPlan plan half hport hcontains]
  case data =>
    intro half second net hnet
    rw [hdriver, h.driver_ffIn ha, flopSource_flop hdemand, hnet]
    dsimp only
    split <;> rfl
  case noData =>
    intro half second hnone
    rw [hdriver, h.driver_ffIn ha, flopSource_flop hdemand, hnone]
    rfl
  case selector =>
    intro half net hneeds
    obtain ⟨-, pin, hmem, hpin, -⟩ :=
      hsound.selector half net ((mem_almDemand_selectorNets d a half net).mpr hneeds)
    refine ⟨pin, hmem, almInput x y z pin, hpin, h.pinWire?_eq hlab ha pin, ?_⟩
    rw [hdriver, h.driver_efSelector ha, hpin, Option.map_some]
  case idle =>
    intro half hidle
    have hnone : (d.almDemand a).selectorNets half = [] :=
      List.eq_nil_iff_forall_not_mem.mpr fun net hnet =>
        hidle net ((mem_almDemand_selectorNets d a half net).mp hnet)
    rw [hdriver, h.driver_efSelector ha, hsound.unused half hnone, Option.map_none]

end HasLab

/-- **An applied plan is realised.** On a built device, whatever was placed on it, the plan of an
ALM can be applied and is realised then, and applying it again leaves the same model but for the
records. If there is no plan, the model stays as it was. -/
theorem realises_reassignInputs {selection : Selection} {d₀ d : Device}
    (hbuilt : ofSelection selection = .ok d₀) (hhardware : d.hardware = d₀.hardware)
    (hd : d.Placed) {lab alm : Nat} {a : Alm} (ha : d.alm? lab alm = some a) :
    (∀ plan, d.planAlm? lab alm = some plan →
      ∃ d' d'', (Edit.reassignInputs lab alm).run d = (.ok (), d') ∧ d.Realises lab alm a plan d' ∧
        (Edit.reassignInputs lab alm).run d' = (.ok (), d'') ∧ d'.SameButRecords d'') ∧
    (d.planAlm? lab alm = none →
      (Edit.reassignInputs lab alm).run d = (.error (.illegalAlm lab alm), d)) := by
  obtain ⟨info, hlab, hz⟩ := Option.bind_eq_some_iff.mp ha
  obtain ⟨x, y, h⟩ := exists_hasLab hbuilt hhardware hlab
  constructor
  · intro plan hplan
    obtain ⟨d', hrun, hsame, hdriver⟩ := Edit.exists_run_reassignInputs hlab h hz hplan
    obtain ⟨answer, mid, d'', hfirst, hagain, hmid⟩ :=
      PackingCall.exists_run_again (.inputs lab alm) d
    obtain ⟨rfl, rfl⟩ := Prod.mk.inj (hrun.symm.trans hfirst)
    exact ⟨d', d'', hrun, h.realises hd hlab hz hplan hsame hdriver, hagain, hmid⟩
  · exact Edit.run_reassignInputs_of_none

/-- The flip-flop that takes its data from outside has it from the chip wire of `E0`, through the
selector of its half. -/
theorem realises_reassignInputs_fed : ∃ d₀ d d' a src, ofSelection (.ofGrid 3 2) = .ok d₀ ∧
    d.hardware = d₀.hardware ∧ d.Placed ∧ d.alm? 0 0 = some a ∧ d.planAlm? 0 0 = some fedPlan ∧
    (Edit.reassignInputs 0 0).run d = (.ok (), d') ∧
    d'.wires.reservedDriver? (a.ffIn.flop .top false) = some a.efSelector.top ∧
    d.pinWire? 0 0 .e0 = some src ∧ d'.wires.reservedDriver? a.efSelector.top = some src ∧
    d'.wires.reservedDriver? a.efSelector.bottom = none := by
  obtain ⟨d₀, d, a, name, hbuilt, hreach, ha, hcells⟩ := exists_fed
  have hd := hreach.isState hbuilt
  have hplan := planAlm?_fed hd ha hcells
  obtain ⟨d', -, hrun, hrealises, -⟩ :=
    (realises_reassignInputs hbuilt hreach.hardware hd.consistent.placed ha).1 fedPlan hplan
  have hlut := lutCells_fed hd ha hcells ha
  have hflop := flopCells_fed hd ha hcells ha
  rw [if_pos ⟨rfl, rfl⟩] at hflop
  have hnet : (d.netlist.flipFlopInfo ⟨0⟩).dataIn = some ⟨0⟩ := by
    rw [Netlist.flipFlopInfo, Netlist.cell?, hcells]
    rfl
  have hdata : d.flopData a .top false = some ⟨0⟩ := by
    rw [flopData, hflop]
    exact hnet
  have houtput : d.lutOutput a .top ≠ some ⟨0⟩ := by
    rw [lutOutput, hlut]
    exact (Option.some_ne_none _).symm
  have hneeds : d.NeedsSelector a .top ⟨0⟩ :=
    ⟨false, ⟨0⟩, by rw [hflop]; rfl, .inr ⟨hnet, houtput⟩⟩
  have hidle (net : NetId) : ¬ d.NeedsSelector a .bottom net := by
    rintro ⟨second, id, hid, -⟩
    rw [hflop] at hid
    cases second <;> cases hid
  have hdriver := hrealises.data .top false ⟨0⟩ hdata
  rw [if_neg houtput] at hdriver
  obtain ⟨pin, -, src, hpin, hsrc, hselector⟩ := hrealises.selector .top ⟨0⟩ hneeds
  obtain rfl : .e0 = pin := Option.some.inj hpin
  exact ⟨d₀, d, d', a, src, hbuilt, hreach.hardware, hd.consistent.placed, ha, hplan, hrun, hdriver,
    hsrc, hselector, hrealises.idle .bottom hidle⟩

end Device

end Fabric
