import Fabric.Proofs.Footprints
import Fabric.Proofs.PlacementRun

/-!
# Packing in any order

No two LABs share a wire, no two ALMs a wire or a LUT cell, and no wire is both a control wire of a
LAB and an input of an ALM. So packing calls for different targets make touches of different parts,
and it does not matter in which order they are made. Each call decides what to do from what no
packing call writes, so it decides in the same way before and after the other.

All this holds of the states of a placement (`PlacementRun`): the LABs have the wires and sites that
they were built with, and each site holds the cell that records it.

## Main results

* `PlacementRun.isPlaced`: what keeps the targets apart holds throughout a placement;
* `PackingCall.commute`: calls for different targets can be made in either order.
-/

namespace Fabric

/-- The states of a placement are placements on LABs as they were built. -/
theorem PlacementRun.isPlaced {selection : Selection} {d₀ d : Device}
    (hbuilt : Device.ofSelection selection = .ok d₀) (h : PlacementRun d₀ d) : d.IsPlaced :=
  ⟨⟨selection, d₀, hbuilt, h.map_bare_labs⟩, h.placed hbuilt⟩

/-- An inverter has no control signals, so those of its LAB fit. -/
theorem Device.exists_controlSlots_inverter {d : Device} {name : Ident} {site : Option BelId}
    {lut : LutInfo} (hcells : d.netlist.cells = #[Device.inverter name site lut]) (info : Lab) :
    ∃ slots, d.controlSlots info = .ok slots := by
  have hflop (id : CellId) : d.netlist.flipFlopInfo id = {} := by
    rw [Netlist.flipFlopInfo, Netlist.cell?, hcells]
    cases id.index <;> rfl
  refine Device.exists_controlSlots fun kind => ?_
  have hopen : d.demandedKeys info kind = [] := by
    rw [Device.demandedKeys, List.map_eq_nil_iff, List.filter_eq_nil_iff]
    intro signal hsignal
    obtain ⟨⟨a, half, flop⟩, hmem, rfl⟩ := List.mem_map.mp hsignal
    obtain ⟨-, _, id, -, -, rfl⟩ := Device.mem_labFlipFlops.mp hmem
    rw [hflop]
    cases kind <;> exact Bool.false_ne_true
  rw [hopen]
  exact Nat.zero_le _

namespace PackingCall

variable {selection : Selection} {d₀ d : Device} {call call' : PackingCall}

/-- Packing calls for different targets give the same answers in either order, and lead to models
that are the same up to the order of their records. Each of them changes its own parts only. -/
theorem commute (hbuilt : Device.ofSelection selection = .ok d₀) (h : PlacementRun d₀ d)
    (hne : call ≠ call') :
    ∃ answer answer' mid mid' both both',
      call.edit.run d = (answer, mid) ∧ call'.edit.run mid = (answer', both) ∧
      call'.edit.run d = (answer', mid') ∧ call.edit.run mid' = (answer, both') ∧
      both.Alike both' ∧ call.KeepsTo d mid ∧ call'.KeepsTo d mid' := by
  obtain ⟨answer, ts, hts, -, hrun⟩ := call.traced d
  obtain ⟨answer', us, hus, -, hrun'⟩ := call'.traced d
  refine ⟨answer, answer', d.after ts, d.after us, (d.after ts).after us, (d.after us).after ts,
    hrun d (.refl d), hrun' _ (.of_after ts d), hrun' d (.refl d), hrun _ (.of_after us d),
    Device.alike_after_comm (fun t ht u hu => ?_) d, keepsTo_after hts, keepsTo_after hus⟩
  exact apart (h.isPlaced hbuilt) hne.symm (hus t ht) (hts u hu)

/-- The LAB of an inverter on the smallest grid can be packed before or after its ALM. -/
theorem commute_inverter : ∃ d₀ d both both', Device.ofSelection (.ofGrid 3 2) = .ok d₀ ∧
    PlacementRun d₀ d ∧ PackingCall.control 0 ≠ .inputs 0 0 ∧
    (do Edit.assignControlSets 0; Edit.reassignInputs 0 0 : Edit Unit).run d = (.ok (), both) ∧
    (do Edit.reassignInputs 0 0; Edit.assignControlSets 0 : Edit Unit).run d = (.ok (), both') ∧
    both.Alike both' := by
  obtain ⟨d₀, hbuilt, -⟩ := Device.exists_ofSelection Device.chip_smallestGrid
  obtain ⟨name, d, hreach, hcells⟩ := Device.exists_placedInverter hbuilt
  obtain ⟨info, a, hinfo, hlab, ha, halm⟩ :=
    Device.exists_alm_smallestGrid hbuilt hreach.hardware
  obtain ⟨-, hdemand⟩ :=
    Device.almDemand_inverter (hreach.consistent hbuilt) hcells (hlab.getElem?_alms ha).2
  have hplan : d.planAlm? 0 0 = InputPlan.ofDemand? Device.inverterDemand := by
    rw [Device.planAlm?, halm, Option.bind_some, hdemand]
  obtain ⟨slots, hslots⟩ := Device.exists_controlSlots_inverter hcells info
  obtain ⟨_, hcontrol, -⟩ := Edit.exists_assigned hinfo hlab hslots
  obtain ⟨_, hinputs, -⟩ := Edit.exists_run_reassignInputs hinfo hlab ha (hplan.trans rfl)
  have hne : PackingCall.control 0 ≠ .inputs 0 0 := by rintro ⟨⟩
  obtain ⟨answer, answer', mid, mid', both, both', hrun, hafter, hrun', hafter', halike, -⟩ :=
    commute hbuilt hreach.placementRun hne
  obtain ⟨rfl, -⟩ := Prod.mk.inj (hrun.symm.trans hcontrol)
  obtain ⟨rfl, -⟩ := Prod.mk.inj (hrun'.symm.trans hinputs)
  exact ⟨d₀, d, both, both', hbuilt, hreach.placementRun, hne,
    (Edit.run_bind_of_ok hrun).trans hafter, (Edit.run_bind_of_ok hrun').trans hafter', halike⟩

end PackingCall

end Fabric
